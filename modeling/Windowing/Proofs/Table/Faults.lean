import Windowing.Proofs.Extent.Measured
import Windowing.Proofs.Faults
import Windowing.Proofs.Showing
import Windowing.Proofs.Table.Coherence

/-!
# What cuts a call on a table short

A strip knows the extent of every row and every column, so with finite heights and widths the
scrolling and the edits of a table do not fail. As in a collection, the bookkeeping of its views
holds between any two calls, and a call ends with a fault only if the source raised it.

## Main definitions

* `Table.Call.extents` — the heights and widths that a call hands over.

## Main results

* `Table.layout_faultsOnly` — a pass is cut short by the source only.
* `Table.raises_of_mem_runAll` — and so is every call of a run.
-/

namespace Windowing.Table

variable {H V S : Type}

/-- The heights and widths that a call hands over. -/
def Call.extents : Call H S → List S
  | setRowHeight _ height => [height]
  | setColumnWidth _ width => [width]
  | _ => []

theorem Call.extents_journaled (call : Call H S) : call.journaled.extents = call.extents := by
  cases call <;> rfl

variable [Scalar S]

section Plain

variable {table : Table V S} {s : Hosted H (Table V S)}

/-! ### Scrolling and edits -/

theorem scrollRows_answers (request : ScrollRequest S) :
    (scrollRows request).Ensures table (fun _ _ ↦ True) fun _ ↦ False := by
  obtain ⟨moved, hmoved⟩ := Viewport.exists_apply_eq_ok request table.rows
  simp only [scrollRows, Step.ensures_bind, Step.ensures_modify, Step.ensures_get,
    Step.ensures_ofExcept]
  rw [hmoved]
  trivial

theorem scrollCols_answers (request : ScrollRequest S) :
    (scrollCols request).Ensures table (fun _ _ ↦ True) fun _ ↦ False := by
  obtain ⟨moved, hmoved⟩ := Viewport.exists_apply_eq_ok request table.cols
  simp only [scrollCols, Step.ensures_bind, Step.ensures_modify, Step.ensures_get,
    Step.ensures_ofExcept]
  rw [hmoved]
  trivial

theorem scrollBoth_answers (rowRequest colRequest : ScrollRequest S) :
    (scrollBoth rowRequest colRequest).Ensures table (fun _ _ ↦ True) fun _ ↦ False := by
  simp only [scrollBoth, Step.ensures_bind, Step.ensures_pure]
  exact (scrollRows_answers rowRequest).mono (fun _ _ _ ↦ scrollCols_answers colRequest) fun _ ↦ id

theorem setRowHeight_answers (row : Nat) {height : S} (hfinite : Scalar.isFinite height = true) :
    (setRowHeight row height).Ensures table (fun _ _ ↦ True) fun _ ↦ False := by
  simp only [setRowHeight, Viewport.onModel, Step.ensures_bind, Step.ensures_within]
  refine (table.rows.model.setOverride_answers row hfinite).mono (fun applied _ _ ↦ ?_) fun _ ↦ id
  cases applied with
  | false => trivial
  | true => trivial

theorem setColumnWidth_answers (col : Nat) {width : S} (hfinite : Scalar.isFinite width = true) :
    (setColumnWidth col width).Ensures table (fun _ _ ↦ True) fun _ ↦ False := by
  simp only [setColumnWidth, Viewport.onModel, Step.ensures_bind, Step.ensures_within]
  refine (table.cols.model.setOverride_answers col hfinite).mono (fun applied _ _ ↦ ?_) fun _ ↦ id
  cases applied with
  | false => trivial
  | true => trivial

theorem applyPendingRows_answers :
    applyPendingRows.Ensures table (fun _ _ ↦ True) fun _ ↦ False := by
  simp only [applyPendingRows, Step.ensures_bind, Step.ensures_get]
  cases table.pendingRows with
  | none => trivial
  | some request =>
    obtain ⟨moved, hmoved⟩ := Viewport.exists_apply_eq_ok request table.rows
    simp only [Step.ensures_bind, Step.ensures_modify, Step.ensures_get, Step.ensures_ofExcept]
    rw [hmoved]
    trivial

theorem applyPendingCols_answers :
    applyPendingCols.Ensures table (fun _ _ ↦ True) fun _ ↦ False := by
  simp only [applyPendingCols, Step.ensures_bind, Step.ensures_get]
  cases table.pendingCols with
  | none => trivial
  | some request =>
    obtain ⟨moved, hmoved⟩ := Viewport.exists_apply_eq_ok request table.cols
    simp only [Step.ensures_bind, Step.ensures_modify, Step.ensures_get, Step.ensures_ofExcept]
    rw [hmoved]
    trivial

theorem prepare_answers (source : TableSource H V) (s : Hosted H (Table V S)) :
    (prepare source).Ensures s (fun _ _ ↦ True) fun _ ↦ False := by
  rw [ensures_prepare]
  simp only [approach, Step.ensures_bind, Step.ensures_modify, Step.ensures_modifyGet]
  exact applyPendingRows_answers.mono
    (fun _ _ _ ↦ applyPendingCols_answers.mono (fun _ _ _ ↦ trivial) fun _ ↦ id) fun _ ↦ id

variable [ViewHandle H V S]

omit [Scalar S] in
theorem changeSelection_answers
    (change : Selection CellId → Selection CellId × List (Selection.Change CellId)) :
    (changeSelection change).Ensures s (fun _ _ ↦ True) fun _ ↦ False := by
  simp only [changeSelection, onStock, Step.ensures_bind, Step.ensures_onHeld,
    Step.ensures_modifyGet, Step.ensures_onPart, Step.ensures_pure]
  exact ViewStock.restyle_answers _ _

theorem aim_answers (source : TableSource H V) (cell : CellId) :
    (aim source cell).Ensures s (fun _ _ ↦ True) fun _ ↦ False := by
  simp only [aim, pollDimensions, Step.ensures_bind, Step.ensures_onHost, Step.ensures_modifyGet]
  refine (changeSelection_answers _).mono (fun changes t _ ↦ ?_) fun _ ↦ id
  simp only [Step.ensures_ite, Step.ensures_pure, Step.ensures_bind, Step.ensures_onHeld,
    Step.ensures_modifyGet]
  split
  · trivial
  · exact scrollBoth_answers _ _

/-! ### The part of a call before its pass -/

/-- Before its pass, a call with finite heights and widths is cut short by the source only. -/
theorem lead_faultsOnly {source : TableSource H V} {blamed : Fault → Prop}
    (hsource : source.views.FaultsOnly blamed) {call : Call H S}
    (hfinite : ∀ extent ∈ call.extents, Scalar.isFinite extent = true) :
    (call.lead source).FaultsOnly blamed s fun _ _ ↦ True := by
  have hflagged {step : Step (Table V S) Bool}
      (hstep : step.Ensures s.held (fun _ _ ↦ True) fun _ ↦ False) :
      (flagged (H := H) step).Ensures s (fun _ _ ↦ True) fun _ ↦ False := by
    simpa only [flagged, Step.ensures_bind, Step.ensures_onHeld, Step.ensures_pure] using hstep
  cases call
  case cellInvalidated cell =>
    simp only [Call.lead, Call.perform, cellInvalidated, onStock, Step.faultsOnly_bind,
      Step.faultsOnly_get, Step.faultsOnly_onPart]
    exact (ViewStock.refill_faultsOnly hsource _).mono fun _ _ _ ↦ trivial
  case layout => trivial
  case refreshAll => trivial
  case dimensionsChanged => trivial
  -- The source fills no view in any other call before its pass.
  all_goals
    refine Step.Ensures.faultsOnly ?_
    simp only [Call.lead, Call.perform, Step.ensures_bind, Step.ensures_pure]
  case select cell => exact aim_answers source cell
  case unselect cell => exact changeSelection_answers _
  case unselectAll => exact changeSelection_answers _
  case isSelected cell => trivial
  case setViewportSize size => exact hflagged trivial
  case scrollTo offset => exact hflagged (scrollBoth_answers _ _)
  case reveal cell => exact hflagged (scrollBoth_answers _ _)
  case scrollToTop => exact hflagged (scrollRows_answers _)
  case scrollToBottom => exact hflagged (scrollRows_answers _)
  case scrollToLeading => exact hflagged (scrollCols_answers _)
  case scrollToTrailing => exact hflagged (scrollCols_answers _)
  case setRowHeight row height =>
    exact hflagged (setRowHeight_answers row (hfinite height (.head _)))
  case setColumnWidth col width =>
    exact hflagged (setColumnWidth_answers col (hfinite width (.head _)))
  case destroyAll => trivial
  case host change => trivial

end Plain

/-! ### A pass -/

variable [ViewHandle H V S] {blamed : Fault → Prop} {base : Nat} {source : TableSource H V}

/-- A pass of a coherent table is cut short by the source only. -/
theorem layout_faultsOnly (hsource : source.views.FaultsOnly blamed)
    {s : Hosted (Journal H CellId S) (Table (Tracked CellId V S) S)} (hcoherent : Coherent base s) :
    (layout source.journaled).FaultsOnly blamed s fun _ _ ↦ True := by
  simp only [layout, Step.faultsOnly_bind]
  refine ((prepare_answers source.journaled s).faultsOnly.and_ensures
    (prepare_ensures source hcoherent)).mono fun answer t ht ↦ ?_
  obtain ⟨-, hcoherent, -, horderly, -⟩ := ht
  simp only [realize, onStock, Step.faultsOnly_bind, Step.faultsOnly_get, Step.faultsOnly_onHeld,
    Step.faultsOnly_modify, Step.faultsOnly_onPart]
  let step := ViewStock.follow (source.journaled (S := S)).views (t.held.layoutFor t.held.due)
    (t.held.window.leaving answer.1) answer.1.cells answer.1.contains
  have hfollow : step.FaultsOnly blamed ⟨t.host, t.held.stock⟩ _ :=
    ViewStock.follow_faultsOnly source.journals_views (TableSource.faultsOnly_journaled hsource)
      answer.1.nodup_cells (fun _ ↦ TableWindow.mem_cells_iff.symm)
      (fun _ ↦ TableWindow.not_mem_cells_of_mem_leaving) hcoherent.conserved
      (fun hrebind ↦ tidy_of_orderly (horderly hrebind) answer.1) fun _ _ ↦ ⟨_, rfl⟩
  exact hfollow.mono fun _ _ _ ↦ trivial

/-! ### Runs -/

/-- What cuts a call short is what cuts its part before the pass short, or the pass. -/
theorem Call.faultsOnly_perform {s : Hosted H (Table V S)} (call : Call H S) :
    (call.perform source).FaultsOnly blamed s (fun _ _ ↦ True) ↔
      (call.lead source).FaultsOnly blamed s fun follows t ↦
        if follows then (Table.layout source).FaultsOnly blamed t fun _ _ ↦ True else True := by
  cases call with
  | layout => simp [perform, lead]
  | refreshAll => simp [perform, lead, Table.refreshAll]
  | dimensionsChanged => simp [perform, lead, Table.dimensionsChanged]
  | select cell => simp [perform, lead, Table.select]
  | _ => simp [lead]

/-- A call of a run ends with a fault only if the source raised it, as long as the heights and
widths that the calls hand over are finite. -/
theorem raises_of_mem_runAll {host : H} {rows cols : Strip S} {mode : SelectionMode}
    {lookahead : Nat} {calls : List (Call H S)}
    (hfinite : ∀ call ∈ calls, ∀ extent ∈ call.extents, Scalar.isFinite extent = true)
    {fault : Fault} (hfault : .error fault ∈ (Step.runAll (Call.perform source) calls
      ⟨host, initial rows cols mode lookahead⟩).1) : source.views.Raises fault := by
  have hrun := runAll_record source calls (recorded host rows cols mode lookahead)
  have hfault : .error fault ∈ (Step.runAll (Call.record source) calls
      (recorded host rows cols mode lookahead)).1 := congrArg Prod.fst hrun ▸ hfault
  have hsource := source.views.faultsOnly_raises
  refine Step.blamed_of_mem_runAll (fun t ↦ ∃ base, Coherent base t)
    (fun call _ s ⟨_, hcoherent⟩ ↦ ⟨_, record_coherent source call hcoherent⟩)
    (fun call hcall s ⟨base, hcoherent⟩ ↦ ?_) ⟨0, recorded_coherent host rows cols mode lookahead⟩
    hfault
  rw [Call.record, Call.faultsOnly_perform]
  have hfaults := lead_faultsOnly (s := s) (TableSource.faultsOnly_journaled (S := S) hsource)
    fun extent hextent ↦ hfinite call hcall extent (call.extents_journaled ▸ hextent)
  refine hfaults.and_eq_ok.mono fun follows t ht ↦ ?_
  obtain ⟨-, heq⟩ := ht
  cases follows with
  | false => trivial
  | true =>
    have hcall := (Call.isDestroyAll_journaled call).symm.trans (Call.isDestroyAll_of_lead heq)
    exact layout_faultsOnly hsource ((lead_coherent source call hcall hcoherent).of_ok heq)

end Windowing.Table
