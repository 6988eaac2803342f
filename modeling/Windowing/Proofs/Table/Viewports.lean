import Windowing.Proofs.Table.Aside
import Windowing.Proofs.Table.Runs
import Windowing.Proofs.Viewports

/-!
# The viewports of a table over a run

Both viewports of a table are moved and edited as the one of a collection is, and the host has no
calls on their models. So a property of viewports that is kept in this way, a table keeps of the
rows and of the columns, over any run of calls.

## Main definitions

* `Table.ViewportsHave` — both viewports have a property.

## Main results

* `Table.layout_viewports` — a pass keeps the property.
* `Table.viewportsHave_runAll` — and so does a run.
* `Table.reached_runAll` — all that a run does to the models is to make calls on them.
-/

namespace Windowing.Table

variable {H V S : Type} [Scalar S] {holds : Viewport (Strip S) S → Prop} {table : Table V S}
  {s : Hosted H (Table V S)}

/-- Both viewports of the table have a property. -/
structure ViewportsHave (holds : Viewport (Strip S) S → Prop) (table : Table V S) : Prop where
  rows : holds table.rows
  cols : holds table.cols

section Tended

variable (htended : Viewport.Tended holds)

include htended

/-! ### Scrolling and edits -/

theorem scrollRows_viewports (request : ScrollRequest S) (h : table.ViewportsHave holds) :
    (scrollRows request).Ensures table (fun _ ↦ ViewportsHave holds) (ViewportsHave holds) := by
  simp only [scrollRows, Step.ensures_bind, Step.ensures_modify, Step.ensures_get,
    Step.ensures_ofExcept]
  cases hmoved : request.apply table.rows with
  | error fault => exact ⟨h.rows, h.cols⟩
  | ok moved => exact ⟨Viewport.apply_keeps htended.scrollTo h.rows hmoved, h.cols⟩

theorem scrollCols_viewports (request : ScrollRequest S) (h : table.ViewportsHave holds) :
    (scrollCols request).Ensures table (fun _ ↦ ViewportsHave holds) (ViewportsHave holds) := by
  simp only [scrollCols, Step.ensures_bind, Step.ensures_modify, Step.ensures_get,
    Step.ensures_ofExcept]
  cases hmoved : request.apply table.cols with
  | error fault => exact ⟨h.rows, h.cols⟩
  | ok moved => exact ⟨h.rows, Viewport.apply_keeps htended.scrollTo h.cols hmoved⟩

theorem scrollBoth_viewports (rowRequest colRequest : ScrollRequest S)
    (h : table.ViewportsHave holds) :
    (scrollBoth rowRequest colRequest).Ensures table (fun _ ↦ ViewportsHave holds)
      (ViewportsHave holds) := by
  simp only [scrollBoth, Step.ensures_bind, Step.ensures_pure]
  refine (scrollRows_viewports htended rowRequest h).mono (fun _ _ ht ↦ ?_) fun _ ht ↦ ht
  exact scrollCols_viewports htended colRequest ht

theorem setViewportSize_viewports (size : Size S) (h : table.ViewportsHave holds) :
    (table.setViewportSize size).1.ViewportsHave holds := by
  simp only [setViewportSize]
  split
  · exact ⟨htended.resize _ h.rows, htended.resize _ h.cols⟩
  · exact h

theorem setRowHeight_viewports (row : Nat) (height : S) (h : table.ViewportsHave holds) :
    (setRowHeight row height).Ensures table (fun _ ↦ ViewportsHave holds)
      (ViewportsHave holds) := by
  simp only [setRowHeight, Viewport.onModel, Step.ensures_bind, Step.ensures_within]
  refine (htended.setItemExtent row height h.rows).mono (fun applied rows hrows ↦ ?_)
    fun _ hrows ↦ ⟨hrows, h.cols⟩
  cases applied with
  | false => exact ⟨hrows, h.cols⟩
  | true => exact ⟨hrows, h.cols⟩

theorem setColumnWidth_viewports (col : Nat) (width : S) (h : table.ViewportsHave holds) :
    (setColumnWidth col width).Ensures table (fun _ ↦ ViewportsHave holds)
      (ViewportsHave holds) := by
  simp only [setColumnWidth, Viewport.onModel, Step.ensures_bind, Step.ensures_within]
  refine (htended.setItemExtent col width h.cols).mono (fun applied cols hcols ↦ ?_)
    fun _ hcols ↦ ⟨h.rows, hcols⟩
  cases applied with
  | false => exact ⟨h.rows, hcols⟩
  | true => exact ⟨h.rows, hcols⟩

theorem adoptDimensions_viewports (dimensions : Nat × Nat) (h : table.ViewportsHave holds) :
    (table.adoptDimensions dimensions).1.ViewportsHave holds :=
  ⟨htended.setLen _ h.rows, htended.setLen _ h.cols⟩

theorem syncDimensions_viewports (dimensions : Nat × Nat) (h : table.ViewportsHave holds) :
    (table.syncDimensions dimensions).1.ViewportsHave holds := by
  rw [syncDimensions]
  split
  · exact adoptDimensions_viewports htended dimensions h
  · exact h

/-! ### A pass -/

theorem applyPendingRows_viewports (h : table.ViewportsHave holds) :
    applyPendingRows.Ensures table (fun _ ↦ ViewportsHave holds) (ViewportsHave holds) := by
  simp only [applyPendingRows, Step.ensures_bind, Step.ensures_get]
  cases table.pendingRows with
  | none => exact h
  | some request =>
    simp only [Step.ensures_bind, Step.ensures_modify, Step.ensures_get, Step.ensures_ofExcept]
    cases hmoved : request.apply table.rows with
    | error fault => exact ⟨h.rows, h.cols⟩
    | ok moved => exact ⟨Viewport.apply_keeps htended.scrollTo h.rows hmoved, h.cols⟩

theorem applyPendingCols_viewports (h : table.ViewportsHave holds) :
    applyPendingCols.Ensures table (fun _ ↦ ViewportsHave holds) (ViewportsHave holds) := by
  simp only [applyPendingCols, Step.ensures_bind, Step.ensures_get]
  cases table.pendingCols with
  | none => exact h
  | some request =>
    simp only [Step.ensures_bind, Step.ensures_modify, Step.ensures_get, Step.ensures_ofExcept]
    cases hmoved : request.apply table.cols with
    | error fault => exact ⟨h.rows, h.cols⟩
    | ok moved => exact ⟨h.rows, Viewport.apply_keeps htended.scrollTo h.cols hmoved⟩

theorem approach_viewports (dimensions : Nat × Nat) (h : table.ViewportsHave holds) :
    (approach dimensions).Ensures table (fun _ ↦ ViewportsHave holds) (ViewportsHave holds) := by
  simp only [approach, Step.ensures_bind, Step.ensures_modify, Step.ensures_modifyGet]
  have hsynced := syncDimensions_viewports htended dimensions h
  refine (applyPendingRows_viewports htended hsynced).mono (fun _ t ht ↦ ?_) fun _ ht ↦ ht
  refine (applyPendingCols_viewports htended ht).mono (fun _ u hu ↦ ?_) fun _ hu ↦ hu
  exact ⟨htended.window (htended.clamp hu.rows), htended.window (htended.clamp hu.cols)⟩

variable [ViewHandle H V S]

theorem layout_viewports (source : TableSource H V) (h : s.held.ViewportsHave holds) :
    (layout source).Ensures s (fun _ t ↦ t.held.ViewportsHave holds)
      fun t ↦ t.held.ViewportsHave holds := by
  have hopened : s.held.openPass.ViewportsHave holds := ⟨h.rows, h.cols⟩
  refine layout_of_prepare (ensures_prepare.mpr ?_)
  refine (approach_viewports htended (source.dimensions s.host).1 hopened).mono
    (fun _ _ ht ↦ ?_) fun _ ht ↦ ht
  exact ⟨fun _ _ _ ↦ ⟨ht.rows, ht.cols⟩, fun _ _ ↦ ⟨ht.rows, ht.cols⟩⟩

/-! ### Calls -/

omit [Scalar S] htended in
theorem changeSelection_viewports
    (change : Selection CellId → Selection CellId × List (Selection.Change CellId))
    (h : s.held.ViewportsHave holds) :
    (changeSelection change).Ensures s (fun _ t ↦ t.held.ViewportsHave holds)
      fun t ↦ t.held.ViewportsHave holds := by
  simp only [changeSelection, onStock, Step.ensures_bind, Step.ensures_onHeld,
    Step.ensures_modifyGet, Step.ensures_onPart, Step.ensures_pure]
  exact Step.ensures_of_forall (fun _ _ ↦ ⟨h.rows, h.cols⟩) fun _ ↦ ⟨h.rows, h.cols⟩

theorem aim_viewports (source : TableSource H V) (cell : CellId) (h : s.held.ViewportsHave holds) :
    (aim source cell).Ensures s (fun _ t ↦ t.held.ViewportsHave holds)
      fun t ↦ t.held.ViewportsHave holds := by
  simp only [aim, pollDimensions, Step.ensures_bind, Step.ensures_onHost, Step.ensures_modifyGet]
  have hpolled : (Hosted.mk (source.dimensions s.host).2 s.held).held.ViewportsHave holds := h
  refine (changeSelection_viewports _ hpolled).mono (fun changes t ht ↦ ?_) fun _ ht ↦ ht
  simp only [Step.ensures_ite, Step.ensures_pure, Step.ensures_bind, Step.ensures_onHeld,
    Step.ensures_modifyGet, reveal]
  split
  · exact ht
  · split
    · exact scrollBoth_viewports htended _ _ (adoptDimensions_viewports htended _ ht)
    · exact scrollBoth_viewports htended _ _ ht

omit [Scalar S] [ViewHandle H V S] htended in
theorem flagged_viewports {step : Step (Table V S) Bool}
    (hstep : step.Ensures s.held (fun _ ↦ ViewportsHave holds) (ViewportsHave holds)) :
    (flagged (H := H) step).Ensures s (fun _ t ↦ t.held.ViewportsHave holds)
      fun t ↦ t.held.ViewportsHave holds := by
  rw [flagged, Step.ensures_bind, Step.ensures_onHeld]
  exact hstep

/-- The part of a call before its pass keeps the property. -/
theorem lead_viewports (source : TableSource H V) (call : Call H S)
    (h : s.held.ViewportsHave holds) :
    (call.lead source).Ensures s (fun _ t ↦ t.held.ViewportsHave holds)
      fun t ↦ t.held.ViewportsHave holds := by
  have hrows (request : ScrollRequest S) :=
    flagged_viewports (H := H) (scrollRows_viewports htended request h)
  have hcols (request : ScrollRequest S) :=
    flagged_viewports (H := H) (scrollCols_viewports htended request h)
  have hboth (rowRequest colRequest : ScrollRequest S) :=
    flagged_viewports (H := H) (scrollBoth_viewports htended rowRequest colRequest h)
  cases call
  case layout => exact h
  case refreshAll => exact ⟨h.rows, h.cols⟩
  case dimensionsChanged => exact ⟨h.rows, h.cols⟩
  case select cell =>
    simp only [Call.lead, Step.ensures_bind, Step.ensures_pure]
    exact aim_viewports htended source cell h
  all_goals simp only [Call.lead, Call.perform, Step.ensures_bind, Step.ensures_pure]
  case cellInvalidated cell =>
    simp only [cellInvalidated, onStock, Step.ensures_bind, Step.ensures_get, Step.ensures_onPart]
    exact Step.ensures_of_forall (fun _ _ ↦ ⟨h.rows, h.cols⟩) fun _ ↦ ⟨h.rows, h.cols⟩
  case unselect cell => exact changeSelection_viewports _ h
  case unselectAll => exact changeSelection_viewports _ h
  case isSelected cell => exact h
  case setViewportSize size =>
    refine flagged_viewports ?_
    rw [Step.ensures_modifyGet]
    exact setViewportSize_viewports htended size h
  case scrollTo offset => exact hboth _ _
  case reveal cell => exact hboth _ _
  case scrollToTop => exact hrows _
  case scrollToBottom => exact hrows _
  case scrollToLeading => exact hcols _
  case scrollToTrailing => exact hcols _
  case setRowHeight row height =>
    exact flagged_viewports (setRowHeight_viewports htended row height h)
  case setColumnWidth col width =>
    exact flagged_viewports (setColumnWidth_viewports htended col width h)
  case destroyAll => exact ⟨h.rows, h.cols⟩
  case host change => exact h

/-- A run keeps the property. -/
theorem viewportsHave_runAll (source : TableSource H V) (calls : List (Call H S))
    (h : s.held.ViewportsHave holds) :
    (Step.runAll (Call.perform source) calls s).2.held.ViewportsHave holds := by
  refine Step.holds_runAll (fun t : Hosted H (Table V S) ↦ t.held.ViewportsHave holds)
    (fun call _ t ht ↦ ?_) h
  exact Call.holds_after_perform (lead_viewports htended source call ht) fun _ ↦
    layout_viewports htended source

end Tended

/-- All that a run does to the two models is to make calls on them. -/
theorem reached_runAll [ViewHandle H V S] {start : Strip S → Prop} (source : TableSource H V)
    (calls : List (Call H S)) (h : s.held.ViewportsHave fun viewport ↦ start viewport.model) :
    (Step.runAll (Call.perform source) calls s).2.held.ViewportsHave fun viewport ↦
      Step.Reached Strip.Call.perform (fun _ ↦ True) start viewport.model :=
  viewportsHave_runAll (Strip.upheld_reached start).viewport.tended source calls
    ⟨.start h.rows, .start h.cols⟩

end Windowing.Table
