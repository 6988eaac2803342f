import Windowing.Proofs.Showing
import Windowing.Proofs.Table.Viewports

/-!
# A table shows the cell that it was asked for

As a collection does, a table remembers the cell that it was asked to show until the next pass, one
request for the rows and one for the columns. The pass makes both again once it knows the
dimensions, and the axes do not get in each other's way.

## Main definitions

* `Table.Asked` — the requests that are pending.
* `Table.Call.leavesRequests` — calls that neither scroll nor run a pass.

## Main results

* `Table.asked_runAll` — requests stay pending over such calls.
* `Table.layout_shows` — a pass shows the row and the column that were asked for.
-/

namespace Windowing.Table

/-- Whether a call leaves scroll requests pending: it neither scrolls nor runs a pass. -/
def Call.leavesRequests {H S : Type} : Call H S → Bool
  | layout | refreshAll | dimensionsChanged | select _ => false
  | scrollTo _ | reveal _ | scrollToTop | scrollToBottom | scrollToLeading | scrollToTrailing =>
    false
  | _ => true

section Pending

variable {H V S : Type} {rowRequest colRequest : ScrollRequest S} {s : Hosted H (Table V S)}

/-- These requests to scroll the rows and the columns are pending. -/
structure Asked (rowRequest colRequest : ScrollRequest S) (table : Table V S) : Prop where
  rows : table.pendingRows = some rowRequest
  cols : table.pendingCols = some colRequest

theorem changeSelection_asked [ViewHandle H V S]
    (change : Selection CellId → Selection CellId × List (Selection.Change CellId))
    (h : s.held.Asked rowRequest colRequest) :
    (changeSelection change).Ensures s (fun _ t ↦ t.held.Asked rowRequest colRequest)
      fun t ↦ t.held.Asked rowRequest colRequest := by
  simp only [changeSelection, onStock, Step.ensures_bind, Step.ensures_onHeld,
    Step.ensures_modifyGet, Step.ensures_onPart, Step.ensures_pure]
  exact Step.ensures_of_forall (fun _ _ ↦ ⟨h.rows, h.cols⟩) fun _ ↦ ⟨h.rows, h.cols⟩

variable [Scalar S]

/-- Requests to scroll both ways are pending as soon as they are made. -/
theorem scrollBoth_asked (rowRequest colRequest : ScrollRequest S) (table : Table V S) :
    (scrollBoth rowRequest colRequest).Ensures table (fun _ t ↦ t.Asked rowRequest colRequest)
      fun _ ↦ False := by
  obtain ⟨rowsMoved, hrows⟩ := Viewport.exists_apply_eq_ok rowRequest table.rows
  obtain ⟨colsMoved, hcols⟩ := Viewport.exists_apply_eq_ok colRequest table.cols
  simp only [scrollBoth, scrollRows, scrollCols, Step.ensures_bind, Step.ensures_modify,
    Step.ensures_get, Step.ensures_ofExcept, Step.ensures_pure, hrows, hcols]
  exact ⟨rfl, rfl⟩

theorem asked_setViewportSize (size : Size S) {table : Table V S}
    (h : table.Asked rowRequest colRequest) :
    (table.setViewportSize size).1.Asked rowRequest colRequest := by
  simp only [setViewportSize]
  split
  · exact ⟨by rw [h.rows, Option.getD_some], by rw [h.cols, Option.getD_some]⟩
  · exact h

variable [ViewHandle H V S]

theorem perform_asked (source : TableSource H V) {call : Call H S}
    (hcall : call.leavesRequests = true) (h : s.held.Asked rowRequest colRequest) :
    (call.perform source).Ensures s (fun _ t ↦ t.held.Asked rowRequest colRequest)
      fun t ↦ t.held.Asked rowRequest colRequest := by
  cases call
  case layout | refreshAll | dimensionsChanged | select => cases hcall
  case scrollTo | reveal => cases hcall
  case scrollToTop | scrollToBottom | scrollToLeading | scrollToTrailing => cases hcall
  all_goals simp only [Call.perform, Step.ensures_bind, Step.ensures_pure]
  case cellInvalidated cell =>
    simp only [cellInvalidated, onStock, Step.ensures_bind, Step.ensures_get, Step.ensures_onPart]
    exact Step.ensures_of_forall (fun _ _ ↦ ⟨h.rows, h.cols⟩) fun _ ↦ ⟨h.rows, h.cols⟩
  case unselect cell => exact changeSelection_asked _ h
  case unselectAll => exact changeSelection_asked _ h
  case isSelected cell => exact h
  case setViewportSize size => exact asked_setViewportSize size h
  case setRowHeight row height =>
    simp only [flagged, setRowHeight, Step.ensures_bind, Step.ensures_onHeld, Step.ensures_within,
      Step.ensures_ite, Step.ensures_modify, Step.ensures_pure]
    exact Step.ensures_of_forall (fun _ _ ↦ by split <;> exact ⟨h.rows, h.cols⟩)
      fun _ ↦ ⟨h.rows, h.cols⟩
  case setColumnWidth col width =>
    simp only [flagged, setColumnWidth, Step.ensures_bind, Step.ensures_onHeld, Step.ensures_within,
      Step.ensures_ite, Step.ensures_modify, Step.ensures_pure]
    exact Step.ensures_of_forall (fun _ _ ↦ by split <;> exact ⟨h.rows, h.cols⟩)
      fun _ ↦ ⟨h.rows, h.cols⟩
  case destroyAll => exact ⟨h.rows, h.cols⟩
  case host change => exact h

/-- A cell that a table was asked to show stays asked for over calls that neither scroll nor run a
pass. -/
theorem asked_runAll (source : TableSource H V) (cell : CellId) {between : List (Call H S)}
    (hbetween : ∀ call ∈ between, call.leavesRequests = true) (s : Hosted H (Table V S)) :
    (Step.runAll (Call.perform source) (.reveal cell :: between) s).2.held.Asked
      (.item cell.row .nearest) (.item cell.col .nearest) := by
  have hasked : ((Call.reveal cell).perform source).Ensures s
      (fun _ t ↦ t.held.Asked (.item cell.row .nearest) (.item cell.col .nearest))
      fun t ↦ t.held.Asked (.item cell.row .nearest) (.item cell.col .nearest) := by
    simp only [Call.perform, flagged, reveal, Step.ensures_bind, Step.ensures_onHeld,
      Step.ensures_pure]
    exact (scrollBoth_asked _ _ s.held).mono (fun _ _ ht ↦ ht) fun _ ht ↦ ht.elim
  have hkept (call : Call H S) (hcall : call ∈ between) (t : Hosted H (Table V S))
      (ht : t.held.Asked (.item cell.row .nearest) (.item cell.col .nearest)) :
      ((call.perform source).after t).held.Asked (.item cell.row .nearest)
        (.item cell.col .nearest) :=
    Step.ensures_iff_after.mp (perform_asked source (hbetween call hcall) ht)
  rw [Step.runAll]
  exact Step.holds_runAll _ hkept (Step.ensures_iff_after.mp hasked)

end Pending

/-! ### The pass -/

variable {H V : Type} {cell : CellId} {table : Table V Rat}

/-- The viewports of the table show the row and the column of a cell, or the last ones, as far as
the table has rows and columns. -/
structure Shows (table : Table V Rat) (window : TableWindow) (dimensions : Nat × Nat)
    (cell : CellId) : Prop where
  rows : 0 < dimensions.1 → table.rows.Shows window.rows (min cell.row (dimensions.1 - 1))
  cols : 0 < dimensions.2 → table.cols.Shows window.cols (min cell.col (dimensions.2 - 1))

/-- The part of a pass that concerns scrolling shows the cell that was asked for. -/
theorem approach_shows {holds : Strip Rat → Prop} (hkeeps : ExtentModel.KeepsOrder holds)
    (dimensions : Nat × Nat)
    (h : table.ViewportsHave fun viewport ↦ viewport.Fresh ∧ holds viewport.model)
    (hasked : table.Asked (.item cell.row .nearest) (.item cell.col .nearest)) :
    (approach dimensions).Ensures table (fun answer t ↦ t.Shows answer.1 dimensions cell)
      fun _ ↦ True := by
  have hsynced := syncDimensions_viewports
    (Viewport.upheld_fresh.and hkeeps.toUpheld.viewport).tended dimensions h
  have hrowCount : ExtentModel.len (table.syncDimensions dimensions).1.rows.model = dimensions.1 :=
    congrArg Prod.fst (dimensions_syncDimensions dimensions table)
  have hcolCount : ExtentModel.len (table.syncDimensions dimensions).1.cols.model = dimensions.2 :=
    congrArg Prod.snd (dimensions_syncDimensions dimensions table)
  have hkept : (table.syncDimensions dimensions).1.Asked (.item cell.row .nearest)
      (.item cell.col .nearest) := by
    rw [syncDimensions]
    split <;> exact ⟨hasked.rows, hasked.cols⟩
  obtain ⟨rowsMoved, hrows⟩ := Viewport.exists_apply_eq_ok (.item cell.row .nearest)
    (table.syncDimensions dimensions).1.rows
  obtain ⟨colsMoved, hcols⟩ := Viewport.exists_apply_eq_ok (.item cell.col .nearest)
    (table.syncDimensions dimensions).1.cols
  simp only [approach, applyPendingRows, applyPendingCols, Step.ensures_bind, Step.ensures_modify,
    Step.ensures_modifyGet, Step.ensures_get, Prod.snd_swap, hkept.rows, hkept.cols, hrows, hcols,
    Step.ensures_ofExcept, Step.ensures_pure]
  refine ⟨fun hlen ↦ ?_, fun hlen ↦ ?_⟩
  · have hshows := Viewport.shows_window hkeeps hsynced.rows (hrowCount.symm ▸ hlen) hrows
    rwa [Viewport.broughtItem, hrowCount] at hshows
  · have hshows := Viewport.shows_window hkeeps hsynced.cols (hcolCount.symm ▸ hlen) hcols
    rwa [Viewport.broughtItem, hcolCount] at hshows

/-- A pass shows the cell that was asked for, as far as there are rows and columns. -/
theorem layout_shows [ViewHandle H V Rat] {holds : Strip Rat → Prop}
    (hkeeps : ExtentModel.KeepsOrder holds) (source : TableSource H V)
    {s : Hosted H (Table V Rat)}
    (h : s.held.ViewportsHave fun viewport ↦ viewport.Fresh ∧ holds viewport.model)
    (hasked : s.held.Asked (.item cell.row .nearest) (.item cell.col .nearest)) :
    (layout source).Ensures s
      (fun pass t ↦ t.held.Shows pass.window (source.dimensions s.host).1 cell) fun _ ↦ True := by
  have hopened : s.held.openPass.ViewportsHave
      fun viewport ↦ viewport.Fresh ∧ holds viewport.model := ⟨h.rows, h.cols⟩
  have hpending : s.held.openPass.Asked (.item cell.row .nearest) (.item cell.col .nearest) :=
    ⟨hasked.rows, hasked.cols⟩
  refine layout_of_prepare (ensures_prepare.mpr ?_)
  exact (approach_shows hkeeps (source.dimensions s.host).1 hopened hpending).mono
    (fun _ _ ht ↦ ⟨fun _ _ _ ↦ ⟨ht.rows, ht.cols⟩, fun _ _ ↦ trivial⟩) fun _ _ ↦ trivial

/-- After every run of calls, a pass of a table shows the cell that the table was last asked for, if
no call since has scrolled or run a pass. -/
theorem shows_of_reveal [ViewHandle H V Rat] {holds : Strip Rat → Prop}
    (hkeeps : ExtentModel.KeepsOrder holds) (source : TableSource H V) (host : H)
    {rows cols : Strip Rat} (hrows : holds rows) (hcols : holds cols) (mode : SelectionMode)
    (lookahead : Nat) (calls : List (Call H Rat)) (cell : CellId) {between : List (Call H Rat)}
    (hbetween : ∀ call ∈ between, call.leavesRequests = true) {pass : Pass TableWindow CellId}
    {t : Hosted H (Table V Rat)} :
    let before :=
      (Step.runAll (Call.perform source) calls ⟨host, initial rows cols mode lookahead⟩).2
    let s := (Step.runAll (Call.perform source) (.reveal cell :: between) before).2
    layout source s = .ok pass t → t.held.Shows pass.window (source.dimensions s.host).1 cell := by
  intro before s hpass
  let holds' (viewport : Viewport (Strip Rat) Rat) : Prop := viewport.Fresh ∧ holds viewport.model
  have hupheld : Viewport.Upheld holds' := Viewport.upheld_fresh.and hkeeps.toUpheld.viewport
  have hbuilt {strip : Strip Rat} (h : holds strip) :
      holds' ((Viewport.ofModel strip Scalar.zero).setLookahead lookahead) :=
    ⟨Viewport.fresh_ofModel strip Scalar.zero lookahead,
      (congrArg holds (Viewport.setLookahead_steady lookahead _).model_eq).mpr h⟩
  have hstart : (initial rows cols mode lookahead : Table V Rat).ViewportsHave holds' :=
    ⟨hbuilt hrows, hbuilt hcols⟩
  have hbefore : before.held.ViewportsHave holds' :=
    viewportsHave_runAll hupheld.tended source calls hstart
  have hs : s.held.ViewportsHave holds' := viewportsHave_runAll hupheld.tended source _ hbefore
  exact (layout_shows hkeeps source hs (asked_runAll source cell hbetween before)).of_ok hpass

end Windowing.Table
