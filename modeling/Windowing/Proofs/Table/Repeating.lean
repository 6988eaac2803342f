import Windowing.Proofs.Repeating
import Windowing.Proofs.Scrolling
import Windowing.Proofs.Table.Coherence

/-!
# Layout passes of a table made twice

As in a collection, a completed layout pass leaves nothing due. Both viewports are at rest, each
with its own half of the window, and a pass that follows does nothing but poll the source, if the
dimensions are those of the first pass. All cells are of one kind, so the source has no other answer
that could change.

## Main definitions

* `Table.answers` — what the source answers in a pass.
* `Table.Rests` — a table with nothing due.

## Main results

* `Table.layout_rests` — what a completed pass leaves.
* `Table.layout_again` — a pass of a table at rest does nothing.
-/

namespace Windowing

/-- No cell leaves a window for the window itself. -/
theorem TableWindow.leaving_self (window : TableWindow) : leaving window window = [] := by
  refine List.eq_nil_iff_forall_not_mem.mpr fun cell hcell ↦ ?_
  obtain ⟨hin, hout⟩ := mem_leaving_iff.mp hcell
  exact Bool.false_ne_true (hout.symm.trans hin)

namespace Table

variable {H V : Type}

/-! ### Tables at rest -/

/-- Both viewports are pulled back and keep their part of the window. -/
structure Stays (window : TableWindow) (table : Table V Rat) : Prop where
  rows : ∃ found, table.rows.Rests found ∧ found.toIndexRange = window.rows
  cols : ∃ found, table.cols.Rests found ∧ found.toIndexRange = window.cols

/-- No request to scroll is pending. -/
def Unasked (table : Table V Rat) : Prop :=
  table.pendingRows = none ∧ table.pendingCols = none

/-- Nothing is due, the viewports keep the window on record, and the models have the given
dimensions. -/
structure Rests (dimensions : Nat × Nat) (table : Table V Rat) : Prop where
  stays : table.Stays table.window
  dimensions_eq : table.dimensions = dimensions
  due_eq : table.due = {}
  unasked : table.Unasked
  passOpen_eq : table.passOpen = false

/-- The window of a table whose viewports were pulled back is one that they keep from then on. -/
theorem takeWindow_stays (table : Table V Rat) :
    Stays table.clampScroll.takeWindow.1 table.clampScroll.takeWindow.2 where
  rows := ⟨_, Viewport.rests_window table.rows, rfl⟩
  cols := ⟨_, Viewport.rests_window table.cols, rfl⟩

theorem dimensions_takeWindow (table : Table V Rat) :
    table.clampScroll.takeWindow.2.dimensions = table.dimensions := by
  have hlen (viewport : Viewport (Strip Rat) Rat) :
      viewport.clamp.1.window.2.model.len = viewport.model.len := by
    have hwindow := Viewport.len_window viewport.clamp.1
    rw [(Viewport.clamp_steady viewport).model_eq] at hwindow
    exact hwindow
  exact Prod.ext (hlen table.rows) (hlen table.cols)

/-- The part of a pass that only concerns scrolling leaves no request, and viewports at rest. -/
theorem approach_rests (dimensions : Nat × Nat) (table : Table V Rat) :
    (approach dimensions).Ensures table
      (fun answer t ↦ t.Stays answer.1 ∧ t.dimensions = dimensions ∧ t.Unasked) fun _ ↦ True := by
  simp only [approach, Step.ensures_bind, Step.ensures_modify, Step.ensures_modifyGet]
  refine (applyPendingRows_spec _).mono ?_ fun _ _ ↦ trivial
  rintro _ _ ⟨rows, hrows, rfl⟩
  refine (applyPendingCols_spec _).mono ?_ fun _ _ ↦ trivial
  rintro _ _ ⟨cols, hcols, rfl⟩
  refine ⟨takeWindow_stays _, ?_, rfl, rfl⟩
  rw [dimensions_takeWindow, ← dimensions_syncDimensions dimensions table]
  exact congrArg₂ (fun rows cols : Strip Rat ↦ (rows.len, cols.len)) hrows.model_eq hcols.model_eq

/-! ### What a completed pass leaves -/

/-- What the source answers in a pass: the numbers of rows and columns. -/
def answers (source : TableSource H V) (s : Hosted H (Table V Rat)) : Nat × Nat :=
  (source.dimensions s.host).1

variable [ViewHandle H V Rat]

/-- Every kind that a pass asks for is the one of all cells. -/
theorem askedKinds_eq (source : TableSource H V) (layout : Layout CellId Rat) (cells : List CellId)
    (s : Hosted H (ViewStock CellId V Rat)) :
    ViewStock.askedKinds source.views layout cells s = cells.map fun _ ↦ ViewKind.only := by
  induction cells generalizing s with
  | nil => rfl
  | cons cell rest ih => exact congrArg (ViewKind.only :: ·) (ih _)

/-- Every live view belongs to the window on record, and it is where its cell goes to. -/
structure InPlace (table : Table V Rat) : Prop where
  all_contains : table.stock.live.keys.all table.window.contains = true
  placed : ∀ cell ∈ table.window.cells, ViewStock.Placed (table.layoutFor {}) table.stock cell

/-- The part of a pass that works on views leaves each in its place, and does nothing else but end
the pass. If every cell of the window has a view, these are of the kind of all cells. -/
theorem realize_placed {base : Nat} (source : TableSource H V) (window : TableWindow)
    {s : Hosted (Journal H CellId Rat) (Table (Tracked CellId V Rat) Rat)} (h : Coherent base s) :
    (realize source.journaled window).Ensures s
      (fun _ t ↦
        (∃ stock, t.held = { s.held with due := {}, stock, window, passOpen := false }) ∧
        t.held.InPlace ∧
        ((∀ cell ∈ window.cells, (t.held.stock.live.find? cell).isSome = true) →
          ∀ cell ∈ window.cells, t.held.stock.kindOf? cell = some .only))
      fun _ ↦ True := by
  have hfollow : (ViewStock.follow source.journaled.views (s.held.layoutFor s.held.due)
      (s.held.window.leaving window) window.cells window.contains).Ensures
        ⟨s.host, s.held.stock⟩ _ _ :=
    ViewStock.follow_placed source.journals_views window.nodup_cells h.conserved
  rw [ensures_realize]
  refine hfollow.mono (fun _ t ht ↦ ?_) fun _ _ ↦ trivial
  refine ⟨⟨_, rfl⟩, ⟨ht.1, ht.2.1⟩, fun hlive cell hcell ↦ ?_⟩
  have hkinds := ht.2.2 hlive
  rw [ViewStock.askedIn, askedKinds_eq, List.map_map, List.map_inj_left] at hkinds
  exact (hkinds cell hcell).symm

/-- A completed pass leaves every view in its place. -/
theorem layout_inPlace {base : Nat} (source : TableSource H V)
    {s : Hosted (Journal H CellId Rat) (Table (Tracked CellId V Rat) Rat)} (h : Coherent base s) :
    (layout source.journaled).Ensures s (fun _ t ↦ t.held.InPlace) fun _ ↦ True := by
  rw [ensures_layout]
  refine (prepare_ensures source h).mono (fun answer t ht ↦ ?_) fun _ _ ↦ trivial
  exact (realize_placed source answer.1 ht.1).mono (fun _ _ hu ↦ hu.2.1) fun _ _ ↦ trivial

/-- A completed pass leaves nothing due and every view in its place. If every cell of the window has
a view, these are of the kind of all cells. -/
theorem layout_rests {base : Nat} (source : TableSource H V)
    {s : Hosted (Journal H CellId Rat) (Table (Tracked CellId V Rat) Rat)} (h : Coherent base s) :
    (layout source.journaled).Ensures s
      (fun pass t ↦ t.held.Rests (answers source.journaled s) ∧ t.held.InPlace ∧
        t.held.window = pass.window ∧
        ((∀ cell ∈ pass.window.cells, (t.held.stock.live.find? cell).isSome = true) →
          ∀ cell ∈ pass.window.cells, t.held.stock.kindOf? cell = some .only))
      fun _ ↦ True := by
  rw [ensures_layout]
  have hprepared : (prepare source.journaled).Ensures s _ _ := prepare_ensures source h
  have hrests : (prepare source.journaled).Ensures s
      (fun answer t ↦ t.held.Stays answer.1 ∧ t.held.dimensions = answers source.journaled s ∧
        t.held.Unasked)
      fun _ ↦ True := by
    rw [ensures_prepare]
    exact approach_rests _ _
  refine (hprepared.and hrests).mono (fun answer t ht ↦ ?_) fun _ _ ↦ trivial
  obtain ⟨⟨hcoherent, -⟩, hstays, hdimensions, hunasked⟩ := ht
  refine (realize_placed source answer.1 hcoherent).mono ?_ fun _ _ ↦ trivial
  rintro _ ⟨_, _⟩ ⟨⟨stock, rfl⟩, hplace, hkinds⟩
  exact ⟨⟨⟨hstays.rows, hstays.cols⟩, hdimensions, rfl, hunasked, rfl⟩, hplace, rfl, hkinds⟩

/-! ### A pass of a table at rest -/

omit [ViewHandle H V Rat] in
theorem approach_again {dimensions : Nat × Nat} {window : TableWindow} {table : Table V Rat}
    (hstays : table.Stays window) (hdimensions : table.dimensions = dimensions)
    (hdue : table.due.length = false) (hunasked : table.Unasked) :
    approach dimensions table = .ok (window, []) table := by
  obtain ⟨⟨rowWindow, hrows, hrowWindow⟩, colWindow, hcols, hcolWindow⟩ := hstays
  have hsync : table.syncDimensions dimensions = (table, []) := by
    simp [syncDimensions, hdue, hdimensions]
  have hclamp : table.clampScroll = table := by
    rw [clampScroll, hrows.clamp_eq, hcols.clamp_eq]
  have htake : table.takeWindow = (window, table) := by
    simp only [takeWindow, hrows.window_eq, hcols.window_eq, hrowWindow, hcolWindow]
  have happlyRows : applyPendingRows table = .ok () table := by
    rw [Step.eq_ok_iff, applyPendingRows]
    simp [hunasked.1]
  have happlyCols : applyPendingCols table = .ok () table := by
    rw [Step.eq_ok_iff, applyPendingCols]
    simp [hunasked.2]
  rw [Step.eq_ok_iff, approach]
  simp [hsync, Step.ensures_of_eq_ok happlyRows, Step.ensures_of_eq_ok happlyCols, hclamp, htake]

omit [ViewHandle H V Rat] in
theorem prepare_again {source : TableSource H V} {s : Hosted H (Table V Rat)}
    (hrests : s.held.Rests (answers source s)) :
    prepare source s =
      .ok (s.held.window, [])
        ⟨(source.dimensions s.host).2, { s.held with passOpen := true }⟩ := by
  have hopen : s.held.openPass = { s.held with passOpen := true } := by
    simp [openPass, hrests.passOpen_eq]
  have happroach : approach (source.dimensions s.host).1 s.held.openPass =
      .ok (s.held.window, []) { s.held with passOpen := true } := by
    rw [hopen]
    exact approach_again ⟨hrests.stays.rows, hrests.stays.cols⟩ hrests.dimensions_eq
      (by rw [hrests.due_eq]) hrests.unasked
  rw [Step.eq_ok_iff, prepare]
  simp [pollDimensions, Step.ensures_of_eq_ok happroach]

/-- A pass of a table at rest, with a view in its place for every cell of the window, polls the
source and does nothing else. -/
theorem layout_again {source : TableSource H V} {s : Hosted H (Table V Rat)}
    (hrests : s.held.Rests (answers source s)) (hplace : s.held.InPlace)
    (hkinds : ∀ cell ∈ s.held.window.cells, s.held.stock.kindOf? cell = some .only) :
    ∃ stock, layout source s =
        .ok { window := s.held.window, unselected := [] }
          ⟨(source.dimensions s.host).2, { s.held with stock }⟩ ∧
      ViewStock.SameViews s.held.stock stock := by
  have hprepare := prepare_again hrests
  have hasked : (ViewStock.askedIn source.views ({ s.held with passOpen := true }.layoutFor
      s.held.due) [] s.held.window.cells s.held.window.contains
        ⟨(source.dimensions s.host).2, s.held.stock⟩).map some =
      s.held.window.cells.map s.held.stock.kindOf? := by
    rw [ViewStock.askedIn, askedKinds_eq, List.map_map, List.map_inj_left]
    exact fun cell hcell ↦ (hkinds cell hcell).symm
  obtain ⟨stock, hfollow, hviews⟩ : ∃ stock, ViewStock.follow source.views
      ({ s.held with passOpen := true }.layoutFor s.held.due) [] s.held.window.cells
      s.held.window.contains ⟨(source.dimensions s.host).2, s.held.stock⟩ =
        .ok {} ⟨(source.dimensions s.host).2, stock⟩ ∧ ViewStock.SameViews s.held.stock stock :=
    ViewStock.follow_again (congrArg Due.rebind hrests.due_eq) (congrArg Due.place hrests.due_eq)
      hplace.all_contains hplace.placed hasked
  have hclosed : { s.held with due := {}, stock, passOpen := false } = { s.held with stock } := by
    rw [← hrests.due_eq, ← hrests.passOpen_eq]
  refine ⟨stock, ?_, hviews⟩
  rw [Step.eq_ok_iff, layout]
  simp only [realize, onStock, Step.ensures_bind, Step.ensures_of_eq_ok hprepare, Step.ensures_get,
    Step.ensures_onHeld, Step.ensures_modify, Step.ensures_onPart, TableWindow.leaving_self,
    Step.ensures_of_eq_ok hfollow, Step.ensures_pure]
  exact ⟨trivial, congrArg (Hosted.mk (source.dimensions s.host).2) hclosed⟩

end Table

end Windowing
