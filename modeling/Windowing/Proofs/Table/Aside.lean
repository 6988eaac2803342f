import Windowing.Proofs.Ensures
import Windowing.Proofs.WindowBounds
import Windowing.Table.Call

/-!
# What scrolling a table leaves alone

As in a collection, scrolling a table, resizing it and changing row heights and column widths
touch neither the views nor the window that the last pass realized, and they forget no rebinding
that is due. The part of a pass before it works on views does no more either, once the selection
has been cut to the dimensions of the source.

## Main definitions

* `Table.Settled` — both viewports keep no wrong window.
* `Table.Aside` — two states that differ in scrolling and in the work that is due only.

## Main results

* `Table.approach_ensures` — the window that a pass finds lies within the dimensions polled.
* `Table.ensures_layout`, `Table.layout_of_prepare` — a pass ensures what its parts do.
-/

namespace Windowing

/-- The ranges of the window lie inside the dimensions, and the window has no cells only where one
of the dimensions is zero. -/
structure TableWindow.Within (window : TableWindow) (dimensions : Nat × Nat) : Prop where
  rows_le : window.rows.stop ≤ dimensions.1
  cols_le : window.cols.stop ≤ dimensions.2
  isEmpty_iff : window.isEmpty = true ↔ dimensions.1 = 0 ∨ dimensions.2 = 0

namespace Table

variable {V S : Type} [Scalar S]

/-- Both viewports keep no window that is wrong for their models. -/
def Settled (table : Table V S) : Prop :=
  table.rows.Settled ∧ table.cols.Settled

/-- The two states differ in how the table scrolls and in what is due only. A rebinding that was
due is still due, and no window is kept that is wrong for the models. -/
structure Aside (before after : Table V S) : Prop where
  stock_eq : after.stock = before.stock
  window_eq : after.window = before.window
  passOpen_eq : after.passOpen = before.passOpen
  selection_eq : after.selection = before.selection
  rebind : before.due.rebind = true → after.due.rebind = true
  settled : before.Settled → after.Settled

variable {table : Table V S}

theorem Aside.refl (table : Table V S) : table.Aside table :=
  ⟨rfl, rfl, rfl, rfl, id, id⟩

theorem Aside.trans {a b c : Table V S} (hab : a.Aside b) (hbc : b.Aside c) : a.Aside c where
  stock_eq := hbc.stock_eq.trans hab.stock_eq
  window_eq := hbc.window_eq.trans hab.window_eq
  passOpen_eq := hbc.passOpen_eq.trans hab.passOpen_eq
  selection_eq := hbc.selection_eq.trans hab.selection_eq
  rebind h := hbc.rebind (hab.rebind h)
  settled h := hbc.settled (hab.settled h)

/-- Changing the viewports is aside if they keep no wrong windows. -/
theorem aside_of_viewports {rows cols : Viewport (Strip S) S}
    (hrows : table.rows.Settled → rows.Settled) (hcols : table.cols.Settled → cols.Settled) :
    table.Aside { table with rows, cols } :=
  ⟨rfl, rfl, rfl, rfl, id, fun h ↦ ⟨hrows h.1, hcols h.2⟩⟩

/-! ### Scrolling and edits -/

theorem clampScroll_aside (table : Table V S) : table.Aside table.clampScroll :=
  aside_of_viewports (Viewport.clamp_steady _).settled (Viewport.clamp_steady _).settled

theorem scrollRows_ensures (request : ScrollRequest S) (table : Table V S) :
    (scrollRows request).Ensures table (fun _ ↦ table.Aside) table.Aside := by
  have hpending : table.Aside { table with pendingRows := some request } :=
    ⟨rfl, rfl, rfl, rfl, id, id⟩
  simp only [scrollRows, Step.ensures_bind, Step.ensures_modify, Step.ensures_get,
    Step.ensures_ofExcept]
  cases hmoved : request.apply table.rows with
  | error fault => exact hpending
  | ok moved => exact hpending.trans (aside_of_viewports (Viewport.apply_steady hmoved).settled id)

theorem scrollCols_ensures (request : ScrollRequest S) (table : Table V S) :
    (scrollCols request).Ensures table (fun _ ↦ table.Aside) table.Aside := by
  have hpending : table.Aside { table with pendingCols := some request } :=
    ⟨rfl, rfl, rfl, rfl, id, id⟩
  simp only [scrollCols, Step.ensures_bind, Step.ensures_modify, Step.ensures_get,
    Step.ensures_ofExcept]
  cases hmoved : request.apply table.cols with
  | error fault => exact hpending
  | ok moved => exact hpending.trans (aside_of_viewports id (Viewport.apply_steady hmoved).settled)

theorem scrollBoth_ensures (rowRequest colRequest : ScrollRequest S) (table : Table V S) :
    (scrollBoth rowRequest colRequest).Ensures table (fun _ ↦ table.Aside) table.Aside := by
  simp only [scrollBoth, Step.ensures_bind, Step.ensures_pure]
  refine (scrollRows_ensures rowRequest table).mono (fun _ t ht ↦ ?_) fun _ ht ↦ ht
  exact (scrollCols_ensures colRequest t).mono (fun _ _ hu ↦ ht.trans hu) fun _ hu ↦ ht.trans hu

theorem setViewportSize_aside (size : Size S) (table : Table V S) :
    table.Aside (table.setViewportSize size).1 := by
  have hrows := Viewport.resize_steady size.height table.rows
  have hcols := Viewport.resize_steady size.width table.cols
  simp only [setViewportSize]
  split
  · exact ⟨rfl, rfl, rfl, rfl, id, fun h ↦ ⟨hrows.settled h.1, hcols.settled h.2⟩⟩
  · exact .refl table

theorem setRowHeight_ensures (row : Nat) (height : S) (table : Table V S) :
    (setRowHeight row height).Ensures table (fun _ ↦ table.Aside) table.Aside := by
  have hmodel (model : Strip S) : table.Aside { table with rows := table.rows.withModel model } :=
    aside_of_viewports (fun _ ↦ Viewport.settled_of_kept_eq_none rfl) id
  simp only [setRowHeight, Viewport.onModel, Step.ensures_bind, Step.ensures_within]
  refine Step.ensures_of_forall (fun applied model ↦ ?_) hmodel
  split
  · exact (hmodel model).trans (aside_of_viewports (Viewport.clamp_steady _).settled id)
  · exact hmodel model

theorem setColumnWidth_ensures (col : Nat) (width : S) (table : Table V S) :
    (setColumnWidth col width).Ensures table (fun _ ↦ table.Aside) table.Aside := by
  have hmodel (model : Strip S) : table.Aside { table with cols := table.cols.withModel model } :=
    aside_of_viewports id fun _ ↦ Viewport.settled_of_kept_eq_none rfl
  simp only [setColumnWidth, Viewport.onModel, Step.ensures_bind, Step.ensures_within]
  refine Step.ensures_of_forall (fun applied model ↦ ?_) hmodel
  split
  · exact (hmodel model).trans (aside_of_viewports id (Viewport.clamp_steady _).settled)
  · exact hmodel model

/-! ### Parts of a pass -/

/-- Taking over dimensions only cuts the selection, beside scrolling. -/
theorem adoptDimensions_aside (dimensions : Nat × Nat) (table : Table V S) :
    Aside { table with selection := (table.adoptDimensions dimensions).1.selection }
      (table.adoptDimensions dimensions).1 := by
  have hmodel (viewport : Viewport (Strip S) S) (model : Strip S) :
      (viewport.withModel model).clamp.1.Settled :=
    (Viewport.clamp_steady _).settled (Viewport.settled_of_kept_eq_none rfl)
  exact ⟨rfl, rfl, rfl, rfl, fun _ ↦ rfl, fun _ ↦ ⟨hmodel _ _, hmodel _ _⟩⟩

theorem syncDimensions_aside (dimensions : Nat × Nat) (table : Table V S) :
    Aside { table with selection := (table.syncDimensions dimensions).1.selection }
      (table.syncDimensions dimensions).1 := by
  rw [syncDimensions]
  split
  · exact adoptDimensions_aside dimensions table
  · exact .refl table

theorem dimensions_adoptDimensions (dimensions : Nat × Nat) (table : Table V S) :
    (table.adoptDimensions dimensions).1.dimensions = dimensions := by
  have hlen (viewport : Viewport (Strip S) S) (len : Nat) :
      (viewport.withModel (viewport.model.setLen len)).clamp.1.model.len = len := by
    rw [(Viewport.clamp_steady _).model_eq]
    rfl
  exact Prod.ext (hlen _ _) (hlen _ _)

/-- A pass works with as many rows and columns as it polled. -/
theorem dimensions_syncDimensions (dimensions : Nat × Nat) (table : Table V S) :
    (table.syncDimensions dimensions).1.dimensions = dimensions := by
  rw [syncDimensions]
  split
  · exact dimensions_adoptDimensions dimensions table
  · next hsame =>
    simp only [Bool.or_eq_true, bne_iff_ne, ne_eq, not_or, not_not] at hsame
    exact hsame.2.symm

theorem applyPendingRows_spec (table : Table V S) :
    applyPendingRows.Ensures table
      (fun _ t ↦ ∃ rows, table.rows.Steady rows ∧ t = { table with pendingRows := none, rows })
      fun t ↦ t = { table with pendingRows := none } := by
  simp only [applyPendingRows, Step.ensures_bind, Step.ensures_get]
  cases hpending : table.pendingRows with
  | none => exact ⟨table.rows, .refl _, by rw [← hpending]⟩
  | some request =>
    simp only [Step.ensures_bind, Step.ensures_modify, Step.ensures_get, Step.ensures_ofExcept]
    cases hmoved : request.apply table.rows with
    | error fault => trivial
    | ok moved => exact ⟨moved.1, Viewport.apply_steady hmoved, rfl⟩

theorem applyPendingRows_ensures (table : Table V S) :
    applyPendingRows.Ensures table
      (fun _ t ↦ table.Aside t ∧ t.dimensions = table.dimensions) table.Aside := by
  have hpending : table.Aside { table with pendingRows := none } := ⟨rfl, rfl, rfl, rfl, id, id⟩
  refine (applyPendingRows_spec table).mono ?_ ?_
  · rintro _ _ ⟨rows, hsteady, rfl⟩
    refine ⟨hpending.trans (aside_of_viewports hsteady.settled id), ?_⟩
    simp only [dimensions, hsteady.model_eq]
  · rintro _ rfl
    exact hpending

theorem applyPendingCols_spec (table : Table V S) :
    applyPendingCols.Ensures table
      (fun _ t ↦ ∃ cols, table.cols.Steady cols ∧ t = { table with pendingCols := none, cols })
      fun t ↦ t = { table with pendingCols := none } := by
  simp only [applyPendingCols, Step.ensures_bind, Step.ensures_get]
  cases hpending : table.pendingCols with
  | none => exact ⟨table.cols, .refl _, by rw [← hpending]⟩
  | some request =>
    simp only [Step.ensures_bind, Step.ensures_modify, Step.ensures_get, Step.ensures_ofExcept]
    cases hmoved : request.apply table.cols with
    | error fault => trivial
    | ok moved => exact ⟨moved.1, Viewport.apply_steady hmoved, rfl⟩

theorem applyPendingCols_ensures (table : Table V S) :
    applyPendingCols.Ensures table
      (fun _ t ↦ table.Aside t ∧ t.dimensions = table.dimensions) table.Aside := by
  have hpending : table.Aside { table with pendingCols := none } := ⟨rfl, rfl, rfl, rfl, id, id⟩
  refine (applyPendingCols_spec table).mono ?_ ?_
  · rintro _ _ ⟨cols, hsteady, rfl⟩
    refine ⟨hpending.trans (aside_of_viewports id hsteady.settled), ?_⟩
    simp only [dimensions, hsteady.model_eq]
  · rintro _ rfl
    exact hpending

/-- The window that settled viewports answer lies within the dimensions of their models. -/
theorem takeWindow_within (h : table.Settled) :
    table.takeWindow.1.Within table.dimensions := by
  have hrows := Viewport.window_within h.1
  have hcols := Viewport.window_within h.2
  refine ⟨hrows.stop_le, hcols.stop_le, ?_⟩
  simp only [takeWindow, TableWindow.isEmpty, Bool.or_eq_true, hrows.isEmpty_iff,
    hcols.isEmpty_iff]
  rfl

/-- Before it works on views, a pass cuts the selection to the dimensions polled, and scrolls. The
window that it finds lies within these dimensions. -/
theorem approach_ensures (dimensions : Nat × Nat) (table : Table V S) :
    (approach dimensions).Ensures table
      (fun answer t ↦ Aside (table.syncDimensions dimensions).1 t ∧
        (table.Settled → answer.1.Within dimensions) ∧
        answer.2 = (table.syncDimensions dimensions).2)
      (Aside (table.syncDimensions dimensions).1) := by
  have hsync := syncDimensions_aside dimensions table
  simp only [approach, Step.ensures_bind, Step.ensures_modify, Step.ensures_modifyGet]
  refine (applyPendingRows_ensures _).mono (fun _ t ht ↦ ?_) fun _ ht ↦ ht
  refine (applyPendingCols_ensures t).mono (fun _ u hu ↦ ?_) fun _ hu ↦ ht.1.trans hu
  have haside := (ht.1.trans hu.1).trans (clampScroll_aside u)
  have hdimensions : u.clampScroll.dimensions = dimensions := by
    have hrows := (Viewport.clamp_steady u.rows).model_eq
    have hcols := (Viewport.clamp_steady u.cols).model_eq
    have hclamp : u.clampScroll.dimensions = u.dimensions := by
      simp only [clampScroll, Table.dimensions, hrows, hcols]
    rw [hclamp, hu.2, ht.2]
    exact dimensions_syncDimensions dimensions table
  refine ⟨haside.trans (aside_of_viewports Viewport.window_settled Viewport.window_settled),
    fun hsettled ↦ ?_, rfl⟩
  exact hdimensions ▸ takeWindow_within (haside.settled (hsync.settled hsettled))

/-! ### A pass in its parts -/

section Pass

variable {H : Type} [ViewHandle H V S] {source : TableSource H V} {s : Hosted H (Table V S)}

omit [ViewHandle H V S] in
/-- Before it works on views, a pass ensures what its scrolling does for the dimensions polled. -/
theorem ensures_prepare {ok : TableWindow × List (Selection.Change CellId) → _ → Prop}
    {cut : Hosted H (Table V S) → Prop} :
    (prepare source).Ensures s ok cut ↔
      (approach (source.dimensions s.host).1).Ensures s.held.openPass
        (fun answer t ↦ ok answer ⟨(source.dimensions s.host).2, t⟩)
        fun t ↦ cut ⟨(source.dimensions s.host).2, t⟩ := by
  simp only [prepare, pollDimensions, Step.ensures_bind, Step.ensures_onHeld, Step.ensures_onHost,
    Step.ensures_modify, Step.ensures_modifyGet]

omit [ViewHandle H V S] in
/-- Before it works on views, a pass polls the source, cuts the selection to the dimensions polled,
and scrolls. -/
theorem prepare_aside (source : TableSource H V) (s : Hosted H (Table V S)) :
    let synced := (s.held.openPass.syncDimensions (source.dimensions s.host).1).1
    (prepare source).Ensures s
      (fun _ t ↦ t.host = (source.dimensions s.host).2 ∧ synced.Aside t.held)
      fun t ↦ t.host = (source.dimensions s.host).2 ∧ synced.Aside t.held := by
  intro synced
  rw [ensures_prepare]
  exact (approach_ensures _ _).mono (fun _ _ ht ↦ ⟨rfl, ht.1⟩) fun _ ht ↦ ⟨rfl, ht⟩

/-- The work of a pass on views ensures what following the window does, with the pass ended. -/
theorem ensures_realize {window : TableWindow} {ok : Tally → _ → Prop}
    {cut : Hosted H (Table V S) → Prop} :
    (realize source window).Ensures s ok cut ↔
      (ViewStock.follow source.views (s.held.layoutFor s.held.due) (s.held.window.leaving window)
        window.cells window.contains).Ensures ⟨s.host, s.held.stock⟩
        (fun tally t ↦
          ok tally ⟨t.host, { s.held with due := {}, stock := t.held, window, passOpen := false }⟩)
        fun t ↦ cut ⟨t.host, { s.held with due := {}, stock := t.held }⟩ := by
  simp only [realize, onStock, Step.ensures_bind, Step.ensures_get, Step.ensures_onHeld,
    Step.ensures_modify, Step.ensures_onPart, Step.ensures_pure]

/-- A pass ensures what its work on views does after the part before. -/
theorem ensures_layout {ok : Pass TableWindow CellId → _ → Prop}
    {cut : Hosted H (Table V S) → Prop} :
    (layout source).Ensures s ok cut ↔
      (prepare source).Ensures s
        (fun answer t ↦ (realize source answer.1).Ensures t
          (fun tally u ↦ ok { tally with window := answer.1, unselected := answer.2 } u) cut)
        cut := by
  simp only [layout, Step.ensures_bind, Step.ensures_pure]

/-- What a pass ensures without regard to views, its part before the work on views does. -/
theorem layout_of_prepare {ok : Pass TableWindow CellId → _ → Prop}
    {cut : Hosted H (Table V S) → Prop}
    (h : (prepare source).Ensures s
      (fun answer t ↦
        (∀ tally : Tally, ∀ host stock,
          ok { tally with window := answer.1, unselected := answer.2 }
            ⟨host, { t.held with due := {}, stock, window := answer.1, passOpen := false }⟩) ∧
        ∀ host stock, cut ⟨host, { t.held with due := {}, stock }⟩)
      cut) :
    (layout source).Ensures s ok cut := by
  refine ensures_layout.mpr (h.mono (fun answer t ht ↦ ensures_realize.mpr ?_) fun _ ↦ id)
  exact Step.ensures_of_forall (fun tally u ↦ ht.1 tally u.host u.held) fun u ↦ ht.2 u.host u.held

end Pass

end Table

end Windowing
