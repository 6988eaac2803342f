import Windowing.Proofs.Collection.Coherence
import Windowing.Proofs.Repeating
import Windowing.Proofs.Scrolling

/-!
# Layout passes of a collection made twice

A completed layout pass leaves nothing due: no request is pending, the viewport is pulled back and
keeps its window, and the views of the window are where they belong. A pass that follows polls the
source and, if the answers are those of the first pass, does nothing else.

## Main definitions

* `Collection.answers` — what the source answers in a pass.
* `Collection.Rests` — a collection with nothing due.

## Main results

* `Collection.layout_rests` — what a completed pass leaves.
* `Collection.layout_again` — a pass of a collection at rest does nothing.
-/

namespace Windowing

/-- No index leaves a range for the range itself. -/
theorem IndexRange.leaving_self (range : IndexRange) : leaving range range = [] := by
  refine List.eq_nil_iff_forall_not_mem.mpr fun index hindex ↦ ?_
  obtain ⟨hin, hout⟩ := mem_leaving.mp hindex
  exact Bool.false_ne_true (hout.symm.trans hin)

namespace Collection

variable {H M V : Type} [ExtentModel M Rat]

/-! ### Collections at rest -/

/-- Nothing is due, the viewport keeps the window on record, and there are `len` items. -/
structure Rests (len : Nat) (items : Collection M V Rat) : Prop where
  viewport : items.viewport.Rests items.window
  len_eq : ExtentModel.len items.model = len
  due_eq : items.due = {}
  pending_eq : items.pending = none
  passOpen_eq : items.passOpen = false

variable [ResizableModel M Rat]

/-- The part of a pass that only concerns scrolling leaves no request, and a viewport at rest. -/
theorem approach_rests [LawfulCount M] [LawfulSettle M] (len : Nat) (items : Collection M V Rat) :
    (approach len).Ensures items
      (fun answer t ↦ t.viewport.Rests answer.1 ∧ ExtentModel.len t.model = len ∧ t.pending = none)
      fun _ ↦ True := by
  simp only [approach, Step.ensures_bind, Step.ensures_modify, Step.ensures_modifyGet]
  refine (applyPending_spec (items.syncLength len).1).mono ?_ fun _ _ ↦ trivial
  rintro _ _ ⟨viewport, hsteady, rfl⟩
  refine ⟨Viewport.rests_window viewport, ?_, rfl⟩
  calc ExtentModel.len viewport.clamp.1.window.2.model
      = ExtentModel.len viewport.clamp.1.model := Viewport.len_window _
    _ = ExtentModel.len viewport.model := congrArg _ (Viewport.clamp_steady viewport).model_eq
    _ = len := (congrArg _ hsteady.model_eq).trans (len_syncLength len items)

variable [CrossPlacement M Rat] [ViewHandle H V Rat]

/-! ### What the source answers -/

/-- What the source answers in a pass: the number of items, and the kinds of the items of the
window, in the order in which it is asked. -/
def answers (source : ItemSource H V) (s : Hosted H (Collection M V Rat)) : Nat × List ViewKind :=
  ((source.len s.host).1,
    match prepare source s with
    | .error _ _ => []
    | .ok (window, _) t =>
      ViewStock.askedIn source.views (t.held.layoutFor t.held.due)
        (IndexRange.leaving t.held.window.toIndexRange window.toIndexRange) window.toList
        window.contains ⟨t.host, t.held.stock⟩)

/-! ### What a completed pass leaves -/

/-- Every live view belongs to the window on record, and it is where its item goes to. -/
structure InPlace (items : Collection M V Rat) : Prop where
  all_contains : items.stock.live.keys.all items.window.contains = true
  placed : ∀ index ∈ items.window.toList, ViewStock.Placed (items.layoutFor {}) items.stock index

omit [ResizableModel M Rat] in
/-- The part of a pass that works on views leaves each in its place, and does nothing else but end
the pass. If every item of the window has a view, these are of the kinds that the source has. -/
theorem realize_placed {base : Nat} (source : ItemSource H V) (window : VisibleWindow Rat)
    {s : Hosted (Journal H Nat Rat) (Collection M (Tracked Nat V Rat) Rat)} (h : Coherent base s) :
    (realize source.journaled window).Ensures s
      (fun _ t ↦
        (∃ stock, t.held = { s.held with due := {}, stock, window, passOpen := false }) ∧
        t.held.InPlace ∧
        ((∀ index ∈ window.toList, (t.held.stock.live.find? index).isSome = true) →
          (ViewStock.askedIn source.journaled.views (s.held.layoutFor s.held.due)
            (IndexRange.leaving s.held.window.toIndexRange window.toIndexRange) window.toList
            window.contains ⟨s.host, s.held.stock⟩).map some =
              window.toList.map t.held.stock.kindOf?))
      fun _ ↦ True := by
  have hkeys : window.toList.Nodup := List.nodup_range' ..
  have hfollow : (ViewStock.follow source.journaled.views (s.held.layoutFor s.held.due)
      (IndexRange.leaving s.held.window.toIndexRange window.toIndexRange) window.toList
      window.contains).Ensures ⟨s.host, s.held.stock⟩ _ _ :=
    ViewStock.follow_placed source.journals_views hkeys h.conserved
  rw [ensures_realize]
  refine hfollow.mono (fun _ t ht ↦ ?_) fun _ _ ↦ trivial
  exact ⟨⟨_, rfl⟩, ⟨ht.1, ht.2.1⟩, ht.2.2⟩

/-- A completed pass leaves every view in its place. -/
theorem layout_inPlace {base : Nat} (source : ItemSource H V)
    {s : Hosted (Journal H Nat Rat) (Collection M (Tracked Nat V Rat) Rat)} (h : Coherent base s) :
    (layout source.journaled).Ensures s (fun _ t ↦ t.held.InPlace) fun _ ↦ True := by
  rw [ensures_layout]
  refine (prepare_ensures source h).mono (fun answer t ht ↦ ?_) fun _ _ ↦ trivial
  exact (realize_placed source answer.1 ht.1).mono (fun _ _ hu ↦ hu.2.1) fun _ _ ↦ trivial

/-- A completed pass leaves nothing due and every view in its place. If every item of the window has
a view, these are of the kinds that the source answered. -/
theorem layout_rests [LawfulCount M] [LawfulSettle M] {base : Nat} (source : ItemSource H V)
    {s : Hosted (Journal H Nat Rat) (Collection M (Tracked Nat V Rat) Rat)} (h : Coherent base s) :
    (layout source.journaled).Ensures s
      (fun pass t ↦ t.held.Rests (source.len s.host.host).1 ∧ t.held.InPlace ∧
        t.held.window.toIndexRange = pass.window ∧
        ((∀ index ∈ pass.window.toList, (t.held.stock.live.find? index).isSome = true) →
          (answers source.journaled s).2.map some =
            pass.window.toList.map t.held.stock.kindOf?))
      fun _ ↦ True := by
  rw [ensures_layout]
  have hprepared : (prepare source.journaled).Ensures s _ _ := prepare_ensures source h
  have hrests : (prepare source.journaled).Ensures s
      (fun answer t ↦ t.held.viewport.Rests answer.1 ∧
        ExtentModel.len t.held.model = (source.len s.host.host).1 ∧ t.held.pending = none)
      fun _ ↦ True := by
    rw [ensures_prepare]
    exact approach_rests _ _
  refine (hprepared.and hrests).and_eq_ok.mono (fun answer t ht ↦ ?_) fun _ _ ↦ trivial
  obtain ⟨⟨⟨hcoherent, -⟩, hviewport, hlen, hpending⟩, heq⟩ := ht
  refine (realize_placed source answer.1 hcoherent).mono ?_ fun _ _ ↦ trivial
  rintro _ ⟨_, _⟩ ⟨⟨stock, rfl⟩, hplace, hasked⟩
  refine ⟨⟨hviewport, hlen, rfl, hpending, rfl⟩, hplace, rfl, fun hlive ↦ ?_⟩
  simpa only [answers, heq] using hasked hlive

/-! ### A pass of a collection at rest -/

omit [CrossPlacement M Rat] in
theorem approach_again {len : Nat} {items : Collection M V Rat}
    (hviewport : items.viewport.Rests items.window) (hlen : ExtentModel.len items.model = len)
    (hdue : items.due.length = false) (hpending : items.pending = none) :
    approach len items = .ok (items.window, []) items := by
  have hsync : items.syncLength len = (items, []) := by simp [syncLength, hdue, hlen]
  have hclamp : items.clampScroll = items := by rw [clampScroll, hviewport.clamp_eq]
  have htake : items.takeWindow = (items.window, items) := by rw [takeWindow, hviewport.window_eq]
  have happly : applyPending items = .ok () items := by
    rw [Step.eq_ok_iff, applyPending]
    simp [hpending]
  rw [Step.eq_ok_iff, approach]
  simp [hsync, Step.ensures_of_eq_ok happly, hclamp, htake]

omit [CrossPlacement M Rat] [ViewHandle H V Rat] in
theorem prepare_again {source : ItemSource H V} {s : Hosted H (Collection M V Rat)}
    (hrests : s.held.Rests (source.len s.host).1) :
    prepare source s =
      .ok (s.held.window, []) ⟨(source.len s.host).2, { s.held with passOpen := true }⟩ := by
  have hopen : s.held.openPass = { s.held with passOpen := true } := by
    simp [openPass, hrests.passOpen_eq]
  have happroach : approach (source.len s.host).1 s.held.openPass =
      .ok (s.held.window, []) { s.held with passOpen := true } := by
    rw [hopen]
    exact approach_again hrests.viewport hrests.len_eq (by rw [hrests.due_eq]) hrests.pending_eq
  rw [Step.eq_ok_iff, prepare]
  simp [pollLength, Step.ensures_of_eq_ok happroach]

/-- A pass of a collection at rest, with its views in their places and of the kinds that the source
answers, polls the source and does nothing else. -/
theorem layout_again {source : ItemSource H V} {s : Hosted H (Collection M V Rat)}
    (hrests : s.held.Rests (source.len s.host).1) (hplace : s.held.InPlace)
    (hkinds : (answers source s).2.map some = s.held.window.toList.map s.held.stock.kindOf?) :
    ∃ stock, layout source s =
        .ok { window := s.held.window.toIndexRange, unselected := [] }
          ⟨(source.len s.host).2, { s.held with stock }⟩ ∧
      ViewStock.SameViews s.held.stock stock := by
  have hprepare := prepare_again hrests
  simp only [answers, hprepare, IndexRange.leaving_self] at hkinds
  obtain ⟨stock, hfollow, hviews⟩ : ∃ stock, ViewStock.follow source.views
      ({ s.held with passOpen := true }.layoutFor s.held.due) [] s.held.window.toList
      s.held.window.contains ⟨(source.len s.host).2, s.held.stock⟩ =
        .ok {} ⟨(source.len s.host).2, stock⟩ ∧ ViewStock.SameViews s.held.stock stock :=
    ViewStock.follow_again (congrArg Due.rebind hrests.due_eq) (congrArg Due.place hrests.due_eq)
      hplace.all_contains hplace.placed hkinds
  have hclosed : { s.held with due := {}, stock, passOpen := false } = { s.held with stock } := by
    rw [← hrests.due_eq, ← hrests.passOpen_eq]
  refine ⟨stock, ?_, hviews⟩
  rw [Step.eq_ok_iff, layout]
  simp only [realize, onStock, Step.ensures_bind, Step.ensures_of_eq_ok hprepare, Step.ensures_get,
    Step.ensures_onHeld, Step.ensures_modify, Step.ensures_onPart, IndexRange.leaving_self,
    Step.ensures_of_eq_ok hfollow, Step.ensures_pure]
  exact ⟨trivial, congrArg (Hosted.mk (source.len s.host).2) hclosed⟩

end Collection

end Windowing
