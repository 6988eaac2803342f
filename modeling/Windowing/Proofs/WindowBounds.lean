import Mathlib.Order.Basic
import Mathlib.Order.Defs.LinearOrder
import Windowing.Extent.Grid
import Windowing.Extent.Strip
import Windowing.Viewport.Request

/-!
# Windows lie inside the content

The walks that find a visible window are bounded by the number of items, whatever the model
answers to them. So a window never reaches past the last item, and it is empty for a model
without items only. A viewport that keeps a window keeps one that is right for its model.

## Main definitions

* `IndexRange.Within` — a range of existing items, empty only where there are none.
* `Viewport.Settled` — a viewport whose kept window, if any, lies within its content.
* `LawfulCount` — models that have as many items as they were told to.

## Main results

* `ExtentModel.visibleWindow_within` — the visible window lies within the content.
* `Viewport.window_within` — so does the window that a settled viewport answers.
-/

namespace Windowing

/-- The range lies inside `len` items, and holds nothing only where there are none. -/
structure IndexRange.Within (range : IndexRange) (len : Nat) : Prop where
  stop_le : range.stop ≤ len
  isEmpty_iff : range.isEmpty = true ↔ len = 0

namespace ExtentModel

variable {M S : Type} [Scalar S] [ExtentModel M S] {model : M} {len index : Nat}

/-! ### Bounds of the walks -/

omit [Scalar S] in
theorem trackStop_le {track : Nat} (h : index ≤ len) : trackStop model len track index ≤ len := by
  fun_induction trackStop model len track index with
  | case1 index hindex ih => exact ih hindex.1
  | case2 => exact h

omit [Scalar S] in
theorem nextTrack_le (h : index < len) : nextTrack model len index ≤ len :=
  trackStop_le h

omit [Scalar S] in
theorem trackStart_le (model : M) (track index : Nat) : trackStart model track index ≤ index := by
  induction index with
  | zero => exact Nat.le_refl 0
  | succ index ih =>
    rw [trackStart]
    split
    · exact Nat.le_succ_of_le ih
    · exact Nat.le_refl _

theorem skipTracks_lt {offset : S} {start : Nat} (h : start < len) :
    skipTracks model len offset start < len := by
  fun_induction skipTracks model len offset start with
  | case1 start next hnext ih => exact ih hnext.1
  | case2 => exact h

theorem stepBack_le (model : M) (offset : S) (index : Nat) :
    stepBack model offset index ≤ index := by
  induction index with
  | zero => exact Nat.le_refl 0
  | succ index ih =>
    rw [stepBack]
    split
    · exact Nat.le_succ_of_le ih
    · exact Nat.le_refl _

theorem le_walkTo (model : M) (len : Nat) (limit : S) (index : Nat) :
    index ≤ walkTo model len limit index := by
  fun_induction walkTo model len limit index with
  | case1 index _ ih => exact Nat.le_of_succ_le ih
  | case2 => exact Nat.le_refl _

theorem walkTo_le {limit : S} (h : index ≤ len) : walkTo model len limit index ≤ len := by
  fun_induction walkTo model len limit index with
  | case1 index hindex ih => exact ih hindex.1
  | case2 => exact h

omit [Scalar S] in
theorem le_lookPast (model : M) (len lookahead stop : Nat) :
    stop ≤ lookPast model len lookahead stop := by
  induction lookahead generalizing stop with
  | zero => exact Nat.le_refl stop
  | succ lookahead ih =>
    rw [lookPast]
    split
    · exact Nat.le_refl stop
    · have hnext := lt_nextTrack model len stop
      exact Nat.le_trans (Nat.le_of_lt hnext) (ih _)

omit [Scalar S] in
theorem lookPast_le {lookahead stop : Nat} (h : stop ≤ len) :
    lookPast model len lookahead stop ≤ len := by
  induction lookahead generalizing stop with
  | zero => exact h
  | succ lookahead ih =>
    rw [lookPast]
    split
    · exact h
    · next hlen => exact ih (nextTrack_le (Nat.lt_of_not_le hlen))

/-! ### Bounds of the window -/

theorem windowStart_lt (model : M) (offset : S) (h : 0 < len) :
    windowStart model len offset < len := by
  have hfound : Nat.min (indexAtOffset model offset) (len - 1) < len :=
    Nat.lt_of_le_of_lt (Nat.min_le_right _ _) (Nat.sub_one_lt_of_lt h)
  have hskip : skipTracks model len offset (Nat.min (indexAtOffset model offset) (len - 1)) < len :=
    skipTracks_lt hfound
  have hback := stepBack_le model offset
    (skipTracks model len offset (Nat.min (indexAtOffset model offset) (len - 1)))
  exact Nat.lt_of_le_of_lt (Nat.le_trans (trackStart_le model _ _) hback) hskip

theorem windowStop_le {limit : S} {lookahead start : Nat} (h : start < len) :
    windowStop model len limit lookahead start ≤ len := by
  have hreached : walkTo model len limit (start + 1) ≤ len := walkTo_le (Nat.succ_le_of_lt h)
  have hpast := le_walkTo model len limit (start + 1)
  exact lookPast_le (nextTrack_le (by omega))

theorem lt_windowStop (model : M) (len : Nat) (limit : S) (lookahead start : Nat) :
    start < windowStop model len limit lookahead start := by
  have hpast := le_walkTo model len limit (start + 1)
  have hnext := lt_nextTrack model len (walkTo model len limit (start + 1) - 1)
  have hlook := le_lookPast model len lookahead
    (nextTrack model len (walkTo model len limit (start + 1) - 1))
  exact Nat.lt_of_lt_of_le (by omega) hlook

/-- The visible window lies within the items of the model, whatever the model answers. -/
theorem visibleWindow_within (model : M) (offset extent : S) (lookahead : Nat) :
    (visibleWindow model offset extent lookahead).toIndexRange.Within (ExtentModel.len model) := by
  rw [visibleWindow]
  by_cases hlen : ExtentModel.len model = 0
  · simp only [hlen, ↓reduceIte]
    exact ⟨Nat.le_refl 0, by simp [VisibleWindow.empty, IndexRange.empty, IndexRange.isEmpty]⟩
  · simp only [hlen, ↓reduceIte]
    have hstart := windowStart_lt model (Scalar.nonNegative offset) (Nat.pos_of_ne_zero hlen)
    refine ⟨windowStop_le hstart, ?_⟩
    simp only [IndexRange.isEmpty, decide_eq_true_iff, hlen, iff_false, Nat.not_le]
    exact lt_windowStop ..

end ExtentModel

/-! ### Models that keep count -/

/-- Models that have as many items as they were told to, and as many after storing what they
worked out as before. -/
class LawfulCount (M : Type) {S : outParam Type} [ExtentModel M S] [ResizableModel M S] : Prop where
  len_setLen : ∀ (len : Nat) (model : M), ExtentModel.len (ResizableModel.setLen len model) = len
  len_settleAll : ∀ model : M, ExtentModel.len (ExtentModel.settleAll model) = ExtentModel.len model

instance {S : Type} [Scalar S] : LawfulCount (Strip S) where
  len_setLen _ _ := rfl
  len_settleAll strip := by
    simp only [ExtentModel.settleAll, ExtentModel.len, Strip.settleAll]
    split <;> rfl

instance {M S : Type} [Scalar S] [ExtentModel M S] [ResizableModel M S] :
    LawfulCount (Grid M S) where
  len_setLen _ _ := rfl
  len_settleAll _ := rfl

/-! ### Viewports -/

namespace Viewport

variable {M S : Type} [Scalar S] [ExtentModel M S] {viewport : Viewport M S}

/-- If the viewport keeps a window, it lies within the items of the model. -/
def Settled (viewport : Viewport M S) : Prop :=
  ∀ window ∈ viewport.kept, window.toIndexRange.Within (ExtentModel.len viewport.model)

omit [Scalar S] in
theorem settled_of_kept_eq_none (h : viewport.kept = none) : viewport.Settled := by
  simp [Settled, h]

/-- The two states show parts of the same model, and the second keeps no window that is wrong for
it unless the first did. -/
structure Steady (before after : Viewport M S) : Prop where
  model_eq : after.model = before.model
  settled : before.Settled → after.Settled

omit [Scalar S] in
theorem Steady.refl (viewport : Viewport M S) : Steady viewport viewport :=
  ⟨rfl, fun h ↦ h⟩

omit [Scalar S] in
theorem Steady.trans {a b c : Viewport M S} (hab : Steady a b) (hbc : Steady b c) : Steady a c :=
  ⟨hbc.model_eq.trans hab.model_eq, fun h ↦ hbc.settled (hab.settled h)⟩

omit [Scalar S] in
theorem setLookahead_steady (lookahead : Nat) (viewport : Viewport M S) :
    Steady viewport (viewport.setLookahead lookahead) := by
  rw [setLookahead]
  split
  · exact .refl viewport
  · exact ⟨rfl, fun _ ↦ settled_of_kept_eq_none rfl⟩

theorem scrollTo_steady (offset : S) (viewport : Viewport M S) :
    Steady viewport (viewport.scrollTo offset).1 := by
  rw [scrollTo]
  split
  · exact .refl viewport
  · exact ⟨rfl, fun _ ↦ settled_of_kept_eq_none rfl⟩

theorem clamp_steady (viewport : Viewport M S) : Steady viewport viewport.clamp.1 := by
  rw [clamp]
  split
  · exact ⟨rfl, fun _ ↦ settled_of_kept_eq_none rfl⟩
  · exact .refl viewport

theorem resize_steady (extent : S) (viewport : Viewport M S) :
    Steady viewport (viewport.resize extent).1 := by
  rw [resize]
  split
  · exact .refl viewport
  · have hresized : Steady viewport
        { viewport with extent := Scalar.nonNegative extent }.invalidate :=
      ⟨rfl, fun _ ↦ settled_of_kept_eq_none rfl⟩
    exact hresized.trans (clamp_steady _)

/-- Bringing an item scrolls to some offset, if it scrolls at all. -/
theorem bring_moves {index : Nat} {align : ScrollAlign} {moved : Viewport M S × Bool}
    (h : viewport.bring index align = .ok moved) :
    moved.1 = viewport ∨ ∃ target, moved = viewport.scrollTo target := by
  rw [bring] at h
  simp only [bind, Except.bind, pure, Except.pure] at h
  split at h
  · exact .inr ⟨_, (Except.ok.inj h).symm⟩
  · split at h
    · cases h
    · split at h
      · exact .inl (congrArg Prod.fst (Except.ok.inj h).symm)
      · exact .inr ⟨_, (Except.ok.inj h).symm⟩

/-- Whatever is requested, the viewport is scrolled to some offset, if it is scrolled at all. -/
theorem apply_moves {request : ScrollRequest S} {moved : Viewport M S × Bool}
    (h : request.apply viewport = .ok moved) :
    moved.1 = viewport ∨ ∃ target, moved = viewport.scrollTo target := by
  cases request with
  | offset target => exact .inr ⟨target, (Except.ok.inj h).symm⟩
  | item index align => exact bring_moves h
  | stop => exact .inr ⟨viewport.maxOffset, (Except.ok.inj h).symm⟩

/-- Scrolling as requested keeps the model, unless the model lost the item. -/
theorem apply_steady {request : ScrollRequest S} {moved : Viewport M S × Bool}
    (h : request.apply viewport = .ok moved) : Steady viewport moved.1 := by
  rcases apply_moves h with hsame | ⟨target, rfl⟩
  · exact hsame ▸ .refl viewport
  · exact scrollTo_steady target viewport

/-- A viewport keeps the window that it answers, for the model that it was found for. -/
theorem window_settled (h : viewport.Settled) : viewport.window.2.Settled := by
  rw [window]
  cases hkept : viewport.kept with
  | some window => exact h
  | none =>
    intro window hwindow
    obtain rfl := Option.some.inj hwindow
    exact ExtentModel.visibleWindow_within ..

/-- The window that a settled viewport answers lies within the items of its model. -/
theorem window_within [ResizableModel M S] [LawfulCount M] (h : viewport.Settled) :
    viewport.window.1.toIndexRange.Within (ExtentModel.len viewport.model) := by
  rw [window]
  cases hkept : viewport.kept with
  | some window => exact h window hkept
  | none =>
    rw [← LawfulCount.len_settleAll viewport.model]
    exact ExtentModel.visibleWindow_within ..

end Viewport

end Windowing
