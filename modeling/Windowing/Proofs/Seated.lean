import Windowing.Proofs.Scrolling
import Windowing.Proofs.Viewports

/-!
# Viewports that are scrolled to where they can be

A viewport scrolls to an offset that is a number, not negative, and not past the largest one. What
moves it leaves it at such an offset. What can take it away from there is content that gets shorter,
so whoever edits the model is to pull the viewport back.

What is said here of the scalars is what comparing and clamping them needs. Nothing is said about
sums and differences, so rounding does not matter.

## Main definitions

* `LawfulEdits` — models whose extent stays where an edit says that it changed nothing.
* `Scalar.IsOffset` — a value that is a number, and not negative.
* `LawfulClamp` — the laws of a scalar that clamping rests on.
* `Viewport.Seated` — the viewport is scrolled to where it can be.

## Main results

* `Viewport.tended_seated` — a collection keeps its viewport seated.
* `Viewport.scrollTo_clamp` — a viewport that was pulled back stays there when it is scrolled to
  where it was before.
-/

namespace Windowing

open ExtentModel (totalExtent)

/-! ### Models -/

/-- Models whose extent stays where an edit says that it changed nothing, and where it fails. -/
class LawfulEdits (M : Type) {S : outParam Type} [ExtentModel M S] [ResizableModel M S]
    [CrossPlacement M S] : Prop where
  setItemExtent : ∀ (index : Nat) (extent : S) (model : M),
    (ResizableModel.setItemExtent index extent).Ensures model
      (fun applied edited ↦ applied = false → totalExtent edited = totalExtent model)
      fun edited ↦ totalExtent edited = totalExtent model
  clearItemExtent : ∀ (index : Nat) (model : M),
    (ResizableModel.clearItemExtent index model).2 = false →
      totalExtent (ResizableModel.clearItemExtent index model).1 = totalExtent model
  fitCrossExtent : ∀ (crossExtent : S) (model : M),
    (CrossPlacement.fitCrossExtent crossExtent model).2 = false →
      totalExtent (CrossPlacement.fitCrossExtent crossExtent model).1 = totalExtent model

/-- While no item has an extent of its own, room for the starts does not show. -/
theorem Strip.totalExtent_openStarts {S : Type} [Scalar S] (strip : Strip S) :
    strip.openStarts.totalExtent = strip.totalExtent := by
  rw [openStarts]
  split
  · next huniform =>
    have hstart (index : Nat) :
        ({ strip with starts := .blank strip.len } : Strip S).startOf index =
          strip.startOf index := by
      have hopened : ({ strip with starts := .blank strip.len } : Strip S).isUniform = true :=
        huniform
      rw [startOf, startOf, huniform, hopened]
      rfl
    simp only [Strip.totalExtent, offsetOf, hstart]
    rfl
  · rfl

instance {S : Type} [Scalar S] : LawfulEdits (Strip S) where
  setItemExtent index extent strip := by
    change (Strip.setOverride index extent).Ensures _ _ _
    simp only [Strip.setOverride, Step.ensures_bind, Step.ensures_get, Step.ensures_ite,
      Step.ensures_pure, Step.ensures_set, Step.ensures_ofExcept]
    split
    · exact fun _ ↦ trivial
    · cases checkedExtent extent with
      | error fault => exact strip.totalExtent_openStarts
      | ok checked => exact nofun
  clearItemExtent index strip h := by
    change (strip.clearOverride index).2 = false at h
    change (strip.clearOverride index).1.totalExtent = strip.totalExtent
    rw [Strip.clearOverride] at h ⊢
    split at h
    · cases h
    · next hnone => rw [if_neg hnone]
  fitCrossExtent _ _ _ := rfl

instance {M S : Type} [Scalar S] [ExtentModel M S] [ResizableModel M S] [CrossPlacement M S]
    [LawfulEdits M] : LawfulEdits (Grid M S) where
  setItemExtent index extent grid := by
    change (Grid.setItemExtent index extent).Ensures _ _ _
    simp only [Grid.setItemExtent, Step.ensures_bind, Step.ensures_get, Step.ensures_ite,
      Step.ensures_within, Step.ensures_pure]
    split
    · exact LawfulEdits.setItemExtent (grid.trackOf index) extent grid.tracks
    · exact fun _ ↦ trivial
  clearItemExtent index grid h := by
    change (grid.clearItemExtent index).2 = false at h
    change totalExtent (grid.clearItemExtent index).1.tracks = totalExtent grid.tracks
    rw [Grid.clearItemExtent] at h ⊢
    split at h
    · next hindex =>
      rw [if_pos hindex]
      exact LawfulEdits.clearItemExtent (grid.trackOf index) grid.tracks h
    · next hindex => rw [if_neg hindex]
  fitCrossExtent crossExtent grid h := by
    have hlanes := grid.lanesFor_pos crossExtent
    change (grid.setLanes (grid.lanesFor crossExtent) hlanes).2 = false at h
    change totalExtent (grid.setLanes (grid.lanesFor crossExtent) hlanes).1.tracks =
      totalExtent grid.tracks
    rw [Grid.setLanes] at h ⊢
    split at h
    · next hsame => rw [if_pos hsame]
    · cases h

/-! ### Scalars -/

/-- The value is read as the offset that it is: it is a number, and not negative. -/
def Scalar.IsOffset {S : Type} [Scalar S] (x : S) : Prop :=
  eq (nonNegative x) x = true

open Scalar (IsOffset)

/-- Scalars whose values can be clamped into the range of a viewport. Nothing is said about sums
and differences, so the laws stand rounding, and values that are no numbers. -/
class LawfulClamp (S : Type) [Scalar S] : Prop where
  gt_self : ∀ a : S, Scalar.gt a a = false
  gt_min : ∀ a b : S, Scalar.gt (Scalar.min a b) b = false
  zero_gt_max : ∀ a : S, Scalar.gt Scalar.zero (Scalar.max a Scalar.zero) = false
  isOffset_zero : IsOffset (Scalar.zero : S)
  isOffset_max : ∀ a : S, IsOffset (Scalar.max a Scalar.zero)
  isOffset_min : ∀ a b : S, IsOffset b → IsOffset (Scalar.min (Scalar.nonNegative a) b)
  eq_clamped : ∀ a b : S, IsOffset a → IsOffset b →
    Scalar.eq (Scalar.min (Scalar.nonNegative a) b) (if Scalar.gt a b then b else a) = true

theorem Scalar.isOffset_iff (a : Rat) : IsOffset a ↔ 0 ≤ a := by
  simp [IsOffset]

instance : LawfulClamp Rat where
  gt_self a := by simp
  gt_min a b := by simp
  zero_gt_max a := by simp
  isOffset_zero := by simp [Scalar.isOffset_iff]
  isOffset_max a := by simp [Scalar.isOffset_iff]
  isOffset_min a b hb := by
    rw [Scalar.isOffset_iff] at hb ⊢
    simp [hb]
  eq_clamped a b ha hb := by
    rw [Scalar.isOffset_iff] at ha
    simp only [Scalar.nonNegative_eq, Scalar.min_eq, Scalar.gt_eq, Scalar.eq_eq, decide_eq_true_eq]
    rw [max_eq_right ha]
    split
    · next hlt => exact min_eq_right hlt.le
    · next hle => exact min_eq_left (not_lt.mp hle)

/-! ### Seated viewports -/

namespace Viewport

section Seated

variable {M S : Type} [Scalar S] [ExtentModel M S] {viewport : Viewport M S}

/-- The viewport is scrolled to an offset, and not past the largest one. -/
structure Seated (viewport : Viewport M S) : Prop where
  isOffset : IsOffset viewport.offset
  not_gt : Scalar.gt viewport.offset viewport.maxOffset = false

theorem Seated.clamp_eq (h : viewport.Seated) : viewport.clamp = (viewport, false) := by
  rw [Viewport.clamp, h.not_gt, if_neg Bool.false_ne_true]

theorem offset_clamp_eq_ite (viewport : Viewport M S) : viewport.clamp.1.offset =
    if Scalar.gt viewport.offset viewport.maxOffset then viewport.maxOffset
    else viewport.offset := by
  rw [Viewport.clamp]
  split <;> rfl

/-- A viewport that is not resized stays as it is. -/
theorem fst_resize_of_eq_false {extent : S} (h : (viewport.resize extent).2 = false) :
    (viewport.resize extent).1 = viewport := by
  rw [Viewport.resize] at h ⊢
  split at h
  · next hsame => rw [if_pos hsame]
  · cases h

variable [LawfulClamp S]

theorem isOffset_maxOffset (viewport : Viewport M S) : IsOffset viewport.maxOffset :=
  LawfulClamp.isOffset_max _

theorem seated_clamp (h : IsOffset viewport.offset) : viewport.clamp.1.Seated := by
  rw [Viewport.clamp]
  split
  · exact ⟨viewport.isOffset_maxOffset, LawfulClamp.gt_self _⟩
  · next hnot => exact ⟨h, Bool.eq_false_iff.mpr hnot⟩

theorem Seated.scrollTo (h : viewport.Seated) (target : S) :
    (viewport.scrollTo target).1.Seated := by
  rw [Viewport.scrollTo]
  split
  · exact h
  · exact ⟨LawfulClamp.isOffset_min _ _ viewport.isOffset_maxOffset, LawfulClamp.gt_min _ _⟩

theorem Seated.resize (h : viewport.Seated) (extent : S) : (viewport.resize extent).1.Seated := by
  rw [Viewport.resize]
  split
  · exact h
  · exact seated_clamp h.isOffset

omit [LawfulClamp S] in
theorem Seated.withModel {model : M} (h : viewport.Seated)
    (hextent : ExtentModel.totalExtent model = ExtentModel.totalExtent viewport.model) :
    (viewport.withModel model).Seated where
  isOffset := h.isOffset
  not_gt := by
    rw [maxOffset]
    change Scalar.gt viewport.offset
      (Scalar.max (ExtentModel.totalExtent model - viewport.extent) Scalar.zero) = false
    rw [hextent]
    exact h.not_gt

omit [LawfulClamp S] in
theorem Seated.window [LawfulSettle M] (h : viewport.Seated) : viewport.window.2.Seated := by
  rw [Viewport.window]
  split
  · exact h
  · have hsettled := h.withModel (LawfulSettle.totalExtent_settleAll viewport.model)
    exact ⟨hsettled.isOffset, hsettled.not_gt⟩

theorem Seated.withModel_clampIf {model : M} {edited : Bool} (h : viewport.Seated)
    (hextent : edited = false →
      ExtentModel.totalExtent model = ExtentModel.totalExtent viewport.model) :
    ((viewport.withModel model).clampIf edited).Seated := by
  cases edited with
  | false => exact h.withModel (hextent rfl)
  | true => exact seated_clamp h.isOffset

theorem seated_ofModel (model : M) (extent : S) (lookahead : Nat) :
    ((ofModel model extent).setLookahead lookahead).Seated := by
  rw [setLookahead]
  split <;> exact ⟨LawfulClamp.isOffset_zero, LawfulClamp.zero_gt_max _⟩

/-- A collection keeps its viewport seated. -/
theorem tended_seated [ResizableModel M S] [CrossPlacement M S] [LawfulSettle M]
    [LawfulEdits M] : Tended (Seated : Viewport M S → Prop) where
  scrollTo target h := h.scrollTo target
  clamp h := seated_clamp h.isOffset
  resize extent h := h.resize extent
  window h := h.window
  setLen _ h := seated_clamp h.isOffset
  setItemExtent {viewport} index extent h :=
    (LawfulEdits.setItemExtent index extent viewport.model).mono
      (fun _ _ ↦ h.withModel_clampIf) fun _ ↦ h.withModel
  clearItemExtent {viewport} index h :=
    h.withModel_clampIf (LawfulEdits.clearItemExtent index viewport.model)
  fitCrossExtent {viewport} crossExtent h :=
    h.withModel_clampIf (LawfulEdits.fitCrossExtent crossExtent viewport.model)

/-- A viewport that was pulled back does not move when it is scrolled to where it was before. -/
theorem scrollTo_clamp (h : IsOffset viewport.offset) :
    (viewport.clamp.1.scrollTo viewport.offset).1 = viewport.clamp.1 := by
  have heq := LawfulClamp.eq_clamped viewport.offset viewport.maxOffset h
    viewport.isOffset_maxOffset
  rw [← offset_clamp_eq_ite, ← maxOffset_clamp] at heq
  rw [Viewport.scrollTo, if_pos heq]

end Seated

end Viewport

end Windowing
