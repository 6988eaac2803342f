import Windowing.Proofs.Exact
import Windowing.Proofs.Extent.Starts
import Windowing.Proofs.WindowBounds

/-!
# Viewports over exact numbers

With exact numbers a viewport that was scrolled is inside the scrollable range, and pulling it back
moves it no more. A viewport that also keeps its window is at rest: it goes on answering this
window until something is changed.

## Main definitions

* `LawfulSettle` — models whose extent stays when they store what they worked out.
* `Viewport.Rests` — a viewport in its range that keeps a window.

## Main results

* `Viewport.rests_window` — a viewport that was pulled back and asked for its window is at rest.
* `Viewport.Rests.clamp_eq`, `Viewport.Rests.window_eq` — a viewport at rest stays as it is.
-/

namespace Windowing

/-! ### Models that settle -/

/-- Models whose extent is the same once they have stored what they worked out. -/
class LawfulSettle (M : Type) {S : outParam Type} [ExtentModel M S] : Prop where
  totalExtent_settleAll : ∀ model : M,
    ExtentModel.totalExtent (ExtentModel.settleAll model) = ExtentModel.totalExtent model

instance {S : Type} [Scalar S] : LawfulSettle (Strip S) where
  totalExtent_settleAll strip := by
    have hstart (index : Nat) : (strip.refreshed index).startOf index = strip.startOf index := by
      have hstarts : ((strip.refreshed index).refreshed index).starts =
          (strip.refreshed index).starts := Starts.refresh_refresh strip.advance index strip.starts
      rw [Strip.startOf, Strip.startOf, hstarts]
      rfl
    change strip.settleAll.totalExtent = strip.totalExtent
    rw [Strip.settleAll]
    split
    · rfl
    · have hlast := hstart (strip.len - 1)
      simp only [Strip.totalExtent, Strip.offsetOf, Nat.lt_irrefl, if_false]
      change (if strip.len = 0 then Scalar.zero else
        (strip.refreshed (strip.len - 1)).startOf (strip.len - 1) +
          strip.extentOf (strip.len - 1)) = _
      rw [hlast]

instance {M S : Type} [Scalar S] [ExtentModel M S] [ResizableModel M S] [LawfulSettle M] :
    LawfulSettle (Grid M S) where
  totalExtent_settleAll grid := LawfulSettle.totalExtent_settleAll grid.tracks

namespace Viewport

variable {M : Type} [ExtentModel M Rat] {viewport : Viewport M Rat} {window : VisibleWindow Rat}

/-- Asking for the window keeps the number of items. -/
theorem len_window [ResizableModel M Rat] [LawfulCount M] (viewport : Viewport M Rat) :
    ExtentModel.len viewport.window.2.model = ExtentModel.len viewport.model := by
  rw [Viewport.window]
  split
  · rfl
  · exact LawfulCount.len_settleAll viewport.model

/-- Asking for the window moves nothing. -/
theorem offset_window (viewport : Viewport M Rat) :
    viewport.window.2.offset = viewport.offset := by
  rw [Viewport.window]
  split <;> rfl

/-! ### The scrollable range -/

theorem maxOffset_eq (viewport : Viewport M Rat) :
    viewport.maxOffset = max (ExtentModel.totalExtent viewport.model - viewport.extent) 0 := by
  rw [maxOffset, Scalar.max_eq]
  rfl

@[simp]
theorem offset_scrollTo (target : Rat) (viewport : Viewport M Rat) :
    (viewport.scrollTo target).1.offset = min (max 0 target) viewport.maxOffset := by
  simp only [scrollTo, Scalar.min_eq, Scalar.nonNegative_eq, Scalar.eq_eq, decide_eq_true_eq]
  split
  · next heq => exact heq.symm
  · rfl

@[simp]
theorem offset_clamp (viewport : Viewport M Rat) :
    viewport.clamp.1.offset = min viewport.offset viewport.maxOffset := by
  simp only [clamp, Scalar.gt_eq, decide_eq_true_eq]
  split
  · next hlt => exact (min_eq_right hlt.le).symm
  · next hle => exact (min_eq_left (not_lt.mp hle)).symm

theorem extent_clamp (viewport : Viewport M Rat) : viewport.clamp.1.extent = viewport.extent := by
  rw [clamp]
  split <;> rfl

theorem maxOffset_clamp {M S : Type} [Scalar S] [ExtentModel M S] (viewport : Viewport M S) :
    viewport.clamp.1.maxOffset = viewport.maxOffset := by
  rw [clamp]
  split <;> rfl

theorem clamp_eq (h : viewport.offset ≤ viewport.maxOffset) :
    viewport.clamp = (viewport, false) := by
  rw [clamp, Scalar.gt_eq, if_neg (by simpa using h)]

/-! ### Viewports at rest -/

/-- The viewport keeps the window, and it is not to be pulled back. -/
structure Rests (viewport : Viewport M Rat) (window : VisibleWindow Rat) : Prop where
  kept_eq : viewport.kept = some window
  offset_le : viewport.offset ≤ viewport.maxOffset

theorem Rests.clamp_eq (h : viewport.Rests window) : viewport.clamp.1 = viewport :=
  congrArg Prod.fst (Viewport.clamp_eq h.offset_le)

theorem Rests.window_eq (h : viewport.Rests window) : viewport.window = (window, viewport) := by
  rw [Viewport.window, h.kept_eq]

/-- A viewport that was pulled back and asked for its window is at rest. -/
theorem rests_window [LawfulSettle M] (viewport : Viewport M Rat) :
    viewport.clamp.1.window.2.Rests viewport.clamp.1.window.1 := by
  have hle : viewport.clamp.1.offset ≤ viewport.clamp.1.maxOffset := by
    rw [offset_clamp, maxOffset_clamp]
    exact min_le_right _ _
  generalize viewport.clamp.1 = clamped at hle
  rw [window]
  cases hkept : clamped.kept with
  | some window => exact ⟨hkept, hle⟩
  | none =>
    refine ⟨rfl, ?_⟩
    rw [maxOffset_eq] at hle ⊢
    rwa [← LawfulSettle.totalExtent_settleAll] at hle

end Viewport

end Windowing
