import Mathlib.Data.Finset.Card
import Mathlib.Order.Interval.Finset.Nat
import Windowing.Proofs.Extent.Built
import Windowing.Proofs.WindowBounds

/-!
# The visible window is complete and tight

For a model that lays out its items, the walks that find a visible window end where they should:
the window starts on the last track that starts at or before the viewport, and the walk forward
stops at the first item that starts behind what the viewport shows. So every item of which a part
is in view is in the window, and apart from the look-ahead no track of it is out of view.

## Main definitions

* `ExtentModel.Passed` — all tracks that start at or before an offset are passed.
* `ExtentModel.Ordered` — a model that lays out the items that it has not lost.
* `VisibleWindow.Fits` — a window that is complete and tight.

## Main results

* `ExtentModel.Ordered.contains_visibleWindow` — an item of which a part is in view is in the
  window.
* `ExtentModel.LaidOut.visibleWindow_fits` — the window of a model that lays out its items fits.
* `ExtentModel.visibleWindow_fits_of_built` — so do the windows of strips and grids.
-/

namespace Windowing

namespace ExtentModel

section Tracks

variable {M S : Type} [ExtentModel M S] {model : M} {len track index i : Nat}

/-! ### Tracks -/

theorem trackIndex_of_lt_trackStop (hle : index ≤ i) (hi : i < trackStop model len track index) :
    trackIndex model i = track := by
  fun_induction trackStop model len track index with
  | case1 index hindex ih =>
    rcases Nat.eq_or_lt_of_le hle with rfl | hlt
    · exact hindex.2
    · exact ih hlt hi
  | case2 index hindex => omega

theorem trackIndex_trackStop_ne (h : trackStop model len track index < len) :
    trackIndex model (trackStop model len track index) ≠ track := by
  fun_induction trackStop model len track index with
  | case1 index hindex ih => exact ih h
  | case2 index hindex => exact fun heq ↦ hindex ⟨h, heq⟩

/-- The items before the next track are on the track of the item that it is next to. -/
theorem trackIndex_of_lt_nextTrack (hle : index ≤ i) (hi : i < nextTrack model len index) :
    trackIndex model i = trackIndex model index := by
  rcases Nat.eq_or_lt_of_le hle with rfl | hlt
  · rfl
  · exact trackIndex_of_lt_trackStop hlt hi

theorem trackIndex_nextTrack_ne (h : nextTrack model len index < len) :
    trackIndex model (nextTrack model len index) ≠ trackIndex model index :=
  trackIndex_trackStop_ne h

theorem trackIndex_of_trackStart_le (hle : trackStart model track index ≤ i) (hi : i < index) :
    trackIndex model i = track := by
  induction index with
  | zero => exact absurd hi (Nat.not_lt_zero i)
  | succ index ih =>
    rw [trackStart] at hle
    split at hle
    · next htrack =>
      rcases Nat.eq_or_lt_of_le (Nat.le_of_lt_succ hi) with rfl | hlt
      · exact htrack
      · exact ih hle hlt
    · omega

/-- The run that is gone back over is on one track. -/
theorem trackIndex_trackStart (model : M) (index : Nat) :
    trackIndex model (trackStart model (trackIndex model index) index) =
      trackIndex model index := by
  rcases Nat.eq_or_lt_of_le (trackStart_le model (trackIndex model index) index) with heq | hlt
  · rw [heq]
  · exact trackIndex_of_trackStart_le (Nat.le_refl _) hlt

theorem trackIndex_ne_of_trackStart (h : trackStart model track index = i + 1) :
    trackIndex model i ≠ track := by
  induction index with
  | zero => cases h
  | succ index ih =>
    rw [trackStart] at h
    split at h
    · exact ih h
    · next htrack =>
      obtain rfl := Nat.succ.inj h
      exact htrack

end Tracks

variable {M : Type} [ExtentModel M Rat] {model : M} {index i j start : Nat} {top limit : Rat}

/-! ### Offsets of items in order -/

theorem LaidOut.offsetOf_mono (h : LaidOut model) (hij : i ≤ j) (hj : j < len model) :
    offsetOf model i ≤ offsetOf model j := by
  have hi := Nat.lt_of_le_of_lt hij hj
  rcases (h.trackIndex_mono hij).lt_or_eq with hlt | heq
  · obtain ⟨extent, -, hnonneg, hends, -⟩ := h.extentOf_ok i hi
    have hend := hends j hj hlt
    linarith
  · exact (h.offsetOf_congr i hi j hj heq).le

theorem LaidOut.offsetOf_le_totalExtent (h : LaidOut model) (hi : i < len model) :
    offsetOf model i ≤ totalExtent model := by
  obtain ⟨extent, -, hnonneg, -, htotal⟩ := h.extentOf_ok i hi
  linarith

/-- Offsets stay in order past the end. -/
theorem LaidOut.monotone_offsetOf (h : LaidOut model) : Monotone (offsetOf model) := by
  intro i j hij
  rcases Nat.lt_or_ge j (len model) with hj | hj
  · exact h.offsetOf_mono hij hj
  · rw [h.offsetOf_past j hj]
    rcases Nat.lt_or_ge i (len model) with hi | hi
    · exact h.offsetOf_le_totalExtent hi
    · exact (h.offsetOf_past i hi).le

theorem LaidOut.totalExtent_nonneg (h : LaidOut model) : 0 ≤ totalExtent model := by
  by_cases hlen : 0 < len model
  · exact h.offsetOf_zero ▸ h.offsetOf_le_totalExtent hlen
  · rw [← h.offsetOf_past 0 (Nat.le_of_not_lt hlen), h.offsetOf_zero]

/-! ### Where a window starts -/

/-- Every track behind that of `start` starts after `top`, or behind all content. -/
def Passed (model : M) (top : Rat) (start : Nat) : Prop :=
  ∀ j < len model, trackIndex model start < trackIndex model j →
    top < offsetOf model j ∨ totalExtent model ≤ offsetOf model j

theorem Passed.mono (h : Passed model top i)
    (hle : trackIndex model i ≤ trackIndex model j) : Passed model top j :=
  fun k hk hlt ↦ h k hk (Nat.lt_of_le_of_lt hle hlt)

theorem LaidOut.passed_skipTracks (h : LaidOut model) (hstart : Passed model top start) :
    Passed model top (skipTracks model (len model) top start) := by
  fun_induction skipTracks model (len model) top start with
  | case1 start next hnext ih =>
    exact ih (hstart.mono (h.trackIndex_mono (Nat.le_of_lt (lt_nextTrack model _ start))))
  | case2 => exact hstart

/-- Going back passes only items that start after `top`. -/
theorem LaidOut.passed_stepBack (h : LaidOut model) (hindex : index < len model)
    (hpassed : Passed model top index) : Passed model top (stepBack model top index) := by
  induction index with
  | zero => exact hpassed
  | succ index ih =>
    rw [stepBack]
    split
    · next hafter =>
      rw [Scalar.gt_eq, decide_eq_true_eq] at hafter
      refine ih (Nat.lt_of_succ_lt hindex) fun j hj hlt ↦ ?_
      -- An item behind is the one that was left, or behind it too.
      have hnext := h.trackIndex_mono (Nat.succ_le_of_lt (h.trackIndex_mono.reflect_lt hlt))
      rcases hnext.lt_or_eq with hbehind | hsame
      · exact hpassed j hj hbehind
      · exact .inl ((h.offsetOf_congr _ hindex j hj hsame).symm ▸ hafter)
    · exact hpassed

theorem offsetOf_stepBack_le (hzero : offsetOf model 0 = 0) (htop : 0 ≤ top) (index : Nat) :
    offsetOf model (stepBack model top index) ≤ top := by
  induction index with
  | zero => exact hzero ▸ htop
  | succ index ih =>
    rw [stepBack]
    split
    · exact ih
    · next hafter => simpa using hafter

theorem trackIndex_lt_of_lt_trackStart (hmono : Monotone (trackIndex model))
    (hi : i < trackStart model (trackIndex model index) index) :
    trackIndex model i < trackIndex model index := by
  obtain ⟨before, hbefore⟩ := Nat.exists_eq_succ_of_ne_zero (Nat.ne_of_gt (Nat.zero_lt_of_lt hi))
  have hindex := trackStart_le model (trackIndex model index) index
  have hne := trackIndex_ne_of_trackStart hbefore
  have hi' := hmono (show i ≤ before by omega)
  have hle := hmono (show before ≤ index by omega)
  omega

/-- A window starts with the first item of the last track that starts at or before `top`. -/
theorem LaidOut.windowStart_spec (h : LaidOut model) (hlen : 0 < len model) (htop : 0 ≤ top) :
    offsetOf model (windowStart model (len model) top) ≤ top ∧
      Passed model top (windowStart model (len model) top) := by
  have hfound := h.indexAtOffset_lt top hlen
  have hmin : Nat.min (indexAtOffset model top) (len model - 1) = indexAtOffset model top :=
    Nat.min_eq_left (Nat.le_sub_one_of_lt hfound)
  rw [windowStart, hmin]
  have hskip : skipTracks model (len model) top (indexAtOffset model top) < len model :=
    skipTracks_lt hfound
  have hpassed := h.passed_stepBack hskip (h.passed_skipTracks (h.lt_offsetOf top htop))
  have hback := offsetOf_stepBack_le h.offsetOf_zero htop
    (skipTracks model (len model) top (indexAtOffset model top))
  have hlt := Nat.lt_of_le_of_lt (stepBack_le model top _) hskip
  generalize stepBack model top (skipTracks model (len model) top (indexAtOffset model top)) = last
    at hpassed hback hlt ⊢
  have htrack := trackIndex_trackStart model last
  have hstart := Nat.lt_of_le_of_lt (trackStart_le model (trackIndex model last) last) hlt
  refine ⟨?_, hpassed.mono htrack.ge⟩
  rw [h.offsetOf_congr _ hstart last hlt htrack]
  exact hback

/-! ### Where a window stops -/

theorem offsetOf_lt_of_lt_walkTo {len : Nat} (hle : index ≤ i)
    (hi : i < walkTo model len limit index) : offsetOf model i < limit := by
  fun_induction walkTo model len limit index with
  | case1 index hindex ih =>
    rcases Nat.eq_or_lt_of_le hle with rfl | hlt
    · simpa using hindex.2
    · exact ih hlt hi
  | case2 index hindex => omega

theorem le_offsetOf_walkTo {len : Nat} (h : walkTo model len limit index < len) :
    limit ≤ offsetOf model (walkTo model len limit index) := by
  fun_induction walkTo model len limit index with
  | case1 index hindex ih => exact ih h
  | case2 index hindex => simpa [h] using hindex

/-- A walk over whole tracks sees as many tracks at most as it makes moves. -/
theorem card_tracks_lookPast {M S : Type} [ExtentModel M S] (model : M) (len lookahead stop : Nat) :
    ((Finset.Ico stop (lookPast model len lookahead stop)).image (trackIndex model)).card ≤
      lookahead := by
  induction lookahead generalizing stop with
  | zero => simp [lookPast]
  | succ lookahead ih =>
    rw [lookPast]
    split
    · simp
    · have hfirst : ((Finset.Ico stop (nextTrack model len stop)).image (trackIndex model)) ⊆
          {trackIndex model stop} := by
        intro track htrack
        obtain ⟨i, hi, rfl⟩ := Finset.mem_image.mp htrack
        obtain ⟨hle, hlt⟩ := Finset.mem_Ico.mp hi
        exact Finset.mem_singleton.mpr (trackIndex_of_lt_nextTrack hle hlt)
      have hnext := lt_nextTrack model len stop
      have hrest := le_lookPast model len lookahead (nextTrack model len stop)
      rw [← Finset.Ico_union_Ico_eq_Ico hnext.le hrest, Finset.image_union]
      calc _ ≤ _ := Finset.card_union_le _ _
        _ ≤ 1 + lookahead := Nat.add_le_add (Finset.card_le_card hfirst) (ih _)
        _ = lookahead + 1 := Nat.add_comm 1 lookahead

/-- No track goes on behind where the next one starts. -/
theorem LaidOut.trackIndex_lt_of_nextTrack_le (h : LaidOut model)
    (hi : i < nextTrack model (len model) index) (hnext : nextTrack model (len model) index ≤ j)
    (hj : j < len model) : trackIndex model i < trackIndex model j := by
  have hle : trackIndex model i ≤ trackIndex model index := by
    rcases Nat.le_total i index with hbefore | hafter
    · exact h.trackIndex_mono hbefore
    · exact (trackIndex_of_lt_nextTrack hafter hi).le
  have hne := trackIndex_nextTrack_ne (Nat.lt_of_le_of_lt hnext hj)
  calc trackIndex model i ≤ trackIndex model index := hle
    _ < trackIndex model (nextTrack model (len model) index) :=
      lt_of_le_of_ne (h.trackIndex_mono (lt_nextTrack model _ index).le) hne.symm
    _ ≤ trackIndex model j := h.trackIndex_mono hnext

/-- Completing the last track that the walk reached adds no item that starts elsewhere. -/
theorem LaidOut.offsetOf_lt_of_lt_nextTrack (h : LaidOut model) {last : Nat}
    (hlast : last + 1 = walkTo model (len model) limit (start + 1)) (hstart : start < len model)
    (hle : start ≤ i) (hi : i < nextTrack model (len model) last)
    (hne : trackIndex model i ≠ trackIndex model start) : offsetOf model i < limit := by
  have hreached : last + 1 ≤ len model := hlast ▸ walkTo_le hstart
  have hwalked {k : Nat} (hk : start < k) (hklast : k ≤ last) : offsetOf model k < limit := by
    have hkreached : k < walkTo model (len model) limit (start + 1) := by omega
    exact offsetOf_lt_of_lt_walkTo hk hkreached
  have hbehind : start < i := lt_of_le_of_ne hle fun heq ↦ hne (heq ▸ rfl)
  rcases Nat.lt_or_ge last i with hadded | hwithin
  · have htrack := trackIndex_of_lt_nextTrack hadded.le hi
    have hfirst : start ≠ last := fun heq ↦ hne (heq ▸ htrack)
    have hlt : start < last :=
      lt_of_le_of_ne (by have := le_walkTo model (len model) limit (start + 1); omega) hfirst
    have hlen := Nat.lt_of_lt_of_le hi (nextTrack_le hreached)
    rw [h.offsetOf_congr i hlen last hreached htrack]
    exact hwalked hlt le_rfl
  · exact hwalked hbehind hwithin

/-- Up to the look-ahead the items behind the first track start before `limit`. -/
theorem LaidOut.windowStop_spec (h : LaidOut model) (hstart : start < len model) (limit : Rat)
    (lookahead : Nat) :
    let stop := windowStop model (len model) limit lookahead start
    ∃ core, start < core ∧ core ≤ stop ∧
      (∀ i < core, ∀ j, core ≤ j → j < stop → trackIndex model i ≠ trackIndex model j) ∧
      ((Finset.Ico core stop).image (trackIndex model)).card ≤ lookahead ∧
      ∀ i, start ≤ i → i < core → trackIndex model i ≠ trackIndex model start →
        offsetOf model i < limit := by
  have hpast := le_walkTo model (len model) limit (start + 1)
  obtain ⟨last, hlast⟩ : ∃ last, last + 1 = walkTo model (len model) limit (start + 1) :=
    ⟨_, Nat.sub_add_cancel (Nat.le_trans (Nat.succ_pos start) hpast)⟩
  have hstop : windowStop model (len model) limit lookahead start =
      lookPast model (len model) lookahead (nextTrack model (len model) last) := by
    rw [windowStop, ← hlast, Nat.add_sub_cancel]
  have hbound : windowStop model (len model) limit lookahead start ≤ len model :=
    windowStop_le hstart
  have hnext := lt_nextTrack model (len model) last
  have hlook := le_lookPast model (len model) lookahead (nextTrack model (len model) last)
  rw [← hlast] at hpast
  refine ⟨nextTrack model (len model) last, by omega, hstop ▸ hlook, ?whole, ?few, ?within⟩
  case whole =>
    intro i hi j hj hjstop
    exact (h.trackIndex_lt_of_nextTrack_le hi hj (Nat.lt_of_lt_of_le hjstop hbound)).ne
  case few =>
    rw [hstop]
    exact card_tracks_lookPast ..
  case within =>
    intro i hle hi hne
    exact h.offsetOf_lt_of_lt_nextTrack hlast hstart hle hi hne

end ExtentModel

/-! ### Items in order -/

namespace ExtentModel

/-- The tracks of the model start in order, and an item that has an extent ends before the next
track starts and before the content ends. Items that the model has lost may lie anywhere behind. -/
structure Ordered {M : Type} [ExtentModel M Rat] (model : M) : Prop where
  trackIndex_mono : Monotone (trackIndex model)
  offsetOf_zero : offsetOf model 0 = 0
  offsetOf_mono : ∀ i j, i ≤ j → j < len model → offsetOf model i ≤ offsetOf model j
  ends : ∀ i < len model, ∀ extent, extentOf model i = .ok extent →
    (∀ j < len model, trackIndex model i < trackIndex model j →
      offsetOf model i + extent ≤ offsetOf model j) ∧
    offsetOf model i + extent ≤ totalExtent model

section Ordered

variable {M : Type} [ExtentModel M Rat] {model : M} {index i j : Nat} {extent top limit : Rat}

theorem LaidOut.ordered (h : LaidOut model) : Ordered model where
  trackIndex_mono := h.trackIndex_mono
  offsetOf_zero := h.offsetOf_zero
  offsetOf_mono _ _ := h.offsetOf_mono
  ends i hi extent hextent := by
    obtain ⟨own, hown, -, hends⟩ := h.extentOf_ok i hi
    obtain rfl := Except.ok.inj (hown.symm.trans hextent)
    exact hends

theorem Ordered.offsetOf_nonneg (h : Ordered model) (hindex : index < len model) :
    0 ≤ offsetOf model index :=
  h.offsetOf_zero ▸ h.offsetOf_mono 0 index (Nat.zero_le index) hindex

/-- An item that ends after `top` is not before the window. -/
theorem Ordered.windowStart_le (h : Ordered model) (htop : 0 ≤ top) (hindex : index < len model)
    (hextent : extentOf model index = .ok extent) (hends : top < offsetOf model index + extent) :
    windowStart model (len model) top ≤ index := by
  rw [windowStart]
  have hfound : Nat.min (indexAtOffset model top) (len model - 1) < len model :=
    Nat.lt_of_le_of_lt (Nat.min_le_right _ _) (Nat.sub_one_lt_of_lt hindex)
  have hskipped : skipTracks model (len model) top
      (Nat.min (indexAtOffset model top) (len model - 1)) < len model := skipTracks_lt hfound
  have hlast := Nat.lt_of_le_of_lt (stepBack_le model top _) hskipped
  have hback := offsetOf_stepBack_le h.offsetOf_zero htop
    (skipTracks model (len model) top (Nat.min (indexAtOffset model top) (len model - 1)))
  generalize stepBack model top _ = last at hlast hback ⊢
  by_contra hbefore
  have htrack := trackIndex_lt_of_lt_trackStart h.trackIndex_mono (Nat.lt_of_not_le hbefore)
  have hend := (h.ends index hindex extent hextent).1 last hlast htrack
  linarith

/-- An item that starts before `limit` is not behind the window. -/
theorem Ordered.lt_windowStop (h : Ordered model) {start : Nat} (lookahead : Nat)
    (hindex : index < len model) (hstarts : offsetOf model index < limit) :
    index < windowStop model (len model) limit lookahead start := by
  rw [windowStop]
  have hnext := lt_nextTrack model (len model)
    (walkTo model (len model) limit (start + 1) - 1)
  have hlook := le_lookPast model (len model) lookahead
    (nextTrack model (len model) (walkTo model (len model) limit (start + 1) - 1))
  by_contra hbehind
  have hreached : walkTo model (len model) limit (start + 1) ≤ index := by omega
  have hlimit := le_offsetOf_walkTo (Nat.lt_of_le_of_lt hreached hindex)
  exact absurd (hlimit.trans (h.offsetOf_mono _ _ hreached hindex)) (not_le.mpr hstarts)

/-- An item of which a part is in view is in the window. -/
theorem Ordered.contains_visibleWindow (h : Ordered model) {offset viewportExtent : Rat}
    (lookahead : Nat) (hindex : index < len model) (hextent : extentOf model index = .ok extent)
    (hview : max (offsetOf model index) (max 0 offset) <
      min (offsetOf model index + extent) (max 0 offset + max 0 viewportExtent)) :
    (visibleWindow model offset viewportExtent lookahead).contains index = true := by
  obtain ⟨hends, hstarts⟩ := lt_min_iff.mp hview
  have htotal := (h.ends index hindex extent hextent).2
  rw [visibleWindow]
  simp only [Nat.ne_of_gt (Nat.zero_lt_of_lt hindex), if_false, Scalar.nonNegative_eq,
    Scalar.min_eq, IndexRange.contains_iff]
  refine ⟨h.windowStart_le (le_max_left 0 offset) hindex hextent (max_lt_iff.mp hends).2,
    h.lt_windowStop lookahead hindex (lt_min (max_lt_iff.mp hstarts).1 ?_)⟩
  calc offsetOf model index < offsetOf model index + extent := (max_lt_iff.mp hends).1
    _ ≤ totalExtent model := htotal
    _ ≤ max 0 (totalExtent model) := le_max_right _ _

end Ordered

end ExtentModel

/-! ### The window as a whole -/

/-- The window shows all of what lies between `top` and `bottom`, and apart from `lookahead` tracks
behind it nothing that lies elsewhere. -/
structure VisibleWindow.Fits {M : Type} [ExtentModel M Rat] (window : VisibleWindow Rat) (model : M)
    (top bottom : Rat) (lookahead : Nat) : Prop where
  /-- Every item has an extent, and is in the window if a part of it is in view. -/
  complete : ∀ index < ExtentModel.len model, ∃ extent,
    ExtentModel.extentOf model index = .ok extent ∧
      (max (ExtentModel.offsetOf model index) top <
          min (ExtentModel.offsetOf model index + extent) bottom →
        window.contains index = true)
  /-- The first track starts at or before `top`. -/
  offsetOf_start_le : ExtentModel.offsetOf model window.start ≤ top
  /-- Up to whole tracks at the end, `lookahead` at most, every other track starts in view. -/
  tight : ∃ core, window.start < core ∧ core ≤ window.stop ∧
    (∀ i < core, ∀ j, core ≤ j → j < window.stop →
      ExtentModel.trackIndex model i ≠ ExtentModel.trackIndex model j) ∧
    ((Finset.Ico core window.stop).image (ExtentModel.trackIndex model)).card ≤ lookahead ∧
    ∀ i, window.start ≤ i → i < core →
      ExtentModel.trackIndex model i ≠ ExtentModel.trackIndex model window.start →
      top < ExtentModel.offsetOf model i ∧
        ExtentModel.offsetOf model i < min bottom (ExtentModel.totalExtent model)
  before_eq : window.before = ExtentModel.offsetOf model window.start
  content_eq : window.content = ExtentModel.totalExtent model
  /-- What lies before, in and behind the window adds up to the content. -/
  sum_eq : window.before +
      (ExtentModel.offsetOf model window.stop - ExtentModel.offsetOf model window.start) +
      window.after = window.content
  after_nonneg : 0 ≤ window.after

namespace ExtentModel

variable {M : Type} [ExtentModel M Rat] {model : M}

theorem LaidOut.visibleWindow_fits (h : LaidOut model) (hlen : 0 < len model)
    (offset extent : Rat) (lookahead : Nat) :
    (visibleWindow model offset extent lookahead).Fits model (max 0 offset)
      (max 0 offset + max 0 extent) lookahead := by
  have hcontent := h.totalExtent_nonneg
  have hcomplete : ∀ index < len model, ∃ own, extentOf model index = .ok own ∧
      (max (offsetOf model index) (max 0 offset) <
          min (offsetOf model index + own) (max 0 offset + max 0 extent) →
        (visibleWindow model offset extent lookahead).contains index = true) := by
    intro index hindex
    obtain ⟨own, hown, -⟩ := h.extentOf_ok index hindex
    exact ⟨own, hown, h.ordered.contains_visibleWindow lookahead hindex hown⟩
  revert hcomplete
  rw [visibleWindow]
  simp only [Nat.ne_of_gt hlen, if_false, Scalar.nonNegative_eq, Scalar.min_eq, Scalar.max_eq,
    Scalar.zero_eq, max_eq_right hcontent]
  intro hcomplete
  have hlt : windowStart model (len model) (max 0 offset) < len model := windowStart_lt model _ hlen
  obtain ⟨hle, hpassed⟩ := h.windowStart_spec hlen (le_max_left 0 offset)
  obtain ⟨core, hcore, hcorestop, hwhole, hfew, hwithin⟩ := h.windowStop_spec hlt
    (min (max 0 offset + max 0 extent) (totalExtent model)) lookahead
  have hstop : windowStop model (len model) (min (max 0 offset + max 0 extent) (totalExtent model))
      lookahead (windowStart model (len model) (max 0 offset)) ≤ len model := windowStop_le hlt
  generalize windowStart model (len model) (max 0 offset) = start at *
  generalize windowStop model (len model)
    (min (max 0 offset + max 0 extent) (totalExtent model)) lookahead start = stop at *
  refine ⟨hcomplete, hle, ⟨core, hcore, hcorestop, hwhole, hfew, ?tight⟩, rfl,
    rfl, ?sum, ?after⟩
  case tight =>
    intro i hi hicore hne
    have hlimit := hwithin i hi hicore hne
    have htrack := lt_of_le_of_ne (h.trackIndex_mono hi) hne.symm
    refine ⟨(hpassed i (by omega) htrack).resolve_right fun hpast ↦ ?_, hlimit⟩
    exact absurd (lt_min_iff.mp hlimit).2 (not_lt.mpr hpast)
  case sum =>
    dsimp only
    split
    · next hmore =>
      rw [max_eq_left (sub_nonneg.mpr (h.offsetOf_le_totalExtent hmore))]
      linarith
    · next hall =>
      rw [h.offsetOf_past stop (Nat.le_of_not_lt hall)]
      linarith
  case after =>
    dsimp only
    split
    · exact le_max_right _ _
    · exact le_rfl

/-- The visible window of every strip with items, and of every grid with items, fits what the
viewport shows. -/
theorem visibleWindow_fits_of_built (offset extent : Rat) (lookahead : Nat) :
    (∀ strip : Strip Rat, strip.Built → 0 < strip.len →
      (visibleWindow strip offset extent lookahead).Fits strip (max 0 offset)
        (max 0 offset + max 0 extent) lookahead) ∧
    ∀ grid : Grid (Strip Rat) Rat, grid.Built → 0 < grid.len →
      (visibleWindow grid offset extent lookahead).Fits grid (max 0 offset)
        (max 0 offset + max 0 extent) lookahead :=
  ⟨fun _ hbuilt hlen ↦ hbuilt.laid.laidOut.visibleWindow_fits hlen offset extent lookahead,
    fun _ hbuilt hlen ↦ hbuilt.laid.laidOut.visibleWindow_fits hlen offset extent lookahead⟩

/-- What a viewport of extent twenty shows at the offset sixty: of a strip of three items, the first
of which has the extent fifty, and of a grid of five items in two lanes over it. -/
theorem visibleWindow_fits_of_built_sixty :
    let built : Strip Rat :=
      { len := 3, uniform := 10, spacing := 0, overrides := ∅, starts := .unset }
    let strip := (Step.runAll Strip.Call.perform [.edit (.setItemExtent 0 50)] built).2
    let wrapped := (Grid.ofTracks strip 10 5).withLaneSpacing 2
    let grid := (Step.runAll Grid.Call.perform [.edit (.fitCrossExtent 25)] wrapped).2
    grid.lanes = 2 ∧
      (strip.Built ∧ 0 < strip.len ∧ (visibleWindow strip 60 20 0).Fits strip 60 80 0) ∧
      grid.Built ∧ 0 < grid.len ∧ (visibleWindow grid 60 20 0).Fits grid 60 80 0 := by
  intro built strip wrapped grid
  have hstrip : strip.Built := ⟨3, 10, built, _, rfl, rfl⟩
  have hgrid : grid.Built := ⟨strip, 10, 2, 5, _, hstrip, by simp, rfl⟩
  have hstriplen : 0 < strip.len := by decide +kernel
  have hlanes : grid.lanes = 2 := by decide +kernel
  have hgridlen : 0 < grid.len := by decide +kernel
  have hfits := visibleWindow_fits_of_built 60 20 0
  have htop : max 0 (60 : Rat) = 60 := by norm_num
  have hbottom : (60 : Rat) + max 0 20 = 80 := by norm_num
  rw [htop, hbottom] at hfits
  exact ⟨hlanes, ⟨hstrip, hstriplen, hfits.1 strip hstrip hstriplen⟩, hgrid, hgridlen,
    hfits.2 grid hgrid hgridlen⟩

end ExtentModel

end Windowing
