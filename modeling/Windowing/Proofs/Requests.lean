import Windowing.Proofs.Extent.Upheld
import Windowing.Proofs.Extent.Window
import Windowing.Proofs.Scrolling

/-!
# Scroll requests made twice

A scroll request says where a viewport is to go, whatever it shows now; only bringing an item to the
nearest edge depends on where the viewport is. So a request that is made again finds the viewport
where it wants it, with one exception. An item that is longer than the viewport has its start before
the leading edge or its end behind the trailing edge at any offset, and bringing it to the nearest
edge goes to and fro between the two.

## Main definitions

* `nearestOffset` — the nearest offset at which a viewport shows an item.
* `Viewport.Alike` — two viewports that differ in where they are at most.
* `ScrollRequest.Overlong` — the request is to show an item that is longer than the viewport.

## Main results

* `ScrollRequest.exists_goal` — where a request takes a viewport, and that it takes it there once,
  unless it is overlong.
-/

namespace Windowing

/-! ### The nearest offset that shows an item -/

/-- The offset nearest to the given one at which a viewport shows what spans `start` to `stop`: its
start, if that is before the leading edge, or else its end, if that is behind the trailing edge. -/
def nearestOffset (start stop extent offset : Rat) : Rat :=
  if start < offset then start else if offset + extent < stop then stop - extent else offset

section Nearest

variable {start stop extent total offset limit : Rat}

/-- What was clamped into a range stays there. -/
theorem clamped_clamped (goal : Rat) (hlimit : 0 ≤ limit) :
    min (max 0 (min (max 0 goal) limit)) limit = min (max 0 goal) limit := by
  rw [max_eq_right (le_min (le_max_left 0 goal) hlimit), min_eq_left (min_le_right _ _)]

/-- A viewport that shows an item in full is not moved, and no other is left where it is. -/
theorem nearestOffset_eq_self_iff :
    nearestOffset start stop extent offset = offset ↔ offset ≤ start ∧ stop ≤ offset + extent := by
  rw [nearestOffset]
  constructor
  · intro heq
    split_ifs at heq with hbefore hbehind <;> constructor <;> linarith
  · rintro ⟨hstart, hstop⟩
    rw [if_neg (not_lt.mpr hstart), if_neg (not_lt.mpr hstop)]

/-- An item that is not longer than the viewport is shown at the nearest offset. -/
theorem nearestOffset_shows (offset : Rat) (hfits : stop - start ≤ extent) :
    nearestOffset start stop extent offset ≤ start ∧
      stop ≤ nearestOffset start stop extent offset + extent := by
  rw [nearestOffset]
  split_ifs with hbefore hbehind <;> constructor <;> linarith

/-- It is shown there also after that was clamped into the scrollable range. -/
theorem nearestOffset_clamped (hstart : 0 ≤ start) (hstop : stop ≤ total)
    (hfits : stop - start ≤ extent) :
    let rest := min (max 0 (nearestOffset start stop extent offset)) (max (total - extent) 0)
    nearestOffset start stop extent rest = rest := by
  intro rest
  have hend : stop ≤ max (total - extent) 0 + extent := by
    have hlimit := le_max_left (total - extent) 0
    linarith
  obtain ⟨hbefore, hbehind⟩ := nearestOffset_shows offset hfits
  refine nearestOffset_eq_self_iff.mpr ⟨?_, ?_⟩
  · exact (min_le_left _ _).trans (max_le hstart hbefore)
  · have hreach : stop - extent ≤ rest := by
      refine le_min ?_ (by linarith)
      exact (sub_le_iff_le_add.mpr hbehind).trans (le_max_right _ _)
    linarith

/-- An item that is longer than the viewport is brought to the leading edge from behind, and to the
trailing edge otherwise. Both offsets are in the scrollable range, and from one of them the nearest
offset is the other. -/
theorem nearestOffset_clamped_ne (hstart : 0 ≤ start) (hstop : stop ≤ total)
    (hlong : extent < stop - start) :
    let rest := min (max 0 (nearestOffset start stop extent offset)) (max (total - extent) 0)
    min (max 0 (nearestOffset start stop extent rest)) (max (total - extent) 0) ≠ rest := by
  intro rest
  have hlimit : max (total - extent) 0 = total - extent := max_eq_left (by linarith)
  have hinside {goal : Rat} (hnonneg : 0 ≤ goal) (hle : goal ≤ total - extent) :
      min (max 0 goal) (max (total - extent) 0) = goal := by
    rw [hlimit, max_eq_right hnonneg, min_eq_left hle]
  have hatStart : min (max 0 start) (max (total - extent) 0) = start :=
    hinside hstart (by linarith)
  have hatStop : min (max 0 (stop - extent)) (max (total - extent) 0) = stop - extent :=
    hinside (by linarith) (by linarith)
  have hfromStart : nearestOffset start stop extent start = stop - extent := by
    rw [nearestOffset, if_neg (lt_irrefl start), if_pos (by linarith)]
  have hfromStop : nearestOffset start stop extent (stop - extent) = start := by
    rw [nearestOffset, if_pos (by linarith)]
  by_cases hbehind : start < offset
  · have hrest : rest = start := by
      simp only [rest, nearestOffset, if_pos hbehind, hatStart]
    rw [hrest, hfromStart, hatStop]
    exact fun heq ↦ by linarith
  · have hrest : rest = stop - extent := by
      have hpast : offset + extent < stop := by linarith
      simp only [rest, nearestOffset, if_neg hbehind, if_pos hpast, hatStop]
    rw [hrest, hfromStop, hatStart]
    exact fun heq ↦ by linarith

end Nearest

variable {M : Type} [ExtentModel M Rat] {viewport again : Viewport M Rat}

namespace Viewport

/-- The two viewports are of one extent and show the same items in the same places. -/
structure Alike (viewport again : Viewport M Rat) : Prop where
  model : ExtentModel.Alike viewport.model again.model
  extent_eq : again.extent = viewport.extent

theorem Alike.refl (viewport : Viewport M Rat) : viewport.Alike viewport :=
  ⟨.refl _, rfl⟩

theorem Alike.trans {last : Viewport M Rat} (h : viewport.Alike again) (h' : again.Alike last) :
    viewport.Alike last :=
  ⟨h.model.trans h'.model, h'.extent_eq.trans h.extent_eq⟩

theorem Alike.maxOffset_eq (h : viewport.Alike again) : again.maxOffset = viewport.maxOffset := by
  rw [Viewport.maxOffset_eq, Viewport.maxOffset_eq, h.model.totalExtent_eq, h.extent_eq]

/-- Scrolling shows other parts of the same items. -/
theorem scrollTo_alike (target : Rat) (viewport : Viewport M Rat) :
    viewport.Alike (viewport.scrollTo target).1 := by
  rw [scrollTo]
  split
  · exact .refl viewport
  · exact ⟨.refl viewport.model, rfl⟩

omit [ExtentModel M Rat] in
theorem alignedOffset_nearest (viewport : Viewport M Rat) (start stop : Rat) :
    viewport.alignedOffset start stop .nearest =
      nearestOffset start stop viewport.extent viewport.offset := by
  simp [alignedOffset, trailingEdge, nearestOffset]

/-- The item that is brought for an index; past the end, the last one. -/
def broughtItem (viewport : Viewport M Rat) (index : Nat) : Nat :=
  Nat.min index (ExtentModel.len viewport.model - 1)

theorem broughtItem_lt (hlen : 0 < ExtentModel.len viewport.model) (index : Nat) :
    viewport.broughtItem index < ExtentModel.len viewport.model :=
  Nat.lt_of_le_of_lt (Nat.min_le_right _ _) (Nat.sub_one_lt_of_lt hlen)

theorem Alike.broughtItem_eq (h : viewport.Alike again) (index : Nat) :
    again.broughtItem index = viewport.broughtItem index := by
  rw [broughtItem, h.model.len_eq, broughtItem]

/-- Bringing an item scrolls to where it is aligned as asked. -/
theorem bring_eq (viewport : Viewport M Rat) {index : Nat} (align : ScrollAlign) {extent : Rat}
    (hlen : 0 < ExtentModel.len viewport.model)
    (hextent : ExtentModel.extentOf viewport.model (viewport.broughtItem index) = .ok extent) :
    let start := ExtentModel.offsetOf viewport.model (viewport.broughtItem index)
    viewport.bring index align =
      .ok (viewport.scrollTo (viewport.alignedOffset start (start + extent) align)) := by
  have hspan : viewport.spanOf? (Nat.min index (ExtentModel.len viewport.model - 1)) =
      .ok (some (ExtentModel.offsetOf viewport.model (viewport.broughtItem index),
        ExtentModel.offsetOf viewport.model (viewport.broughtItem index) + extent)) := by
    change viewport.spanOf? (viewport.broughtItem index) = _
    rw [spanOf?, if_pos (broughtItem_lt hlen index), hextent]
    rfl
  rw [bring]
  simp only [if_neg (Nat.ne_of_gt hlen), hspan]
  rfl

/-- Only an item that has an extent is brought. -/
theorem extentOf_of_bring {index : Nat} {align : ScrollAlign} {moved : Viewport M Rat × Bool}
    (hlen : 0 < ExtentModel.len viewport.model) (h : viewport.bring index align = .ok moved) :
    ∃ extent, ExtentModel.extentOf viewport.model (viewport.broughtItem index) = .ok extent := by
  cases hextent : ExtentModel.extentOf viewport.model (viewport.broughtItem index) with
  | ok extent => exact ⟨extent, rfl⟩
  | error fault =>
    have hspan : viewport.spanOf? (Nat.min index (ExtentModel.len viewport.model - 1)) =
        .error fault := by
      change viewport.spanOf? (viewport.broughtItem index) = _
      rw [spanOf?, if_pos (broughtItem_lt hlen index), hextent]
      rfl
    rw [bring] at h
    simp only [if_neg (Nat.ne_of_gt hlen), hspan] at h
    cases h

end Viewport

namespace ScrollRequest

/-- The request is to bring an item to the nearest edge, and the item is longer than the viewport.
For an index past the end this is the last item. -/
def Overlong (viewport : Viewport M Rat) (request : ScrollRequest Rat) : Prop :=
  ∃ index, request = .item index .nearest ∧ 0 < ExtentModel.len viewport.model ∧
    ∃ extent, ExtentModel.extentOf viewport.model (viewport.broughtItem index) = .ok extent ∧
      viewport.extent < extent

section Item

variable {index : Nat} {align : ScrollAlign} {extent : Rat}

theorem overlong_item_iff (hlen : 0 < ExtentModel.len viewport.model)
    (hextent : ExtentModel.extentOf viewport.model (viewport.broughtItem index) = .ok extent) :
    (item index align).Overlong viewport ↔ align = .nearest ∧ viewport.extent < extent := by
  constructor
  · rintro ⟨_, heq, -, own, hown, hlong⟩
    obtain ⟨rfl, hnearest⟩ : index = _ ∧ align = .nearest := by simpa using heq
    rw [Except.ok.inj (hown.symm.trans hextent)] at hlong
    exact ⟨hnearest, hlong⟩
  · rintro ⟨rfl, hlong⟩
    exact ⟨index, rfl, hlen, extent, hextent, hlong⟩

/-- A request to bring an item takes every viewport over the same items to where the item is aligned
as asked. -/
theorem apply_item (halike : viewport.Alike again) (hlen : 0 < ExtentModel.len viewport.model)
    (hextent : ExtentModel.extentOf viewport.model (viewport.broughtItem index) = .ok extent) :
    let start := ExtentModel.offsetOf viewport.model (viewport.broughtItem index)
    (item index align).apply again =
      .ok (again.scrollTo (again.alignedOffset start (start + extent) align)) := by
  have hextent' : ExtentModel.extentOf again.model (again.broughtItem index) = .ok extent := by
    rw [halike.broughtItem_eq, halike.model.extentOf_eq, hextent]
  have hbring := Viewport.bring_eq again align (halike.model.len_eq ▸ hlen) hextent'
  rwa [halike.broughtItem_eq, halike.model.offsetOf_eq] at hbring

end Item

/-- Where a request takes a viewport depends on the offset at most. Going there twice is going there
once, unless the request is overlong. -/
theorem exists_goal (h : ExtentModel.LaidOut viewport.model) (request : ScrollRequest Rat) :
    ∃ goal : Rat → Rat,
      (∀ again, viewport.Alike again →
        request.apply again = .ok (again.scrollTo (goal again.offset))) ∧
      ∀ offset, let rest := min (max 0 (goal offset)) viewport.maxOffset
        min (max 0 (goal rest)) viewport.maxOffset = rest ↔ ¬request.Overlong viewport := by
  cases request with
  | offset target =>
    refine ⟨fun _ ↦ target, fun _ _ ↦ rfl, fun _ ↦ iff_of_true rfl ?_⟩
    rintro ⟨_, heq, -⟩
    cases heq
  | stop =>
    refine ⟨fun _ ↦ viewport.maxOffset, fun again halike ↦ ?_, fun _ ↦ iff_of_true rfl ?_⟩
    · rw [← halike.maxOffset_eq]
      rfl
    · rintro ⟨_, heq, -⟩
      cases heq
  | item index align =>
    by_cases hlen : 0 < ExtentModel.len viewport.model
    case neg =>
      refine ⟨fun _ ↦ 0, fun again halike ↦ ?_, fun _ ↦ iff_of_true rfl ?_⟩
      · have hnone : ExtentModel.len again.model = 0 :=
          halike.model.len_eq.trans (Nat.eq_zero_of_not_pos hlen)
        rw [apply, Viewport.bring, if_pos hnone]
        rfl
      · rintro ⟨_, -, hpos, -⟩
        exact hlen hpos
    case pos =>
      have hshown := Viewport.broughtItem_lt hlen index
      let start := ExtentModel.offsetOf viewport.model (viewport.broughtItem index)
      obtain ⟨extent, hextent, -, -, htotal⟩ := h.extentOf_ok _ hshown
      have hstart : 0 ≤ start := h.offsetOf_zero ▸ h.offsetOf_mono (Nat.zero_le _) hshown
      rw [overlong_item_iff hlen hextent]
      cases align with
      | start =>
        exact ⟨fun _ ↦ start, fun again halike ↦ apply_item halike hlen hextent,
          fun _ ↦ iff_of_true rfl fun hlong ↦ by cases hlong.1⟩
      | stop =>
        refine ⟨fun _ ↦ start + extent - viewport.extent, fun again halike ↦ ?_,
          fun _ ↦ iff_of_true rfl fun hlong ↦ by cases hlong.1⟩
        rw [apply_item halike hlen hextent, Viewport.alignedOffset, halike.extent_eq]
      | center =>
        refine ⟨fun _ ↦ (start + (start + extent) - viewport.extent) / 2, fun again halike ↦ ?_,
          fun _ ↦ iff_of_true rfl fun hlong ↦ by cases hlong.1⟩
        rw [apply_item halike hlen hextent, Viewport.alignedOffset, halike.extent_eq]
        rfl
      | nearest =>
        refine ⟨nearestOffset start (start + extent) viewport.extent, fun again halike ↦ ?_,
          fun offset ↦ ?_⟩
        · rw [apply_item halike hlen hextent, Viewport.alignedOffset_nearest, halike.extent_eq]
        · have hspan : start + extent - start = extent := add_sub_cancel_left start extent
          rw [Viewport.maxOffset_eq]
          by_cases hlong : viewport.extent < extent
          · exact iff_of_false (nearestOffset_clamped_ne hstart htotal (hspan.symm ▸ hlong))
              (not_not.mpr ⟨rfl, hlong⟩)
          · refine iff_of_true ?_ (hlong ∘ And.right)
            rw [nearestOffset_clamped hstart htotal (hspan.symm ▸ not_lt.mp hlong)]
            exact clamped_clamped _ (le_max_right _ _)

end ScrollRequest

end Windowing
