import Windowing.Proofs.Extent.Window
import Windowing.Proofs.Requests
import Windowing.Proofs.Viewports

/-!
# Items that a viewport was asked to show

A viewport that brings an item to the nearest edge, is pulled back into its range and is then asked
for its window shows the item: in full if the viewport is long enough, and in the window if there is
something of both to see. Where the viewport was before does not matter, nor which items the model
has lost, as long as it has this one.

## Main definitions

* `ExtentModel.KeepsOrder` — a property of models that a collection keeps, and that orders the
  items.
* `Viewport.Shows` — the viewport shows an item.

## Main results

* `Strip.keepsOrder_laid`, `Grid.keepsOrder_tracks` — such properties of strips and grids.
* `Viewport.shows_window` — a viewport that was asked to show an item shows it.
-/

namespace Windowing

/-! ### Models with their items in order -/

/-- A collection keeps the property. With it the items of the model lie in order, and stay in their
places when the model stores what it worked out. -/
structure ExtentModel.KeepsOrder {M : Type} [ExtentModel M Rat] [ResizableModel M Rat]
    [CrossPlacement M Rat] (holds : M → Prop) : Prop extends ExtentModel.Upheld holds where
  ordered : ∀ {model : M}, holds model → ExtentModel.Ordered model
  alike_settleAll : ∀ {model : M}, holds model →
    ExtentModel.Alike model (ExtentModel.settleAll model)

/-- A stronger property that a collection keeps is good for the same. -/
theorem ExtentModel.KeepsOrder.of_imp {M : Type} [ExtentModel M Rat] [ResizableModel M Rat]
    [CrossPlacement M Rat] {holds stronger : M → Prop} (h : ExtentModel.KeepsOrder holds)
    (hupheld : ExtentModel.Upheld stronger) (himp : ∀ {model}, stronger model → holds model) :
    ExtentModel.KeepsOrder stronger where
  toUpheld := hupheld
  ordered hmodel := h.ordered (himp hmodel)
  alike_settleAll hmodel := h.alike_settleAll (himp hmodel)

theorem Strip.keepsOrder_laid : ExtentModel.KeepsOrder (Laid : Strip Rat → Prop) where
  toUpheld := upheld_laid
  ordered h := h.laidOut.ordered
  alike_settleAll h := h.alike_settleAll

namespace Grid

variable {grid : Grid (Strip Rat) Rat}

/-- An item that has an extent has that of its track. -/
theorem extentOf_eq_ok {index : Nat} {extent : Rat} (hindex : index < grid.len)
    (h : grid.extentOf index = .ok extent) :
    grid.trackOf index < ExtentModel.len grid.tracks ∧
      ExtentModel.extentOf grid.tracks (grid.trackOf index) = .ok extent := by
  have hitem : Nat.min index (grid.len - 1) = index := Nat.min_eq_left (Nat.le_sub_one_of_lt hindex)
  have hlen : grid.len ≠ 0 := Nat.ne_of_gt (Nat.zero_lt_of_lt hindex)
  simp only [extentOf, if_neg hlen, hitem] at h
  split at h
  · next htrack => exact ⟨htrack, h⟩
  · cases h

/-- The items of a grid whose tracks are laid out lie in order, also if there are too few tracks for
them or too many. -/
theorem ordered_of_tracks (h : ExtentModel.LaidOut grid.tracks) : ExtentModel.Ordered grid where
  trackIndex_mono i j hij := Nat.div_le_div_right hij
  offsetOf_zero := by
    change grid.offsetOf 0 = 0
    by_cases hlen : 0 < grid.len
    · rw [offsetOf_of_lt hlen, trackOf, Nat.zero_div]
      exact h.offsetOf_zero
    · exact if_pos (Nat.eq_zero_of_not_pos hlen)
  offsetOf_mono i j hij hj := by
    change grid.offsetOf i ≤ grid.offsetOf j
    rw [offsetOf_of_lt (Nat.lt_of_le_of_lt hij hj), offsetOf_of_lt hj]
    exact h.monotone_offsetOf (Nat.div_le_div_right hij)
  ends i hi extent hextent := by
    change grid.extentOf i = .ok extent at hextent
    obtain ⟨htrack, hextent⟩ := extentOf_eq_ok hi hextent
    obtain ⟨own, hown, -, hends, htotal⟩ := h.extentOf_ok _ htrack
    obtain rfl := Except.ok.inj (hown.symm.trans hextent)
    change (∀ j < grid.len, grid.trackOf i < grid.trackOf j →
      grid.offsetOf i + own ≤ grid.offsetOf j) ∧
      grid.offsetOf i + own ≤ ExtentModel.totalExtent grid.tracks
    rw [offsetOf_of_lt hi]
    refine ⟨fun j hj hij ↦ ?_, htotal⟩
    rw [offsetOf_of_lt hj]
    rcases Nat.lt_or_ge (grid.trackOf j) (ExtentModel.len grid.tracks) with hthere | hlost
    · exact hends _ hthere hij
    · exact htotal.trans (h.offsetOf_past _ hlost).ge

theorem keepsOrder_tracks :
    ExtentModel.KeepsOrder fun grid : Grid (Strip Rat) Rat ↦ grid.tracks.Laid where
  toUpheld := upheld_tracks fun call _ h ↦ h.perform call
  ordered h := ordered_of_tracks h.laidOut
  alike_settleAll h := alike_withTracks h.alike_settleAll

end Grid

/-! ### Bringing an item to the nearest edge -/

section Clamped

variable {start extent viewportExtent total goal : Rat}

/-- If a part of the item is in view at an offset, then also once the offset was clamped into the
range. -/
theorem clamped_overlaps (hstart : 0 ≤ start) (hstop : start + extent ≤ total)
    (hextent : 0 < extent) (hviewport : 0 < viewportExtent) (hbehind : goal < start + extent)
    (hbefore : start < goal + viewportExtent) :
    let rest := min (max 0 goal) (max (total - viewportExtent) 0)
    max start rest < min (start + extent) (rest + viewportExtent) := by
  intro rest
  have hrest : rest < start + extent :=
    (min_le_left _ _).trans_lt (max_lt (by linarith) hbehind)
  have hlimit : start < max (total - viewportExtent) 0 + viewportExtent := by
    have hle := le_max_left (total - viewportExtent) 0
    linarith
  have hreach : start < rest + viewportExtent := by
    refine sub_lt_iff_lt_add.mp (lt_min ?_ (by linarith))
    exact (sub_lt_iff_lt_add.mpr hbefore).trans_le (le_max_right _ _)
  exact max_lt (lt_min (by linarith) hreach) (lt_min hrest (by linarith))

/-- At the nearest offset a part of the item is in view, if there is something of the item and of
the viewport. -/
theorem nearestOffset_overlaps (start offset : Rat) (hextent : 0 < extent)
    (hviewport : 0 < viewportExtent) :
    nearestOffset start (start + extent) viewportExtent offset < start + extent ∧
      start < nearestOffset start (start + extent) viewportExtent offset + viewportExtent := by
  rw [nearestOffset]
  split_ifs with hbefore hbehind <;> constructor <;> linarith

end Clamped

/-! ### Viewports that show an item -/

namespace Viewport

variable {M : Type} [ExtentModel M Rat] {viewport : Viewport M Rat} {index : Nat} {extent : Rat}

/-- The viewport shows an item in full if it is long enough, and its window has the item if both
have an extent. -/
def Shows (viewport : Viewport M Rat) (window : IndexRange) (index : Nat) : Prop :=
  ∃ extent, ExtentModel.extentOf viewport.model index = .ok extent ∧
    (extent ≤ viewport.extent → viewport.isFullyVisible index = .ok true) ∧
    (0 < extent → 0 < viewport.extent → window.contains index = true)

theorem isFullyVisible_eq (hindex : index < ExtentModel.len viewport.model)
    (hextent : ExtentModel.extentOf viewport.model index = .ok extent) :
    viewport.isFullyVisible index =
      .ok (decide (viewport.offset ≤ ExtentModel.offsetOf viewport.model index ∧
        ExtentModel.offsetOf viewport.model index + extent ≤
          viewport.offset + viewport.extent)) := by
  have hspan : viewport.spanOf? index = .ok (some (ExtentModel.offsetOf viewport.model index,
      ExtentModel.offsetOf viewport.model index + extent)) := by
    rw [spanOf?, if_pos hindex, hextent]
    rfl
  rw [isFullyVisible, hspan, Bool.decide_and]
  simp only [Scalar.ge_eq, Scalar.le_eq, trailingEdge]
  rfl

/-- A viewport over items in order shows an item if it is where bringing the item to the nearest
edge takes it. -/
theorem shows_of_offset (hordered : ExtentModel.Ordered viewport.model)
    (hindex : index < ExtentModel.len viewport.model)
    (hextent : ExtentModel.extentOf viewport.model index = .ok extent) (before : Rat)
    (hoffset : viewport.offset = min (max 0 (nearestOffset
      (ExtentModel.offsetOf viewport.model index)
      (ExtentModel.offsetOf viewport.model index + extent) viewport.extent before))
        viewport.maxOffset) :
    viewport.Shows viewport.freshWindow.toIndexRange index := by
  have hstart := hordered.offsetOf_nonneg hindex
  have hstop := (hordered.ends index hindex extent hextent).2
  rw [maxOffset_eq] at hoffset
  refine ⟨extent, hextent, fun hfits ↦ ?_, fun hpos hviewport ↦ ?_⟩
  · have hspan : ExtentModel.offsetOf viewport.model index + extent -
        ExtentModel.offsetOf viewport.model index ≤ viewport.extent := by
      rwa [add_sub_cancel_left]
    have hrest := @nearestOffset_clamped _ _ _ _ before hstart hstop hspan
    dsimp only at hrest
    rw [← hoffset] at hrest
    rw [isFullyVisible_eq hindex hextent,
      decide_eq_true (nearestOffset_eq_self_iff.mp hrest)]
  · obtain ⟨hbehind, hbefore⟩ := nearestOffset_overlaps _ before hpos hviewport
    have hoverlaps := clamped_overlaps hstart hstop hpos hviewport hbehind hbefore
    dsimp only at hoverlaps
    have hnonneg : 0 ≤ viewport.offset :=
      hoffset ▸ le_min (le_max_left 0 _) (le_max_right _ 0)
    rw [← hoffset] at hoverlaps
    refine hordered.contains_visibleWindow viewport.lookahead hindex hextent ?_
    rwa [max_eq_right hnonneg, max_eq_right hviewport.le]

theorem extent_window (viewport : Viewport M Rat) :
    viewport.window.2.extent = viewport.extent := by
  rw [window]
  split <;> rfl

/-- What a viewport shows does not depend on what its model has stored. -/
theorem window_alike (h : ExtentModel.Alike viewport.model (ExtentModel.settleAll viewport.model)) :
    viewport.Alike viewport.window.2 := by
  refine ⟨?_, extent_window viewport⟩
  rw [window]
  split
  · exact .refl _
  · exact h

theorem clamp_alike (viewport : Viewport M Rat) : viewport.Alike viewport.clamp.1 :=
  ⟨(clamp_steady viewport).model_eq ▸ .refl _, extent_clamp viewport⟩

/-- A pass does not resize the viewport. -/
theorem passKeeps_extent [ResizableModel M Rat] (extent : Rat) :
    PassKeeps fun viewport : Viewport M Rat ↦ viewport.extent = extent where
  scrollTo {viewport} offset h := (scrollTo_alike offset viewport).extent_eq.trans h
  clamp {viewport} h := (extent_clamp viewport).trans h
  window {viewport} h := (extent_window viewport).trans h
  setLen _ h := (extent_clamp _).trans h

/-- A strip has every item, so a viewport over it scrolls as requested. -/
theorem exists_apply_eq_ok {S : Type} [Scalar S] (request : ScrollRequest S)
    (viewport : Viewport (Strip S) S) :
    ∃ moved, request.apply viewport = .ok moved :=
  request.apply_answers fun _ _ ↦ ⟨_, rfl⟩

variable [ResizableModel M Rat] [CrossPlacement M Rat] {holds : M → Prop}

/-- A viewport that brought an item to the nearest edge and was pulled back shows the item, or the
last one past the end, when it is asked for its window. -/
theorem shows_window (hkeeps : ExtentModel.KeepsOrder holds)
    (h : viewport.Fresh ∧ holds viewport.model) (hlen : 0 < ExtentModel.len viewport.model)
    {moved : Viewport M Rat × Bool}
    (hmoved : (ScrollRequest.item index .nearest).apply viewport = .ok moved) :
    let asked := moved.1.clamp.1.window
    asked.2.Shows asked.1.toIndexRange (viewport.broughtItem index) := by
  intro asked
  have hupheld := upheld_fresh.and hkeeps.toUpheld.viewport
  have hclamped := hupheld.clamp (hupheld.apply h hmoved)
  have hasked := hupheld.window hclamped
  obtain ⟨extent, hextent⟩ := extentOf_of_bring hlen hmoved
  have hbring := bring_eq viewport .nearest hlen hextent
  obtain rfl := Except.ok.inj (hbring.symm.trans hmoved)
  have halike : viewport.Alike asked.2 :=
    ((scrollTo_alike _ viewport).trans (clamp_alike _)).trans
      (window_alike (hkeeps.alike_settleAll hclamped.2))
  rw [hclamped.1.window_eq]
  have hindex : viewport.broughtItem index < ExtentModel.len asked.2.model :=
    halike.model.len_eq.symm ▸ broughtItem_lt hlen index
  refine shows_of_offset (hkeeps.ordered hasked.2) hindex
    ((halike.model.extentOf_eq _).trans hextent) viewport.offset ?_
  rw [halike.model.offsetOf_eq, halike.extent_eq, halike.maxOffset_eq, offset_window, offset_clamp,
    (scrollTo_alike _ viewport).maxOffset_eq, offset_scrollTo, alignedOffset_nearest,
    min_eq_left (min_le_right _ _)]

end Viewport

end Windowing
