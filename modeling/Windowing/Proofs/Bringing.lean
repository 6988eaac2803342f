import Mathlib.Order.Interval.Set.Defs
import Windowing.Proofs.ScrollRange
import Windowing.Proofs.Showing

/-!
# Where an item is brought

Over exact numbers a viewport that reveals an item moves no further than it has to: not at all if it
shows the item in full, and otherwise to the closest offset of its range at which it does. An item
that is aligned in another way is brought as close as the range lets it to where its edge or its
midpoint meets that of the viewport. However the item is aligned, a part of it ends up in view, also
of an item that is longer than the viewport, and so the window has the item.

## Main definitions

* `IsClosest` — one of some offsets is closer to a goal than all others.
* `Viewport.showing` — the offsets at which a viewport shows an item in full.
* `Viewport.Reveals`, `Viewport.Brings` — what revealing and bringing an item do.

## Main results

* `Viewport.reveal_moves_least` — revealing an item moves the viewport no further than needed.
* `Viewport.bring_aligns_in_window` — bringing an item aligns it and has it in the window.
-/

namespace Windowing

/-! ### The closest offset -/

/-- The offset is one of those given, and all others are further from the goal. -/
def IsClosest (offsets : Set Rat) (goal offset : Rat) : Prop :=
  offset ∈ offsets ∧ ∀ other ∈ offsets, other ≠ offset → |offset - goal| < |other - goal|

section Closest

variable {start stop extent total offset limit : Rat}

/-- Clamping into a range finds the closest offset of the range. -/
theorem isClosest_clamped (goal : Rat) (hlimit : 0 ≤ limit) :
    IsClosest (Set.Icc 0 limit) goal (min (max 0 goal) limit) := by
  refine ⟨⟨le_min (le_max_left 0 goal) hlimit, min_le_right _ _⟩, fun other hother hne ↦ ?_⟩
  obtain ⟨hnonneg, hle⟩ := hother
  rcases lt_or_ge goal 0 with hbefore | hafter
  · rw [max_eq_left hbefore.le, min_eq_left hlimit] at hne ⊢
    have hpos := lt_of_le_of_ne hnonneg hne.symm
    rw [abs_of_pos (by linarith), abs_of_pos (by linarith)]
    linarith
  · rw [max_eq_right hafter] at hne ⊢
    rcases lt_or_ge limit goal with hpast | hinside
    · rw [min_eq_right hpast.le] at hne ⊢
      have hlt := lt_of_le_of_ne hle hne
      rw [abs_of_neg (by linarith), abs_of_neg (by linarith)]
      linarith
    · rw [min_eq_left hinside] at hne ⊢
      rw [sub_self, abs_zero]
      exact abs_pos.mpr (sub_ne_zero.mpr hne)

/-- From an offset in the range the nearest offset is in the range, too. -/
theorem nearestOffset_mem_Icc (hstart : 0 ≤ start) (hstop : stop ≤ total)
    (hoffset : offset ∈ Set.Icc 0 (max (total - extent) 0)) :
    nearestOffset start stop extent offset ∈ Set.Icc 0 (max (total - extent) 0) := by
  obtain ⟨hnonneg, hle⟩ := hoffset
  have hlimit := le_max_left (total - extent) 0
  rw [nearestOffset]
  split_ifs with hbefore hbehind <;> constructor <;> linarith

/-- Of the offsets at which what spans `start` to `stop` shows in full, the nearest offset is the
closest one. -/
theorem isClosest_nearestOffset {offsets : Set Rat}
    (hoffsets : ∀ other ∈ offsets, other ≤ start ∧ stop ≤ other + extent)
    (hmem : nearestOffset start stop extent offset ∈ offsets) :
    IsClosest offsets offset (nearestOffset start stop extent offset) := by
  refine ⟨hmem, fun other hother hne ↦ ?_⟩
  obtain ⟨hstart, hstop⟩ := hoffsets other hother
  rw [nearestOffset] at hne ⊢
  split_ifs at hne ⊢ with hbefore hbehind
  · have hlt := lt_of_le_of_ne hstart hne
    rw [abs_of_neg (by linarith), abs_of_neg (by linarith)]
    linarith
  · have hlt := lt_of_le_of_ne (sub_le_iff_le_add.mpr hstop) hne.symm
    rw [abs_of_pos (by linarith), abs_of_pos (by linarith)]
    linarith
  · rw [sub_self, abs_zero]
    exact abs_pos.mpr (sub_ne_zero.mpr hne)

end Closest

namespace Viewport

variable {M : Type} [ExtentModel M Rat] {viewport : Viewport M Rat} {index : Nat} {extent : Rat}

/-! ### Revealing an item -/

/-- The offsets in the range of the viewport at which it shows the item in full. -/
def showing (viewport : Viewport M Rat) (index : Nat) : Set Rat :=
  {offset ∈ Set.Icc 0 viewport.maxOffset |
    ({ viewport with offset } : Viewport M Rat).isFullyVisible index = .ok true}

/-- The viewport shows the item in full after the move. It stays where it is if it showed the item
before; otherwise it says that it has moved, and is at the closest offset at which it shows it. -/
structure Reveals (viewport : Viewport M Rat) (index : Nat) (moved : Viewport M Rat × Bool) :
    Prop where
  alike : viewport.Alike moved.1
  visible : moved.1.isFullyVisible index = .ok true
  stays : viewport.isFullyVisible index = .ok true → moved = (viewport, false)
  moves : viewport.isFullyVisible index ≠ .ok true → moved.2 = true ∧
    IsClosest (viewport.showing index) viewport.offset moved.1.offset

/-- Revealing an item, or the last one past the end, moves the viewport no further than needed, if
it is long enough for the item. Doing it again does not move the viewport. -/
def RevealsLeast (viewport : Viewport M Rat) (index : Nat) : Prop :=
  ∃ extent, ExtentModel.extentOf viewport.model (viewport.broughtItem index) = .ok extent ∧
    (extent ≤ viewport.extent → ∃ moved, viewport.reveal index = .ok moved ∧
      viewport.Reveals (viewport.broughtItem index) moved ∧
      moved.1.reveal index = .ok (moved.1, false))

theorem isFullyVisible_iff (hindex : index < ExtentModel.len viewport.model)
    (hextent : ExtentModel.extentOf viewport.model index = .ok extent) :
    viewport.isFullyVisible index = .ok true ↔
      viewport.offset ≤ ExtentModel.offsetOf viewport.model index ∧
        ExtentModel.offsetOf viewport.model index + extent ≤
          viewport.offset + viewport.extent := by
  rw [isFullyVisible_eq hindex hextent, Except.ok.injEq, decide_eq_true_eq]

theorem reveal_eq (hlen : 0 < ExtentModel.len viewport.model)
    (hextent : ExtentModel.extentOf viewport.model (viewport.broughtItem index) = .ok extent) :
    let start := ExtentModel.offsetOf viewport.model (viewport.broughtItem index)
    viewport.reveal index = .ok (viewport.scrollTo
      (nearestOffset start (start + extent) viewport.extent viewport.offset)) := by
  intro start
  rw [reveal, bring_eq viewport .nearest hlen hextent, alignedOffset_nearest]

theorem scrollTo_eq_self {target : Rat}
    (h : min (max 0 target) viewport.maxOffset = viewport.offset) :
    viewport.scrollTo target = (viewport, false) := by
  simp only [scrollTo, Scalar.min_eq, Scalar.nonNegative_eq, Scalar.eq_eq]
  rw [if_pos (decide_eq_true h)]

theorem snd_scrollTo_of_ne {target : Rat}
    (h : min (max 0 target) viewport.maxOffset ≠ viewport.offset) :
    (viewport.scrollTo target).2 = true := by
  simp only [scrollTo, Scalar.min_eq, Scalar.nonNegative_eq, Scalar.eq_eq]
  rw [if_neg (by simpa using h)]

theorem mem_Icc_of_inRange (h : viewport.InRange) :
    viewport.offset ∈ Set.Icc 0 viewport.maxOffset := by
  rw [maxOffset_eq, max_comm]
  exact h

/-- A viewport in its range that shows the item in full is not moved. -/
theorem reveal_eq_self (hrange : viewport.InRange) (hlen : 0 < ExtentModel.len viewport.model)
    (hextent : ExtentModel.extentOf viewport.model (viewport.broughtItem index) = .ok extent)
    (hvisible : viewport.isFullyVisible (viewport.broughtItem index) = .ok true) :
    viewport.reveal index = .ok (viewport, false) := by
  have hshown := (isFullyVisible_iff (broughtItem_lt hlen index) hextent).mp hvisible
  obtain ⟨hnonneg, hle⟩ := mem_Icc_of_inRange hrange
  rw [reveal_eq hlen hextent, nearestOffset_eq_self_iff.mpr hshown]
  refine congrArg _ (scrollTo_eq_self ?_)
  rw [max_eq_right hnonneg, min_eq_left hle]

theorem mem_showing_iff (hindex : index < ExtentModel.len viewport.model)
    (hextent : ExtentModel.extentOf viewport.model index = .ok extent) (offset : Rat) :
    offset ∈ viewport.showing index ↔ offset ∈ Set.Icc 0 viewport.maxOffset ∧
      offset ≤ ExtentModel.offsetOf viewport.model index ∧
      ExtentModel.offsetOf viewport.model index + extent ≤ offset + viewport.extent := by
  have hvisible : ({ viewport with offset } : Viewport M Rat).isFullyVisible index = .ok true ↔
      offset ≤ ExtentModel.offsetOf viewport.model index ∧
      ExtentModel.offsetOf viewport.model index + extent ≤ offset + viewport.extent :=
    isFullyVisible_iff hindex hextent
  rw [showing, Set.mem_sep_iff, hvisible]

/-- What a viewport shows after it was scrolled depends on where it is only. -/
theorem isFullyVisible_scrollTo (target : Rat) (viewport : Viewport M Rat) (index : Nat) :
    (viewport.scrollTo target).1.isFullyVisible index =
      ({ viewport with offset := (viewport.scrollTo target).1.offset } :
        Viewport M Rat).isFullyVisible index := by
  rw [scrollTo]
  split <;> rfl

section Laid

variable (h : ExtentModel.LaidOut viewport.model) (hrange : viewport.InRange)

include h hrange

/-- Revealing an item goes to the closest offset at which the viewport shows it, which is where the
viewport is if it shows the item already. -/
theorem exists_reveal_eq (hlen : 0 < ExtentModel.len viewport.model)
    (hextent : ExtentModel.extentOf viewport.model (viewport.broughtItem index) = .ok extent)
    (hfits : extent ≤ viewport.extent) :
    ∃ goal, viewport.reveal index = .ok (viewport.scrollTo goal) ∧
      IsClosest (viewport.showing (viewport.broughtItem index)) viewport.offset goal ∧
      (goal = viewport.offset ↔
        viewport.isFullyVisible (viewport.broughtItem index) = .ok true) := by
  have hindex := broughtItem_lt hlen index
  have hshowing := mem_showing_iff hindex hextent
  refine ⟨_, reveal_eq hlen hextent, isClosest_nearestOffset (fun other hother ↦
    ((hshowing other).mp hother).2) ((hshowing _).mpr ⟨?_, ?_⟩), ?_⟩
  · have hoffset := mem_Icc_of_inRange hrange
    rw [maxOffset_eq] at hoffset ⊢
    exact nearestOffset_mem_Icc (h.ordered.offsetOf_nonneg hindex)
      (h.ordered.ends _ hindex extent hextent).2 hoffset
  · exact nearestOffset_shows viewport.offset ((add_sub_cancel_left _ extent).trans_le hfits)
  · exact nearestOffset_eq_self_iff.trans (isFullyVisible_iff hindex hextent).symm

/-- Over a model that lays out its items, revealing one moves a viewport that is in its range no
further than needed. -/
theorem revealsLeast (hlen : 0 < ExtentModel.len viewport.model) (index : Nat) :
    viewport.RevealsLeast index := by
  have hindex := broughtItem_lt hlen index
  obtain ⟨extent, hextent, -⟩ := h.extentOf_ok _ hindex
  refine ⟨extent, hextent, fun hfits ↦ ?_⟩
  obtain ⟨goal, hreveal, hclosest, hself⟩ := exists_reveal_eq h hrange hlen hextent hfits
  have halike := scrollTo_alike goal viewport
  have hclamped : min (max 0 goal) viewport.maxOffset = goal := by
    have hgoal := ((mem_showing_iff hindex hextent goal).mp hclosest.1).1
    rw [max_eq_right hgoal.1, min_eq_left hgoal.2]
  have hoffset : (viewport.scrollTo goal).1.offset = goal :=
    (offset_scrollTo goal viewport).trans hclamped
  have hvisible : (viewport.scrollTo goal).1.isFullyVisible (viewport.broughtItem index) =
      .ok true := by
    rw [isFullyVisible_scrollTo, hoffset]
    exact hclosest.1.2
  refine ⟨viewport.scrollTo goal, hreveal, ?reveals, ?again⟩
  case reveals =>
    refine ⟨halike, hvisible, fun hbefore ↦ ?_, fun hbefore ↦ ⟨?_, hoffset.symm ▸ hclosest⟩⟩
    · exact scrollTo_eq_self (hclamped.trans (hself.mpr hbefore))
    · exact snd_scrollTo_of_ne (hclamped.symm ▸ mt hself.mp hbefore)
  case again =>
    have hitem := halike.broughtItem_eq index
    rw [← hitem, ← halike.model.extentOf_eq] at hextent
    exact reveal_eq_self (inRange_scrollTo goal viewport) (halike.model.len_eq.symm ▸ hlen)
      hextent (hitem.symm ▸ hvisible)

end Laid

/-- Over every strip and every grid with items and with its tracks in step, revealing an item moves
a viewport that is in its range no further than needed. -/
theorem reveal_moves_least (index : Nat) :
    (∀ viewport : Viewport (Strip Rat) Rat, viewport.model.Built → 0 < viewport.model.len →
      viewport.InRange → viewport.RevealsLeast index) ∧
    ∀ viewport : Viewport (Grid (Strip Rat) Rat) Rat, viewport.model.Fitting Strip.Built →
      0 < viewport.model.len → viewport.InRange → viewport.RevealsLeast index := by
  refine ⟨fun viewport hbuilt hlen hrange ↦ ?_, fun viewport hfitting hlen hrange ↦ ?_⟩
  · exact revealsLeast hbuilt.laid.laidOut hrange hlen index
  · have hlaid : viewport.model.Laid := ⟨hfitting.tracks.laid, hfitting.len_eq⟩
    exact revealsLeast hlaid.laidOut hrange hlen index

/-- A viewport of extent 25 shows a strip from 50 on, and is asked for an item before that; another
one shows a grid of two lanes from 3 on, and is asked for an item past the end. -/
theorem reveal_moves_least_rehearsal :
    let built : Strip Rat :=
      { len := 6, uniform := 10, spacing := 0, overrides := ∅, starts := .unset }
    let strip :=
      (Step.runAll Strip.Call.perform [.setSpacing 2, .edit (.setItemExtent 1 22)] built).2
    let grid := (Step.runAll Grid.Call.perform [.edit (.fitCrossExtent 25)]
      ((Grid.ofTracks strip 10 9).withLaneSpacing 0)).2
    let shown : Viewport (Strip Rat) Rat :=
      { model := strip, offset := 50, extent := 25, lookahead := 0, kept := none }
    let wrapped : Viewport (Grid (Strip Rat) Rat) Rat :=
      { model := grid, offset := 3, extent := 25, lookahead := 0, kept := none }
    (strip.Built ∧ 0 < strip.len ∧ shown.InRange ∧
      ∃ moved, shown.reveal 1 = .ok moved ∧ shown.Reveals 1 moved ∧ moved.1.offset = 12 ∧
        moved.1.reveal 1 = .ok (moved.1, false)) ∧
    grid.lanes = 2 ∧ grid.Fitting Strip.Built ∧ 0 < grid.len ∧ wrapped.InRange ∧
      ∃ moved, wrapped.reveal 20 = .ok moved ∧ wrapped.Reveals 8 moved ∧ moved.1.offset = 45 ∧
        moved.1.reveal 20 = .ok (moved.1, false) := by
  intro built strip grid shown wrapped
  have hstrip : strip.Built := ⟨6, 10, built, _, rfl, rfl⟩
  have hgrid : grid.Built := ⟨strip, 10, 0, 9, _, hstrip, by simp, rfl⟩
  constructor
  · have hlen : 0 < strip.len := by decide +kernel
    have hrange : shown.InRange := by
      rw [Viewport.InRange]
      decide +kernel
    obtain ⟨extent, hextent, hreveals⟩ := (reveal_moves_least 1).1 shown hstrip hlen hrange
    have hown : ExtentModel.extentOf shown.model (shown.broughtItem 1) = .ok 22 := by
      decide +kernel
    obtain rfl := Except.ok.inj (hown.symm.trans hextent)
    obtain ⟨moved, hmoved, hreveal, hagain⟩ := hreveals (by decide +kernel)
    have hoffset : (shown.reveal 1).map (·.1.offset) = .ok 12 := by decide +kernel
    rw [hmoved] at hoffset
    exact ⟨hstrip, hlen, hrange, moved, hmoved, hreveal, Except.ok.inj hoffset, hagain⟩
  · have hlanes : grid.lanes = 2 := by decide +kernel
    have hlen : 0 < grid.len := by decide +kernel
    have hrange : wrapped.InRange := by
      rw [Viewport.InRange]
      decide +kernel
    obtain ⟨extent, hextent, hreveals⟩ :=
      (reveal_moves_least 20).2 wrapped hgrid.fitting_built hlen hrange
    have hown : ExtentModel.extentOf wrapped.model (wrapped.broughtItem 20) = .ok 10 := by
      decide +kernel
    obtain rfl := Except.ok.inj (hown.symm.trans hextent)
    obtain ⟨moved, hmoved, hreveal, hagain⟩ := hreveals (by decide +kernel)
    have hlast : wrapped.broughtItem 20 = 8 := by decide +kernel
    have hoffset : (wrapped.reveal 20).map (·.1.offset) = .ok 45 := by decide +kernel
    rw [hmoved] at hoffset
    exact ⟨hlanes, hgrid.fitting_built, hlen, hrange, moved, hmoved, hlast ▸ hreveal,
      Except.ok.inj hoffset, hagain⟩

/-! ### Bringing an item to an edge or to the middle -/

/-- At the offset `goal` the edges or the midpoints of the viewport and of an item meet as asked.
The nearest edge is the one for which the viewport moves least. -/
def Meets (viewport : Viewport M Rat) (start extent goal : Rat) : ScrollAlign → Prop
  | .start => goal = start
  | .stop => goal + viewport.extent = start + extent
  | .center => goal + viewport.extent / 2 = start + extent / 2
  | .nearest => goal = nearestOffset start (start + extent) viewport.extent viewport.offset

/-- The viewport is as close as its range lets it to where it meets the item as asked, and its
window has the item if there is something of both to see. -/
structure Brings (viewport : Viewport M Rat) (index : Nat) (align : ScrollAlign) (extent : Rat)
    (moved : Viewport M Rat) : Prop where
  alike : viewport.Alike moved
  closest : ∃ goal,
    viewport.Meets (ExtentModel.offsetOf viewport.model index) extent goal align ∧
      IsClosest (Set.Icc 0 viewport.maxOffset) goal moved.offset
  inWindow : 0 < extent → 0 < viewport.extent → moved.window.1.contains index = true

/-- Bringing an item, or the last one past the end, is done as asked. -/
def BringsAligned (viewport : Viewport M Rat) (index : Nat) (align : ScrollAlign) : Prop :=
  ∃ extent moved, ExtentModel.extentOf viewport.model (viewport.broughtItem index) = .ok extent ∧
    viewport.bring index align = .ok moved ∧
    viewport.Brings (viewport.broughtItem index) align extent moved.1

omit [ExtentModel M Rat] in
theorem meets_alignedOffset (viewport : Viewport M Rat) (start extent : Rat) (align : ScrollAlign) :
    viewport.Meets start extent (viewport.alignedOffset start (start + extent) align) align := by
  cases align with
  | start => rfl
  | stop => exact sub_add_cancel (start + extent) viewport.extent
  | center =>
    change (start + (start + extent) - viewport.extent) / 2 + viewport.extent / 2 =
      start + extent / 2
    linarith
  | nearest => exact alignedOffset_nearest viewport start (start + extent)

omit [ExtentModel M Rat] in
/-- Where a viewport meets an item, a part of the item is in view, if there is something of both. -/
theorem Meets.overlaps {start goal : Rat} {align : ScrollAlign}
    (h : viewport.Meets start extent goal align) (hextent : 0 < extent)
    (hviewport : 0 < viewport.extent) :
    goal < start + extent ∧ start < goal + viewport.extent := by
  cases align with
  | nearest => exact h.symm ▸ nearestOffset_overlaps start viewport.offset hextent hviewport
  | _ =>
    simp only [Meets] at h
    constructor <;> linarith

/-- Over items in order a fresh viewport brings an item as asked. -/
theorem brings_scrollTo (hordered : ExtentModel.Ordered viewport.model)
    (hsame : ExtentModel.SameAnswers viewport.model (ExtentModel.settleAll viewport.model))
    (hfresh : viewport.Fresh) (hindex : index < ExtentModel.len viewport.model)
    (hextent : ExtentModel.extentOf viewport.model index = .ok extent) {goal : Rat}
    {align : ScrollAlign}
    (hmeets : viewport.Meets (ExtentModel.offsetOf viewport.model index) extent goal align) :
    viewport.Brings index align extent (viewport.scrollTo goal).1 := by
  have hlimit : 0 ≤ viewport.maxOffset := by
    rw [maxOffset_eq]
    exact le_max_right _ _
  have hoffset := offset_scrollTo goal viewport
  refine ⟨scrollTo_alike goal viewport, ⟨goal, hmeets, ?closest⟩, fun hpos hviewport ↦ ?window⟩
  case closest =>
    rw [hoffset]
    exact isClosest_clamped goal hlimit
  case window =>
    have hstop := (hordered.ends index hindex extent hextent).2
    obtain ⟨hbehind, hbefore⟩ := hmeets.overlaps hpos hviewport
    have hview := clamped_overlaps (hordered.offsetOf_nonneg hindex) hstop hpos hviewport
      hbehind hbefore
    dsimp only at hview
    rw [maxOffset_eq] at hoffset
    rw [← hoffset] at hview
    have hnonneg : 0 ≤ (viewport.scrollTo goal).1.offset := (inRange_scrollTo goal viewport).1
    have hsteady := scrollTo_steady goal viewport
    have hmodel := hsteady.model_eq
    rw [(hfresh.scrollTo goal).fst_window (hmodel.symm ▸ hsame), freshWindow, hmodel,
      (scrollTo_alike goal viewport).extent_eq]
    refine hordered.contains_visibleWindow _ hindex hextent ?_
    rwa [max_eq_right hnonneg, max_eq_right hviewport.le]

theorem bringsAligned (h : ExtentModel.LaidOut viewport.model)
    (hsame : ExtentModel.SameAnswers viewport.model (ExtentModel.settleAll viewport.model))
    (hfresh : viewport.Fresh) (hlen : 0 < ExtentModel.len viewport.model) (index : Nat)
    (align : ScrollAlign) : viewport.BringsAligned index align := by
  have hindex := broughtItem_lt hlen index
  obtain ⟨extent, hextent, -⟩ := h.extentOf_ok _ hindex
  exact ⟨extent, _, hextent, bring_eq viewport align hlen hextent,
    brings_scrollTo h.ordered hsame hfresh hindex hextent (meets_alignedOffset _ _ extent align)⟩

end Viewport

/-! ### Runs of viewports -/

/-- Laid out strips stay so whatever the calls, and what they store does not show. -/
theorem Strip.quiet_laid : ExtentModel.Quiet Call.perform (Laid : Strip Rat → Prop) where
  edit call h := h.perform call
  settleAll h := upheld_laid.settleAll h
  sameAnswers_settleAll h := quiet.sameAnswers_settleAll h.sound

/-- Grids with laid out tracks keep them laid out. -/
theorem Grid.quiet_tracks : ExtentModel.Quiet Call.perform
    fun grid : Grid (Strip Rat) Rat ↦ grid.tracks.Laid where
  edit call h := Step.ensures_iff_after.mp (perform_tracks (fun call _ h ↦ h.perform call) call h)
  settleAll h := Strip.upheld_laid.settleAll h
  sameAnswers_settleAll h := quiet.sameAnswers_settleAll h.sound

namespace Viewport

/-- Whatever a viewport was called for, over a strip or over a grid, an item is brought as asked, as
long as there are items, and, in a grid, tracks for all of them. -/
theorem bring_aligns_in_window (extent : Rat) (index : Nat) (align : ScrollAlign) :
    (∀ {strip : Strip Rat} {calls : List (Call (Strip.Call Rat) Rat)}
      {viewport : Viewport (Strip Rat) Rat}, strip.Built →
      Runs Strip.Call.perform Strip.Laid calls (ofModel strip extent) viewport →
      0 < viewport.model.len → viewport.BringsAligned index align) ∧
    ∀ {grid : Grid (Strip Rat) Rat} {calls : List (Call (Grid.Call Rat) Rat)}
      {viewport : Viewport (Grid (Strip Rat) Rat) Rat}, grid.tracks.Built →
      Runs Grid.Call.perform (fun grid ↦ grid.tracks.Laid) calls (ofModel grid extent) viewport →
      viewport.model.tracks.len = viewport.model.trackCount → 0 < viewport.model.len →
      viewport.BringsAligned index align := by
  constructor
  · intro strip calls viewport hbuilt hrun hlen
    have hlaid := hrun.model_valid Strip.quiet_laid hbuilt.laid
    exact bringsAligned hlaid.laidOut (Strip.quiet_laid.sameAnswers_settleAll hlaid)
      (hrun.fresh (fresh_of_kept_eq_none rfl)) hlen index align
  · intro grid calls viewport hbuilt hrun htracks hlen
    have hlaid := hrun.model_valid Grid.quiet_tracks hbuilt.laid
    have hgrid : viewport.model.Laid := ⟨hlaid, htracks⟩
    exact bringsAligned hgrid.laidOut (Grid.quiet_tracks.sameAnswers_settleAll hlaid)
      (hrun.fresh (fresh_of_kept_eq_none rfl)) hlen index align

/-- Without look-ahead, an item that is three times as long as the viewport is brought to the
trailing edge of a strip with gaps, and the last item of a grid, which cannot reach the middle, ends
at the trailing edge. -/
theorem bring_aligns_in_window_rehearsal :
    let built : Strip Rat :=
      { len := 0, uniform := 10, spacing := 0, overrides := ∅, starts := .unset }
    let edits : List (Call (Strip.Call Rat) Rat) := [.setLookahead 0, .model (.edit (.setLen 6)),
      .model (.setSpacing 5), .model (.edit (.setItemExtent 2 60)), .window, .scrollTo 120]
    let fits : List (Call (Grid.Call Rat) Rat) := [.setLookahead 0, .model (.edit (.setLen 9)),
      .model (.edit (.fitCrossExtent 25)), .model (.tracks (.setSpacing 5)), .window]
    let shown := (Step.runAll (Call.perform Strip.Call.perform) edits (ofModel built 20)).2
    let wrapped := (Step.runAll (Call.perform Grid.Call.perform) fits
      (ofModel (.ofTracks built 10 0) 20)).2
    (built.Built ∧ Runs Strip.Call.perform Strip.Laid edits (ofModel built 20) shown ∧
      0 < shown.model.len ∧
      ∃ moved, shown.bring 2 .stop = .ok moved ∧ shown.Brings 2 .stop 60 moved.1 ∧
        moved.1.offset = 70 ∧ moved.1.window.1.contains 2 = true) ∧
    (Grid.ofTracks built 10 0).tracks.Built ∧
      Runs Grid.Call.perform (fun grid ↦ grid.tracks.Laid) fits
        (ofModel (.ofTracks built 10 0) 20) wrapped ∧
      wrapped.model.tracks.len = wrapped.model.trackCount ∧ 0 < wrapped.model.len ∧
      ∃ moved, wrapped.bring 20 .center = .ok moved ∧ wrapped.Brings 8 .center 10 moved.1 ∧
        moved.1.offset = 50 ∧ moved.1.window.1.contains 8 = true := by
  intro built edits fits shown wrapped
  have hbuilt : built.Built := ⟨0, 10, built, [], rfl, rfl⟩
  constructor
  · have hrun : Runs Strip.Call.perform Strip.Laid edits (ofModel built 20) shown :=
      (Runs.start _).append edits
    have hlen : 0 < shown.model.len := by decide +kernel
    obtain ⟨extent, moved, hextent, hmoved, hbrings⟩ :=
      (bring_aligns_in_window 20 2 .stop).1 hbuilt hrun hlen
    have hitem : shown.broughtItem 2 = 2 := by decide +kernel
    have hown : ExtentModel.extentOf shown.model 2 = .ok 60 := by decide +kernel
    rw [hitem] at hextent hbrings
    obtain rfl := Except.ok.inj (hown.symm.trans hextent)
    have hoffset : (shown.bring 2 .stop).map (·.1.offset) = .ok 70 := by decide +kernel
    rw [hmoved] at hoffset
    exact ⟨hbuilt, hrun, hlen, moved, hmoved, hbrings, Except.ok.inj hoffset,
      hbrings.inWindow (by norm_num) (by decide +kernel)⟩
  · have htracks : (Grid.ofTracks built 10 0).tracks.Built := hbuilt.perform (.edit (.setLen _))
    have hrun : Runs Grid.Call.perform (fun grid ↦ grid.tracks.Laid) fits
        (ofModel (.ofTracks built 10 0) 20) wrapped := (Runs.start _).append fits
    have hcount : wrapped.model.tracks.len = wrapped.model.trackCount := by decide +kernel
    have hlen : 0 < wrapped.model.len := by decide +kernel
    obtain ⟨extent, moved, hextent, hmoved, hbrings⟩ :=
      (bring_aligns_in_window 20 20 .center).2 htracks hrun hcount hlen
    have hlast : wrapped.broughtItem 20 = 8 := by decide +kernel
    have hown : ExtentModel.extentOf wrapped.model 8 = .ok 10 := by decide +kernel
    rw [hlast] at hextent hbrings
    obtain rfl := Except.ok.inj (hown.symm.trans hextent)
    have hoffset : (wrapped.bring 20 .center).map (·.1.offset) = .ok 50 := by decide +kernel
    rw [hmoved] at hoffset
    exact ⟨htracks, hrun, hcount, hlen, moved, hmoved, hbrings, Except.ok.inj hoffset,
      hbrings.inWindow (by norm_num) (by decide +kernel)⟩

end Viewport

end Windowing
