import Mathlib.Algebra.Order.Floor.Semiring
import Mathlib.Algebra.Order.Field.Basic
import Mathlib.Order.Bounds.Defs
import Windowing.Proofs.Extent.Built

/-!
# Tracks of a grid

A grid manages the number of its tracks: whenever the number of its items or of its lanes changes,
it makes its track model as long as it takes to hold all items. The extents of the tracks are open
to edits, which may leave the tracks in any shape, as long as there are as many of them as before.
Such a grid is in step with its tracks. Its items then lie as their tracks do: those of one track
together, those of a later track behind them, and nothing past the last track.

## Main definitions

* `Grid.InStep` — grids of which nobody changed the number of tracks behind them.

## Main results

* `Grid.trackCount_eq_ceil` — how many tracks hold the items.
* `Grid.InStep.fitting` — a grid in step has that many.
* `Grid.Laid.isLeast_indexAtOffset` — what an offset finds.
* `Grid.InStep.items_follow_tracks` — items lie as their tracks do.
-/

namespace Windowing

/-! ### Own extents of a strip -/

namespace Strip

variable {S : Type} [Scalar S]

/-- An own extent is that of its item, and the other items keep theirs. -/
theorem extentOf_insertOverride (strip : Strip S) (index other : Nat) (extent : S) :
    (strip.openStarts.insertOverride index extent).extentOf other =
      if other = index then extent else strip.extentOf other := by
  have hadded := measures_insertOverride_openStarts strip index extent
  have hown : (strip.openStarts.insertOverride index extent).overrides =
      strip.overrides.insert index extent := congrArg Measures.overrides hadded
  have hshared : (strip.openStarts.insertOverride index extent).uniform = strip.uniform :=
    congrArg Measures.uniform hadded
  simp only [extentOf, overrideOf, hown, hshared, Std.TreeMap.getElem?_insert, compare_eq_iff_eq]
  by_cases hsame : other = index
  · simp [hsame]
  · have hne : ¬ index = other := fun heq ↦ hsame heq.symm
    simp [hsame, hne]

theorem len_insertOverride (strip : Strip S) (index : Nat) (extent : S) :
    (strip.openStarts.insertOverride index extent).len = strip.len :=
  congrArg Measures.len (measures_insertOverride_openStarts strip index extent)

end Strip

namespace Grid

/-! ### Grids in step with their tracks -/

section InStep

variable {S : Type} [Scalar S]

/-- A grid as it is made, called and edited while nobody changes the number of its tracks behind
it. An edit of the tracks may leave any strip, whatever was done to it in between, if it has as many
tracks as before. -/
inductive InStep : Grid (Strip S) S → Prop
  | ofTracks {tracks : Strip S} (htracks : tracks.Built) (itemWidth : S) (len : Nat) :
      InStep (ofTracks tracks itemWidth len)
  | withLaneSpacing {grid : Grid (Strip S) S} (h : InStep grid) (spacing : S) :
      InStep (grid.withLaneSpacing spacing)
  | perform {grid : Grid (Strip S) S} (h : InStep grid) (call : Call S)
      (hcall : ∀ inner, call ≠ .tracks inner) : InStep (call.perform.after grid)
  | editTracks {grid : Grid (Strip S) S} (h : InStep grid) {tracks : Strip S}
      (htracks : tracks.Built) (hlen : tracks.len = grid.tracks.len) :
      InStep { grid with tracks }

/-- A grid in step has the tracks that its items need, and they are a strip that calls made. -/
theorem InStep.fitting {grid : Grid (Strip S) S} (h : grid.InStep) : grid.Fitting Strip.Built := by
  induction h with
  | ofTracks htracks => exact ⟨htracks.perform (.edit (.setLen _)), rfl⟩
  | withLaneSpacing _ spacing ih => exact ⟨ih.tracks, ih.len_eq⟩
  | perform _ call hcall ih =>
    exact ih.perform Strip.Built.sound (fun call _ h ↦ h.perform call) fun _ ↦ hcall _
  | editTracks _ htracks hlen ih => exact ⟨htracks, hlen.trans ih.len_eq⟩

omit [Scalar S] in
/-- The items fill so many tracks, the last one perhaps in part. -/
theorem trackCount_eq_ceil {M : Type} (grid : Grid M S) :
    grid.trackCount = ⌈(grid.len / grid.lanes : Rat)⌉₊ := by
  have hlanes : (0 : Rat) < grid.lanes := Nat.cast_pos.mpr grid.lanes_pos
  refine eq_of_forall_ge_iff fun count ↦ ?_
  rw [Nat.ceil_le, div_le_iff₀ hlanes, ← Nat.cast_mul, Nat.cast_le, trackCount,
    Nat.div_le_iff_le_mul_add_pred grid.lanes_pos, Nat.mul_comm]
  have hpos := grid.lanes_pos
  omega

end InStep

/-! ### Items and tracks over exact numbers -/

variable {grid : Grid (Strip Rat) Rat} {index : Nat}

/-- The laws of a grid in step, item by item: the items of its track share its offset and its
extent, and those of later tracks lie behind it. -/
theorem Laid.shares_track (h : grid.Laid) (hindex : index < grid.len) :
    ∃ extent, grid.extentOf index = .ok extent ∧
      (∀ other < grid.len, grid.trackOf other = grid.trackOf index →
        grid.offsetOf other = grid.offsetOf index ∧ grid.extentOf other = .ok extent) ∧
      ∀ other < grid.len, grid.trackOf index < grid.trackOf other →
        grid.offsetOf index + extent ≤ grid.offsetOf other := by
  obtain ⟨extent, hextent, -, hbehind, -⟩ := h.laidOut.extentOf_ok index hindex
  refine ⟨extent, hextent, fun other hother htrack ↦ ⟨?_, ?_⟩, hbehind⟩
  · exact h.laidOut.offsetOf_congr other hother index hindex htrack
  · rw [extentOf_of_lt hother h.len_eq, htrack, ← extentOf_of_lt hindex h.len_eq]
    exact hextent

/-- The item that an offset finds is the first one of the track that it finds. -/
theorem Laid.isLeast_indexAtOffset (h : grid.Laid) (hlen : 0 < grid.len) (offset : Rat) :
    IsLeast {i | i < grid.len ∧ grid.trackOf i = grid.tracks.indexAtOffset offset}
      (grid.indexAtOffset offset) := by
  have htracks : 0 < grid.tracks.len := h.len_eq ▸ Nat.zero_lt_of_lt (trackOf_lt_trackCount hlen)
  have hfound : grid.tracks.indexAtOffset offset < grid.trackCount :=
    h.len_eq ▸ h.tracks.laidOut.indexAtOffset_lt offset htracks
  have hitem : grid.indexAtOffset offset = grid.tracks.indexAtOffset offset * grid.lanes :=
    indexAtOffset_eq hlen hfound
  refine ⟨⟨h.laidOut.indexAtOffset_lt offset hlen, ?_⟩, fun i ⟨_, htrack⟩ ↦ ?_⟩
  · rw [hitem, trackOf, Nat.mul_div_cancel _ grid.lanes_pos]
  · rw [hitem, ← htrack]
    exact Nat.div_mul_le_self i grid.lanes

/-- Giving an item an extent gives it to the items of its track and to no others. An item that does
not exist is refused, and nothing changes then. -/
theorem Laid.setItemExtent_eq (h : grid.Laid) (index : Nat) (extent : Rat) :
    ∃ after, Grid.setItemExtent index extent grid = .ok (decide (index < grid.len)) after ∧
      after.len = grid.len ∧ after.lanes = grid.lanes ∧
      ∀ other < grid.len, after.extentOf other =
        if index < grid.len ∧ grid.trackOf other = grid.trackOf index then .ok (max 0 extent)
        else grid.extentOf other := by
  by_cases hindex : index < grid.len
  case neg =>
    refine ⟨grid, ?_, rfl, rfl, fun other _ ↦ (if_neg fun hsized ↦ hindex hsized.1).symm⟩
    rw [Grid.setItemExtent, Step.get_bind, if_neg hindex, decide_eq_false hindex]
    rfl
  case pos =>
    have htrack : grid.trackOf index < grid.tracks.len := h.len_eq ▸ trackOf_lt_trackCount hindex
    have hchecked : checkedExtent extent = .ok (Scalar.nonNegative extent) := rfl
    let tracks := grid.tracks.openStarts.insertOverride (grid.trackOf index) (max 0 extent)
    have hrun : ResizableModel.setItemExtent (grid.trackOf index) extent grid.tracks =
        .ok true tracks := by
      rw [Scalar.nonNegative_eq] at hchecked
      exact Strip.setOverride_of_lt hchecked htrack
    have hlen : tracks.len = grid.trackCount := (Strip.len_insertOverride ..).trans h.len_eq
    refine ⟨{ grid with tracks }, ?_, rfl, rfl, fun other hother ↦ ?_⟩
    · rw [Grid.setItemExtent, Step.get_bind, if_pos hindex, decide_eq_true hindex, Step.within,
        hrun]
    · have hafter : { grid with tracks }.extentOf other =
          .ok (tracks.extentOf (grid.trackOf other)) := extentOf_of_lt hother hlen
      have hbefore : grid.extentOf other = .ok (grid.tracks.extentOf (grid.trackOf other)) :=
        extentOf_of_lt hother h.len_eq
      rw [hafter, hbefore, Strip.extentOf_insertOverride]
      by_cases hsame : grid.trackOf other = grid.trackOf index
      · rw [if_pos hsame, if_pos ⟨hindex, hsame⟩]
      · rw [if_neg hsame, if_neg fun hsized ↦ hsame hsized.2]

/-! ### Grids in step over exact numbers -/

/-- However a grid is made, called and edited, as long as nobody changes the number of its tracks
behind it: it has as many tracks as its items fill. Items of one track share their offset and their
extent, and items of later tracks lie behind them; what starts past the end starts where the content
ends. An offset finds the first item of the track that it finds. Giving an item an extent succeeds
if the item exists; it then gives the extent, or zero if it is negative, to all items of the track
and leaves the extents of all others. -/
theorem InStep.items_follow_tracks (h : grid.InStep) :
    grid.tracks.len = ⌈(grid.len / grid.lanes : Rat)⌉₊ ∧
    (∀ i < grid.len, ∃ extent, grid.extentOf i = .ok extent ∧
      (∀ j < grid.len, grid.trackOf j = grid.trackOf i →
        grid.offsetOf j = grid.offsetOf i ∧ grid.extentOf j = .ok extent) ∧
      ∀ j < grid.len, grid.trackOf i < grid.trackOf j →
        grid.offsetOf i + extent ≤ grid.offsetOf j) ∧
    (∀ k, grid.len ≤ k → grid.offsetOf k = ExtentModel.totalExtent grid) ∧
    (0 < grid.len → ∀ offset, grid.indexAtOffset offset < grid.len ∧
      IsLeast {i | i < grid.len ∧ grid.trackOf i = grid.tracks.indexAtOffset offset}
        (grid.indexAtOffset offset)) ∧
    ∀ i extent, ∃ after,
      Grid.setItemExtent i extent grid = .ok (decide (i < grid.len)) after ∧
      after.len = grid.len ∧ after.lanes = grid.lanes ∧
      ∀ j < grid.len, after.extentOf j =
        if i < grid.len ∧ grid.trackOf j = grid.trackOf i then .ok (max 0 extent)
        else grid.extentOf j := by
  have hlaid : grid.Laid := ⟨h.fitting.tracks.laid, h.fitting.len_eq⟩
  refine ⟨hlaid.len_eq.trans (trackCount_eq_ceil grid), fun i hi ↦ hlaid.shares_track hi,
    hlaid.laidOut.offsetOf_past, fun hlen offset ↦ ?_, hlaid.setItemExtent_eq⟩
  have hfirst := hlaid.isLeast_indexAtOffset hlen offset
  exact ⟨hfirst.1.1, hfirst⟩

/-- Five items in two lanes. Their tracks are cut down to the first one, which has an extent of its
own, and get two new ones before the grid is looked at again. -/
theorem InStep.items_follow_tracks_regrown :
    let built : Strip Rat :=
      { len := 3, uniform := 10, spacing := 0, overrides := ∅, starts := .unset }
    let wrapped := (Grid.ofTracks built 10 5).withLaneSpacing (2 : Rat)
    let laned := (Call.edit (.fitCrossExtent 25)).perform.after wrapped
    let sized := (Call.edit (.setItemExtent 1 50)).perform.after laned
    let tracks := (Step.runAll Strip.Call.perform
      [.edit (.setItemExtent 2 40), .edit (.setLen 1), .setUniform 20, .edit (.setLen 3)]
      sized.tracks).2
    let grid : Grid (Strip Rat) Rat := { sized with tracks }
    grid.InStep ∧ grid.lanes = 2 ∧ grid.tracks.len = ⌈(grid.len / grid.lanes : Rat)⌉₊ ∧
      grid.offsetOf 3 = grid.offsetOf 2 ∧ grid.offsetOf 3 = 50 ∧
      grid.offsetOf 7 = ExtentModel.totalExtent grid ∧
      IsLeast {i | i < grid.len ∧ grid.trackOf i = grid.tracks.indexAtOffset 60}
        (grid.indexAtOffset 60) ∧
      ∃ after, Grid.setItemExtent 3 (-7) grid = .ok true after ∧
        after.extentOf 2 = .ok 0 ∧ after.extentOf 4 = grid.extentOf 4 := by
  intro built wrapped laned sized tracks grid
  have hbuilt : built.Built := ⟨3, 10, built, [], rfl, rfl⟩
  have hlaned : laned.InStep :=
    ((InStep.ofTracks hbuilt 10 5).withLaneSpacing 2).perform (.edit (.fitCrossExtent 25)) nofun
  have hsized : sized.InStep := hlaned.perform (.edit (.setItemExtent 1 50)) nofun
  have htracks : tracks.Built :=
    Step.holds_runAll Strip.Built (fun call _ _ h ↦ h.perform call) hsized.fitting.tracks
  have hgrid : grid.InStep := hsized.editTracks htracks (by decide +kernel)
  obtain ⟨hcount, hshared, hpast, hfound, hset⟩ := hgrid.items_follow_tracks
  obtain ⟨_, -, hsame, -⟩ := hshared 2 (by decide +kernel)
  obtain ⟨after, hrun, -, -, hextents⟩ := hset 3 (-7)
  have hthird : 3 < grid.len := by decide +kernel
  rw [decide_eq_true hthird] at hrun
  refine ⟨hgrid, by decide +kernel, hcount, (hsame 3 hthird (by decide +kernel)).1,
    by decide +kernel, hpast 7 (by decide +kernel), (hfound (by decide +kernel) 60).2, after, hrun,
    ?sized, ?other⟩
  case sized =>
    rw [hextents 2 (by decide +kernel), if_pos (by decide +kernel)]
    rfl
  case other => rw [hextents 4 (by decide +kernel), if_neg (by decide +kernel)]

end Grid

end Windowing
