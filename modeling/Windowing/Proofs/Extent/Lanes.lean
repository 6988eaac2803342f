import Mathlib.Algebra.Order.Field.Basic
import Mathlib.Order.Bounds.Defs
import Mathlib.Order.CompletePartialOrder
import Mathlib.Tactic.Ring
import Windowing.Proofs.Extent.Built

/-!
# Lanes of a grid

A viewport holds as many lanes as fit with a gap between neighbours: `n` lanes need `n` widths and
one gap less. The number of lanes is found by a division, which counts a gap for every lane and so
adds one to the space there is. A viewport that is no wider than an item still has one lane.

Items of a grid are placed by their track along the scroll axis and by their lane across it. Two
items differ in one of the two, so their rectangles do not overlap.

## Main definitions

* `Rect.interior` — the points inside a rectangle.
* `Grid.cell` — the rectangle of an item in the coordinates of the content.

## Main results

* `Grid.isGreatest_lanesFor` — no more lanes would fit.
* `Grid.Laid.disjoint_cells` — the rectangles of different items have no point inside in common.
* `Grid.lanes_maximal_and_cells_apart` — the same for the lanes that a grid takes for a viewport.
-/

namespace Windowing

/-! ### Rectangles -/

/-- The points inside a rectangle, its edges left out. -/
def Rect.interior (r : Rect Rat) : Set (Point Rat) :=
  {p | (r.left < p.x ∧ p.x < r.right) ∧ r.top < p.y ∧ p.y < r.bottom}

theorem Rect.disjoint_interior {r r' : Rect Rat}
    (h : r.right ≤ r'.left ∨ r.bottom ≤ r'.top) : Disjoint r.interior r'.interior := by
  refine Set.disjoint_left.mpr fun p ⟨⟨_, hright⟩, _, hbottom⟩ ⟨⟨hleft, _⟩, htop, _⟩ ↦ ?_
  rcases h with h | h
  · exact absurd (hright.trans_le h) hleft.not_gt
  · exact absurd (hbottom.trans_le h) htop.not_gt

/-- Rectangles are apart where one ends before the other one starts, along the scroll axis or across
it. -/
theorem Axis.disjoint_rect (axis : Axis) {main cross main' cross' : Rat × Rat}
    (h : main.1 + main.2 ≤ main'.1 ∨ cross.1 + cross.2 ≤ cross'.1) :
    Disjoint (axis.rect main cross).interior (axis.rect main' cross').interior := by
  cases axis with
  | vertical => exact Rect.disjoint_interior h.symm
  | horizontal => exact Rect.disjoint_interior h

namespace Grid

/-- The rectangle of an item in the coordinates of the content, where the viewport has the given
extent across the scroll axis. -/
def cell {M S : Type} [Scalar S] [ExtentModel M S] [ResizableModel M S] (grid : Grid M S)
    (axis : Axis) (crossExtent : S) (index : Nat) : Except Fault (Rect S) := do
  let extent ← grid.extentOf index
  return axis.rect (grid.offsetOf index, extent) (CrossPlacement.crossSpan grid index crossExtent)

/-! ### How many lanes fit -/

section Fit

variable {M : Type} {grid : Grid M Rat} {crossExtent : Rat}

/-- Where an item or a gap takes space and an item leaves some, the lanes that fit are those that
are counted. -/
theorem le_lanesFor_iff (hpitch : 0 < grid.itemWidth + grid.laneSpacing)
    (hwide : grid.itemWidth < crossExtent) (count : Nat) :
    count ≤ grid.lanesFor crossExtent ↔
      count * grid.itemWidth + (count - 1) * grid.laneSpacing ≤ crossExtent := by
  have hfits : (1 : Rat) ≤ (crossExtent + grid.laneSpacing) / (grid.itemWidth + grid.laneSpacing) :=
    (one_le_div hpitch).mpr (by linarith)
  have hlanes : grid.lanesFor crossExtent =
      max 1 ⌊(crossExtent + grid.laneSpacing) / (grid.itemWidth + grid.laneSpacing)⌋.toNat := by
    simp only [lanesFor, pitch, Scalar.le_eq, Scalar.zero_eq, Scalar.floorToInt_eq,
      decide_eq_false (not_le.mpr hpitch), decide_eq_false (not_le.mpr hwide)]
    rfl
  have hfloor : 1 ≤ ⌊(crossExtent + grid.laneSpacing) / (grid.itemWidth + grid.laneSpacing)⌋ :=
    Int.le_floor.mpr (by exact_mod_cast hfits)
  have hcount : count ≤ grid.lanesFor crossExtent ↔
      (count : Int) ≤ ⌊(crossExtent + grid.laneSpacing) / (grid.itemWidth + grid.laneSpacing)⌋ := by
    rw [hlanes]
    omega
  -- As many gaps as lanes fit into the space with one more gap.
  rw [hcount, Int.le_floor, Int.cast_natCast, le_div_iff₀ hpitch]
  constructor <;> intro h <;> linarith

/-- No more lanes fit than are counted. -/
theorem isGreatest_lanesFor (hpitch : 0 < grid.itemWidth + grid.laneSpacing)
    (hwide : grid.itemWidth < crossExtent) :
    IsGreatest {count : Nat |
        count * grid.itemWidth + (count - 1) * grid.laneSpacing ≤ crossExtent}
      (grid.lanesFor crossExtent) :=
  ⟨(le_lanesFor_iff hpitch hwide _).mp le_rfl, fun count ↦ (le_lanesFor_iff hpitch hwide count).mpr⟩

theorem lanesFor_eq_one
    (h : ¬(0 < grid.itemWidth + grid.laneSpacing ∧ grid.itemWidth < crossExtent)) :
    grid.lanesFor crossExtent = 1 := by
  rw [not_and_or, not_lt, not_lt] at h
  simp only [lanesFor, pitch, Scalar.le_eq, Scalar.zero_eq]
  exact if_pos (by simpa using h)

/-- The lanes that are counted fit, if one item does. -/
theorem lanesFor_fit (hwide : grid.itemWidth ≤ crossExtent) :
    grid.lanesFor crossExtent * grid.itemWidth + (grid.lanesFor crossExtent - 1) * grid.laneSpacing ≤
      crossExtent := by
  by_cases h : 0 < grid.itemWidth + grid.laneSpacing ∧ grid.itemWidth < crossExtent
  · exact (isGreatest_lanesFor h.1 h.2).1
  · rw [lanesFor_eq_one h]
    simpa using hwide

end Fit

/-! ### Where items lie -/

section Cells

variable {M : Type} [ExtentModel M Rat] [ResizableModel M Rat] {grid : Grid M Rat} {i j : Nat}

omit [ExtentModel M Rat] in
/-- Changing the number of lanes changes neither the items nor the measures of a lane. -/
theorem setLanes_keeps (grid : Grid M Rat) (lanes : Nat) (lanes_pos : 0 < lanes) :
    let after := (grid.setLanes lanes lanes_pos).1
    after.lanes = lanes ∧ after.len = grid.len ∧ after.itemWidth = grid.itemWidth ∧
      after.laneSpacing = grid.laneSpacing := by
  intro after
  by_cases hsame : grid.lanes = lanes
  · have hafter : after = grid := congrArg Prod.fst (if_pos hsame)
    rw [hafter]
    exact ⟨hsame, rfl, rfl, rfl⟩
  · have hafter : after = { grid with lanes, lanes_pos }.resizeTracks :=
      congrArg Prod.fst (if_neg hsame)
    rw [hafter]
    exact ⟨rfl, rfl, rfl, rfl⟩

omit [ExtentModel M Rat] in
theorem crossSpan_eq (grid : Grid M Rat) (index : Nat) (crossExtent : Rat) :
    CrossPlacement.crossSpan grid index crossExtent =
      ((grid.laneOf index : Rat) * (grid.itemWidth + grid.laneSpacing), grid.itemWidth) := rfl

omit [ExtentModel M Rat] in
/-- Neighbouring lanes are a gap apart. -/
theorem crossSpan_of_next (hlane : grid.laneOf j = grid.laneOf i + 1) (crossExtent : Rat) :
    (CrossPlacement.crossSpan grid j crossExtent).1 =
      (CrossPlacement.crossSpan grid i crossExtent).1 +
        (CrossPlacement.crossSpan grid i crossExtent).2 + grid.laneSpacing := by
  rw [crossSpan_eq, crossSpan_eq, hlane, Nat.cast_succ]
  ring

variable (hwidth : 0 ≤ grid.itemWidth) (hspacing : 0 ≤ grid.laneSpacing)
include hwidth hspacing

omit [ExtentModel M Rat] in
/-- An item ends before the later lanes start. -/
theorem crossSpan_add_le (hlane : grid.laneOf i < grid.laneOf j) (crossExtent : Rat) :
    (CrossPlacement.crossSpan grid i crossExtent).1 +
        (CrossPlacement.crossSpan grid i crossExtent).2 ≤
      (CrossPlacement.crossSpan grid j crossExtent).1 := by
  have hnext : ((grid.laneOf i : Rat) + 1) * (grid.itemWidth + grid.laneSpacing) ≤
      grid.laneOf j * (grid.itemWidth + grid.laneSpacing) :=
    mul_le_mul_of_nonneg_right (by exact_mod_cast hlane) (add_nonneg hwidth hspacing)
  rw [crossSpan_eq, crossSpan_eq]
  linarith

omit [ExtentModel M Rat] in
/-- Where the lanes of a grid fit, every item lies within the viewport. -/
theorem crossSpan_mem {crossExtent : Rat}
    (hfit : grid.lanes * grid.itemWidth + (grid.lanes - 1) * grid.laneSpacing ≤ crossExtent)
    (index : Nat) :
    0 ≤ (CrossPlacement.crossSpan grid index crossExtent).1 ∧
      (CrossPlacement.crossSpan grid index crossExtent).1 +
          (CrossPlacement.crossSpan grid index crossExtent).2 ≤ crossExtent := by
  have hpitch := add_nonneg hwidth hspacing
  have hlane : ((grid.laneOf index : Rat) + 1) * (grid.itemWidth + grid.laneSpacing) ≤
      grid.lanes * (grid.itemWidth + grid.laneSpacing) :=
    mul_le_mul_of_nonneg_right (by exact_mod_cast grid.laneOf_lt_lanes index) hpitch
  rw [crossSpan_eq]
  refine ⟨mul_nonneg (Nat.cast_nonneg _) hpitch, ?_⟩
  linarith

/-- An item ends before a later one starts: along the scroll axis if that one is on a later track,
and across it if both share a track. -/
theorem apart_of_lt (h : ExtentModel.LaidOut grid) (hij : i < j) (hj : j < grid.len)
    {extent : Rat} (hextent : grid.extentOf i = .ok extent) (crossExtent : Rat) :
    grid.offsetOf i + extent ≤ grid.offsetOf j ∨
      (CrossPlacement.crossSpan grid i crossExtent).1 +
          (CrossPlacement.crossSpan grid i crossExtent).2 ≤
        (CrossPlacement.crossSpan grid j crossExtent).1 := by
  rcases Nat.eq_or_lt_of_le (h.trackIndex_mono hij.le) with htrack | htrack
  · right
    refine crossSpan_add_le hwidth hspacing ?_ crossExtent
    have hi := grid.lanes_mul_trackOf_add_laneOf i
    have hj := grid.lanes_mul_trackOf_add_laneOf j
    rw [show grid.trackOf i = grid.trackOf j from htrack] at hi
    omega
  · left
    obtain ⟨own, hown, -, hbehind, -⟩ := h.extentOf_ok i (hij.trans hj)
    obtain rfl := Except.ok.inj (hown.symm.trans hextent)
    exact hbehind j hj htrack

/-- The rectangles of different items have no point inside in common. -/
theorem disjoint_cells (h : ExtentModel.LaidOut grid) (hi : i < grid.len) (hj : j < grid.len)
    (hne : i ≠ j) (axis : Axis) (crossExtent : Rat) :
    ∃ r r', grid.cell axis crossExtent i = .ok r ∧ grid.cell axis crossExtent j = .ok r' ∧
      Disjoint r.interior r'.interior := by
  obtain ⟨extent, hextent, -⟩ := h.extentOf_ok i hi
  obtain ⟨extent', hextent', -⟩ := h.extentOf_ok j hj
  have hcell {index : Nat} {own : Rat} (hown : grid.extentOf index = .ok own) :
      grid.cell axis crossExtent index = .ok (axis.rect (grid.offsetOf index, own)
        (CrossPlacement.crossSpan grid index crossExtent)) := by
    rw [cell, hown]
    rfl
  refine ⟨_, _, hcell hextent, hcell hextent', ?_⟩
  rcases Nat.lt_or_gt_of_ne hne with hlt | hlt
  · exact axis.disjoint_rect (apart_of_lt hwidth hspacing h hlt hj hextent crossExtent)
  · exact (axis.disjoint_rect (apart_of_lt hwidth hspacing h hlt hi hextent' crossExtent)).symm

end Cells

/-! ### Lanes taken for a viewport -/

/-- A grid counts the largest number of lanes that fit a viewport with a gap between neighbours, and
one lane where nothing takes space or the viewport is no wider than an item. In a grid that took the
lanes counted for a viewport which has room for an item, every item lies within the viewport across
the scroll axis; neighbouring lanes of a track are a gap apart; and whichever way the grid scrolls,
the rectangles of different items have no point inside in common. -/
theorem lanes_maximal_and_cells_apart :
    (∀ {M : Type} (grid : Grid M Rat) (crossExtent : Rat),
      if 0 < grid.itemWidth + grid.laneSpacing ∧ grid.itemWidth < crossExtent then
        IsGreatest {count : Nat |
            count * grid.itemWidth + (count - 1) * grid.laneSpacing ≤ crossExtent}
          (grid.lanesFor crossExtent)
      else grid.lanesFor crossExtent = 1) ∧
    ∀ (grid : Grid (Strip Rat) Rat) (crossExtent : Rat),
      0 ≤ grid.itemWidth → 0 ≤ grid.laneSpacing → grid.itemWidth ≤ crossExtent →
      grid.Fitting Strip.Built →
      let fitted := (CrossPlacement.fitCrossExtent crossExtent grid).1
      let span := fun index ↦ CrossPlacement.crossSpan fitted index crossExtent
      fitted.lanes = grid.lanesFor crossExtent ∧
      (∀ i, 0 ≤ (span i).1 ∧ (span i).1 + (span i).2 ≤ crossExtent) ∧
      (∀ i j, fitted.trackOf i = fitted.trackOf j → fitted.laneOf j = fitted.laneOf i + 1 →
        (span j).1 = (span i).1 + (span i).2 + grid.laneSpacing) ∧
      ∀ axis, ∀ i < grid.len, ∀ j < grid.len, i ≠ j →
        ∃ r r', fitted.cell axis crossExtent i = .ok r ∧ fitted.cell axis crossExtent j = .ok r' ∧
          Disjoint r.interior r'.interior := by
  refine ⟨fun grid crossExtent ↦ ?lanes,
    fun grid crossExtent hwidth hspacing hwide hfitting ↦ ?cells⟩
  case lanes =>
    split
    · next h => exact isGreatest_lanesFor h.1 h.2
    · next h => exact lanesFor_eq_one h
  case cells =>
    intro fitted span
    have hpos := grid.lanesFor_pos crossExtent
    obtain ⟨hlanes, hlen, hitem, hgap⟩ : fitted.lanes = grid.lanesFor crossExtent ∧
        fitted.len = grid.len ∧ fitted.itemWidth = grid.itemWidth ∧
        fitted.laneSpacing = grid.laneSpacing :=
      setLanes_keeps grid (grid.lanesFor crossExtent) hpos
    have hfitted : fitted.Fitting Strip.Built :=
      hfitting.setLanes (fun call _ h ↦ h.perform call) hpos
    have hlaid : fitted.Laid := ⟨hfitted.tracks.laid, hfitted.len_eq⟩
    have hwidth' : 0 ≤ fitted.itemWidth := hitem ▸ hwidth
    have hspacing' : 0 ≤ fitted.laneSpacing := hgap ▸ hspacing
    refine ⟨hlanes, crossSpan_mem hwidth' hspacing' ?fit, fun i j _ hlane ↦ ?next,
      fun axis i hi j hj hij ↦ ?apart⟩
    case fit =>
      rw [hlanes, hitem, hgap]
      exact lanesFor_fit hwide
    case next =>
      rw [← hgap]
      exact crossSpan_of_next hlane crossExtent
    case apart =>
      exact disjoint_cells hwidth' hspacing' hlaid.laidOut (hlen.symm ▸ hi) (hlen.symm ▸ hj) hij
        axis crossExtent

/-- Ten items of width twenty with a gap of four: three lanes of them need exactly 68, and less than
that leaves two. -/
theorem lanes_maximal_and_cells_apart_exactly :
    let built : Strip Rat :=
      { len := 0, uniform := 10, spacing := 0, overrides := ∅, starts := .unset }
    let grid := (ofTracks built 20 10).withLaneSpacing (4 : Rat)
    let fitted := (CrossPlacement.fitCrossExtent 68 grid).1
    grid.lanesFor 68 = 3 ∧ grid.lanesFor 67 = 2 ∧ grid.lanesFor 15 = 1 ∧
      IsGreatest {count : Nat |
        count * grid.itemWidth + (count - 1) * grid.laneSpacing ≤ 68} (grid.lanesFor 68) ∧
      (0 ≤ grid.itemWidth ∧ 0 ≤ grid.laneSpacing ∧ grid.itemWidth ≤ 68 ∧
        grid.Fitting Strip.Built) ∧
      (CrossPlacement.crossSpan fitted 5 68).1 + (CrossPlacement.crossSpan fitted 5 68).2 ≤ 68 ∧
      (CrossPlacement.crossSpan fitted 5 68).1 =
        (CrossPlacement.crossSpan fitted 4 68).1 + (CrossPlacement.crossSpan fitted 4 68).2 + 4 ∧
      ∃ r r', fitted.cell .vertical 68 4 = .ok r ∧ fitted.cell .vertical 68 8 = .ok r' ∧
        Disjoint r.interior r'.interior := by
  intro built grid fitted
  have hbuilt : built.Built := ⟨0, 10, built, [], rfl, rfl⟩
  have hwrapped : (ofTracks built (20 : Rat) 10).Fitting Strip.Built :=
    fitting_resizeTracks (fun call _ h ↦ h.perform call) _ hbuilt
  have hfitting : grid.Fitting Strip.Built := ⟨hwrapped.tracks, hwrapped.len_eq⟩
  have hitem : 0 ≤ grid.itemWidth := by decide +kernel
  have hgap : 0 ≤ grid.laneSpacing := by decide +kernel
  have hwide : grid.itemWidth ≤ 68 := by decide +kernel
  have hlanes := lanes_maximal_and_cells_apart.1 grid 68
  rw [if_pos (by decide +kernel)] at hlanes
  obtain ⟨-, hspans, hnext, hcells⟩ :=
    lanes_maximal_and_cells_apart.2 grid 68 hitem hgap hwide hfitting
  exact ⟨by decide +kernel, by decide +kernel, by decide +kernel, hlanes,
    ⟨hitem, hgap, hwide, hfitting⟩, (hspans 5).2, hnext 4 5 (by decide +kernel) (by decide +kernel),
    hcells .vertical 4 (by decide +kernel) 8 (by decide +kernel) (by decide)⟩

end Grid

end Windowing
