import Mathlib.Algebra.BigOperators.Group.Finset.Basic
import Mathlib.Order.Bounds.Defs
import Mathlib.Tactic.Ring
import Windowing.Proofs.Extent.Built

/-!
# Offsets as sums, and their inverse

With exact numbers an item of a strip starts where the extents before it and the gaps behind them
add up to, and the content ends with the last item, without a gap. Finding an item by an offset is
the inverse: the item that is found is the last one that starts at or before the offset, whether the
offset is divided by a stride or searched for among the kept starts.

There is one exception. While no item has an extent of its own and the stride is zero, all items
start together and the first one is found.

## Main results

* `Measures.summedStart_eq_sum`, `Measures.totalExtent_eq_sum` — offsets are sums.
* `Measures.Nonneg.isGreatest_indexAtOffset` — what an offset finds.
* `Measures.Nonneg.indexAtOffset_offsetOf` — an item is found by its own offset.
* `Strip.Built.offsets_sum_and_invert` — the same for strips, whatever calls made them.
-/

namespace Windowing

namespace Measures

variable {measures : Measures Rat} {index : Nat}

/-! ### Sums -/

theorem summedStart_eq_sum (measures : Measures Rat) (index : Nat) :
    measures.summedStart index =
      ∑ i ∈ Finset.range index, measures.extentOf i + index * measures.spacing := by
  induction index with
  | zero => simp [summedStart]
  | succ index ih =>
    rw [summedStart_succ, ih, Finset.sum_range_succ, Nat.cast_succ]
    ring

theorem offsetOf_eq_sum (hindex : index < measures.len) :
    measures.offsetOf index =
      ∑ i ∈ Finset.range index, measures.extentOf i + index * measures.spacing :=
  (offsetOf_of_lt hindex).trans (summedStart_eq_sum measures index)

/-- There is no gap behind the last item. -/
theorem totalExtent_eq_sum (hlen : 0 < measures.len) :
    measures.totalExtent =
      ∑ i ∈ Finset.range measures.len, measures.extentOf i +
        (measures.len - 1 : Nat) * measures.spacing := by
  obtain ⟨last, hlast⟩ := Nat.exists_eq_succ_of_ne_zero (Nat.ne_of_gt hlen)
  rw [totalExtent_eq hlen, summedStart_eq_sum, hlast, Finset.sum_range_succ, Nat.succ_sub_one]
  ring

theorem Nonneg.offsetOf_add_extentOf_le (h : measures.Nonneg) (hindex : index < measures.len) :
    measures.offsetOf index + measures.extentOf index ≤ measures.offsetOf (index + 1) := by
  rw [offsetOf_of_lt hindex]
  by_cases hnext : index + 1 < measures.len
  · rw [offsetOf_of_lt hnext]
    exact h.summedStart_add_le (Nat.lt_succ_self index)
  · rw [offsetOf_of_le (Nat.le_of_not_lt hnext)]
    exact h.summedStart_add_le_totalExtent hindex

/-! ### The inverse -/

section Inverse

variable (h : measures.Nonneg) (hstride : measures.isUniform = true → 0 < measures.stride)
include h hstride

/-- The item that is found is the last one that starts at or before the offset. -/
theorem Nonneg.isGreatest_indexAtOffset (hlen : 0 < measures.len) (offset : Rat) :
    IsGreatest {i | i < measures.len ∧ measures.offsetOf i ≤ max 0 offset}
      (measures.indexAtOffset offset) := by
  have hfound := indexAtOffset_lt offset hlen
  refine ⟨⟨hfound, ?_⟩, fun i ⟨hi, hle⟩ ↦ ?_⟩
  · rw [offsetOf_of_lt hfound]
    exact (h.le_indexAtOffset_iff hstride offset hfound).mp le_rfl
  · rw [offsetOf_of_lt hi] at hle
    exact (h.le_indexAtOffset_iff hstride offset hi).mpr hle

theorem Nonneg.indexAtOffset_mono (hlen : 0 < measures.len) : Monotone measures.indexAtOffset := by
  intro offset later hle
  obtain ⟨hfound, hstart⟩ := (h.isGreatest_indexAtOffset hstride hlen offset).1
  exact (h.isGreatest_indexAtOffset hstride hlen later).2
    ⟨hfound, hstart.trans (max_le_max_left 0 hle)⟩

/-- An item is found by its own offset if the next one starts later. -/
theorem Nonneg.indexAtOffset_offsetOf (hindex : index < measures.len)
    (hadvances : 0 < measures.extentOf index ∨ 0 < measures.spacing) :
    measures.indexAtOffset (measures.offsetOf index) = index := by
  have hlen := Nat.zero_lt_of_lt hindex
  rw [offsetOf_of_lt hindex]
  have hfound := indexAtOffset_lt (measures.summedStart index) hlen
  have hle := (h.le_indexAtOffset_iff hstride _ hindex).mpr
    (le_max_right 0 (measures.summedStart index))
  have hstart := (h.le_indexAtOffset_iff hstride _ hfound).mp le_rfl
  rw [max_eq_right (h.summedStart index)] at hstart
  refine le_antisymm (Nat.le_of_not_lt fun hlater ↦ ?_) hle
  have hnext : measures.summedStart (index + 1) ≤ measures.summedStart index :=
    (h.summedStart_mono (Nat.succ_le_of_lt hlater)).trans hstart
  rw [summedStart_succ] at hnext
  have hextent := h.extentOf index
  have hspacing := h.spacing
  rcases hadvances with hadvances | hadvances <;> linarith

end Inverse

end Measures

/-! ### Strips -/

namespace Strip

variable {strip : Strip Rat}

/-- However a strip with items is built and edited, an item starts where the extents and the gaps
before it add up to, and what starts past the end starts where the content ends. Unless all items
start together without an extent of their own, an offset finds the last item that starts at or
before it, a later offset finds no earlier item, and an item with room behind its start is found by
its own offset. -/
theorem Built.offsets_sum_and_invert (h : strip.Built) (hlen : 0 < strip.len) :
    (∀ index < strip.len,
      strip.offsetOf index =
          ∑ i ∈ Finset.range index, strip.extentOf i + index * strip.spacing ∧
        strip.offsetOf index + strip.extentOf index ≤ strip.offsetOf (index + 1)) ∧
      strip.offsetOf 0 = 0 ∧
      strip.totalExtent =
        ∑ i ∈ Finset.range strip.len, strip.extentOf i + (strip.len - 1 : Nat) * strip.spacing ∧
      (∀ index, strip.len ≤ index → strip.offsetOf index = strip.totalExtent) ∧
      (strip.isUniform = false ∨ 0 < strip.uniform + strip.spacing →
        (∀ offset, IsGreatest {i | i < strip.len ∧ strip.offsetOf i ≤ max 0 offset}
          (strip.indexAtOffset offset)) ∧
        Monotone strip.indexAtOffset ∧
        ∀ index < strip.len, 0 < strip.extentOf index ∨ 0 < strip.spacing →
          strip.indexAtOffset (strip.offsetOf index) = index) := by
  obtain ⟨hsound, hnonneg⟩ := h.laid
  have hoffset : strip.offsetOf = strip.measures.offsetOf := funext hsound.offsetOf_eq
  have hfound : strip.indexAtOffset = strip.measures.indexAtOffset :=
    funext hsound.indexAtOffset_eq
  rw [hoffset, hfound, hsound.totalExtent_eq]
  refine ⟨fun index hindex ↦ ⟨Measures.offsetOf_eq_sum hindex, ?next⟩, ?zero,
    Measures.totalExtent_eq_sum hlen, fun index hindex ↦ Measures.offsetOf_of_le hindex,
    fun hdistinct ↦ ?found⟩
  case next => exact hnonneg.offsetOf_add_extentOf_le hindex
  case zero => exact Measures.offsetOf_of_lt hlen
  case found =>
    have hstride : strip.measures.isUniform = true → 0 < strip.measures.stride :=
      fun huniform ↦ hdistinct.resolve_left (ne_false_of_eq_true huniform)
    exact ⟨hnonneg.isGreatest_indexAtOffset hstride hlen, hnonneg.indexAtOffset_mono hstride hlen,
      fun index ↦ hnonneg.indexAtOffset_offsetOf hstride⟩

/-- A strip of four items, one of which has no extent: it starts together with the item behind it,
and their offset finds the latter. -/
theorem Built.offsets_sum_and_invert_shared :
    ∃ built : Strip Rat, ofUniform 4 10 = .ok built ∧
      let strip := (Step.runAll Call.perform
        [.edit (.setItemExtent 1 0), .query .totalExtent, .edit (.setItemExtent 3 25)] built).2
      strip.Built ∧ 0 < strip.len ∧ strip.isUniform = false ∧
        strip.offsetOf 3 = ∑ i ∈ Finset.range 3, strip.extentOf i + (3 : Nat) * strip.spacing ∧
        strip.totalExtent =
          ∑ i ∈ Finset.range 4, strip.extentOf i + (3 : Nat) * strip.spacing ∧
        IsGreatest {i | i < 4 ∧ strip.offsetOf i ≤ max 0 10} (strip.indexAtOffset 10) ∧
        strip.offsetOf 1 = strip.offsetOf 2 ∧ 0 < strip.extentOf 2 ∧
        strip.indexAtOffset (strip.offsetOf 2) = 2 := by
  refine ⟨_, rfl, ?_⟩
  intro strip
  have hbuilt : strip.Built := ⟨4, 10, _, _, rfl, rfl⟩
  have hlen : 0 < strip.len := by decide +kernel
  have howns : strip.isUniform = false := by decide +kernel
  have hwide : 0 < strip.extentOf 2 := by decide +kernel
  obtain ⟨hsums, -, htotal, -, hinverse⟩ := hbuilt.offsets_sum_and_invert hlen
  obtain ⟨hfound, -, hown⟩ := hinverse (.inl howns)
  refine ⟨hbuilt, hlen, howns, (hsums 3 (by decide +kernel)).1, htotal, hfound 10,
    by decide +kernel, hwide, hown 2 (by decide +kernel) (.inl hwide)⟩

end Strip

end Windowing
