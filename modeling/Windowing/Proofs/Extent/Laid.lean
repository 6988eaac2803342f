import Mathlib.Order.Monotone.Defs
import Mathlib.Tactic.Linarith
import Windowing.Proofs.Exact
import Windowing.Proofs.Extent.Afresh

/-!
# Items laid end to end

With exact numbers a model lays its items end to end: the tracks follow each other without
overlap, the last one ends where the content does, and the item found by an offset is on the last
track that starts there. A strip does this as long as its measures are not negative, and no call
makes them negative.

## Main definitions

* `ExtentModel.LaidOut` — a model over exact numbers whose tracks lie end to end.
* `Measures.Nonneg` — measures of which none is negative.

## Main results

* `lt_partitionPoint_iff` — what the binary search finds.
* `Measures.Nonneg.le_indexAtOffset_iff` — what an offset finds.
* `Measures.Nonneg.laidOut` — measures lay out their items.
* `Measures.Nonneg.perform` — and go on doing so, whatever calls are made.
-/

namespace Windowing

/-! ### Binary search -/

section Search

variable {S : Type} {holds : S → Bool} {entries : Array S} {low high : Nat}

theorem search_le (holds : S → Bool) (entries : Array S) (h : low ≤ high) :
    partitionPoint.search holds entries low high ≤ high := by
  fun_induction partitionPoint.search holds entries low high with
  | case1 low high hlt middle hholds ih => exact ih (by omega)
  | case2 low high hlt middle hholds ih =>
    have hmiddle : middle ≤ high := by omega
    exact Nat.le_trans (ih (by omega)) hmiddle
  | case3 => exact h

theorem partitionPoint_le_size (holds : S → Bool) (entries : Array S) :
    partitionPoint holds entries ≤ entries.size :=
  search_le holds entries (Nat.zero_le _)

/-- If all entries fail from the first failing one on, they fail from the one found on. -/
theorem any_eq_false_of_search_le
    (hmono : ∀ i j : Nat, i ≤ j → (entries[j]?).any holds = true → (entries[i]?).any holds = true)
    (hhigh : ∀ i, high ≤ i → (entries[i]?).any holds = false) {index : Nat}
    (h : partitionPoint.search holds entries low high ≤ index) :
    (entries[index]?).any holds = false := by
  fun_induction partitionPoint.search holds entries low high with
  | case1 low high hlt middle hholds ih => exact ih hhigh h
  | case2 low high hlt middle hholds ih =>
    refine ih (fun i hi ↦ ?_) h
    exact Bool.eq_false_iff.mpr fun htrue ↦ hholds (hmono _ _ hi htrue)
  | case3 low high hlt => exact hhigh index (Nat.le_trans (Nat.le_of_not_lt hlt) h)

/-- If all entries hold up to the last one that does, they hold before the one found. -/
theorem any_of_lt_search
    (hmono : ∀ i j : Nat, i ≤ j → (entries[j]?).any holds = true → (entries[i]?).any holds = true)
    (hlow : ∀ i < low, (entries[i]?).any holds = true) {index : Nat}
    (h : index < partitionPoint.search holds entries low high) :
    (entries[index]?).any holds = true := by
  fun_induction partitionPoint.search holds entries low high with
  | case1 low high hlt middle hholds ih =>
    exact ih (fun i hi ↦ hmono i middle (Nat.le_of_lt_succ hi) hholds) h
  | case2 low high hlt middle hholds ih => exact ih hlow h
  | case3 low high hlt => exact hlow index h

theorem lt_partitionPoint_iff
    (hmono : ∀ i j : Nat, i ≤ j → (entries[j]?).any holds = true → (entries[i]?).any holds = true)
    {index : Nat} : index < partitionPoint holds entries ↔ (entries[index]?).any holds = true := by
  refine ⟨any_of_lt_search hmono fun i hi ↦ absurd hi (Nat.not_lt_zero i),
    fun hholds ↦ Nat.lt_of_not_le fun hle ↦ ?_⟩
  have hfails : (entries[index]?).any holds = false := by
    refine any_eq_false_of_search_le hmono (fun i hi ↦ ?_) hle
    rw [Array.getElem?_eq_none hi, Option.any_none]
  exact Bool.false_ne_true (hfails.symm.trans hholds)

end Search

/-! ### Models that lay out their items -/

/-- The tracks of the model lie end to end: the items of one track start together, and end before
the next track starts and before the content ends. The item found by an offset is on the last
track that starts there, up to tracks that lie behind all content. -/
structure ExtentModel.LaidOut {M : Type} [ExtentModel M Rat] (model : M) : Prop where
  trackIndex_mono : Monotone (trackIndex model)
  offsetOf_zero : offsetOf model 0 = 0
  offsetOf_congr : ∀ i < len model, ∀ j < len model, trackIndex model i = trackIndex model j →
    offsetOf model i = offsetOf model j
  extentOf_ok : ∀ i < len model, ∃ extent, extentOf model i = .ok extent ∧ 0 ≤ extent ∧
    (∀ j < len model, trackIndex model i < trackIndex model j →
      offsetOf model i + extent ≤ offsetOf model j) ∧
    offsetOf model i + extent ≤ totalExtent model
  offsetOf_past : ∀ i, len model ≤ i → offsetOf model i = totalExtent model
  indexAtOffset_lt : ∀ offset, 0 < len model → indexAtOffset model offset < len model
  lt_offsetOf : ∀ offset, 0 ≤ offset → ∀ j < len model,
    trackIndex model (indexAtOffset model offset) < trackIndex model j →
      offset < offsetOf model j ∨ totalExtent model ≤ offsetOf model j

/-! ### Measures over exact numbers -/

namespace Measures

variable {measures : Measures Rat} {i j index : Nat}

/-- No extent and no gap is negative. -/
structure Nonneg (measures : Measures Rat) : Prop where
  uniform : 0 ≤ measures.uniform
  spacing : 0 ≤ measures.spacing
  override : ∀ index extent, measures.overrideOf index = some extent → 0 ≤ extent

theorem Nonneg.extentOf (h : measures.Nonneg) (index : Nat) : 0 ≤ measures.extentOf index := by
  rw [Measures.extentOf]
  cases hown : measures.overrideOf index with
  | none => exact h.uniform
  | some extent => exact h.override index extent hown

theorem summedStart_succ (measures : Measures Rat) (index : Nat) :
    measures.summedStart (index + 1) =
      measures.summedStart index + measures.extentOf index + measures.spacing := rfl

/-- An item ends before any later one starts. -/
theorem Nonneg.summedStart_add_le (h : measures.Nonneg) (hij : i < j) :
    measures.summedStart i + measures.extentOf i ≤ measures.summedStart j := by
  induction hij with
  | refl =>
    have hspacing := h.spacing
    rw [summedStart_succ]
    linarith
  | @step j hj ih =>
    have hextent := h.extentOf j
    have hspacing := h.spacing
    rw [summedStart_succ]
    linarith

theorem Nonneg.summedStart_mono (h : measures.Nonneg) : Monotone measures.summedStart := by
  refine monotone_nat_of_le_succ fun index ↦ ?_
  have hextent := h.extentOf index
  have hnext := h.summedStart_add_le (Nat.lt_succ_self index)
  linarith

theorem extentOf_of_isUniform (h : measures.isUniform = true) (index : Nat) :
    measures.extentOf index = measures.uniform := by
  have hnone : measures.overrideOf index = none :=
    Std.TreeMap.getElem?_eq_none (Std.TreeMap.isEmpty_iff_forall_not_mem.mp h index)
  rw [extentOf, hnone, Option.getD_none]

/-- With exact numbers a multiple of the stride is the sum of that many extents and gaps. -/
theorem summedStart_of_isUniform (h : measures.isUniform = true) (index : Nat) :
    measures.summedStart index = index * measures.stride := by
  induction index with
  | zero => simp [summedStart]
  | succ index ih =>
    rw [summedStart_succ, ih, extentOf_of_isUniform h, Nat.cast_succ, stride]
    linarith

theorem startOf_eq_summedStart (measures : Measures Rat) (index : Nat) :
    measures.startOf index = measures.summedStart index := by
  rw [startOf]
  cases huniform : measures.isUniform with
  | false => rfl
  | true =>
    rw [if_pos rfl, summedStart_of_isUniform huniform]
    split
    · next hzero => simp [hzero]
    · rfl

theorem offsetOf_of_lt (hindex : index < measures.len) :
    measures.offsetOf index = measures.summedStart index := by
  rw [offsetOf, if_neg (Nat.ne_of_gt (Nat.zero_lt_of_lt hindex)), if_pos hindex,
    startOf_eq_summedStart]

theorem offsetOf_of_le (hindex : measures.len ≤ index) :
    measures.offsetOf index = measures.totalExtent := by
  rw [totalExtent, offsetOf, offsetOf, if_neg (Nat.not_lt.mpr hindex), if_neg (Nat.lt_irrefl _)]

theorem totalExtent_eq (hlen : 0 < measures.len) :
    measures.totalExtent =
      measures.summedStart (measures.len - 1) + measures.extentOf (measures.len - 1) := by
  rw [totalExtent, offsetOf, if_neg (Nat.ne_of_gt hlen), if_neg (Nat.lt_irrefl _),
    startOf_eq_summedStart]

theorem Nonneg.summedStart_add_le_totalExtent (h : measures.Nonneg)
    (hindex : index < measures.len) :
    measures.summedStart index + measures.extentOf index ≤ measures.totalExtent := by
  rw [totalExtent_eq (Nat.zero_lt_of_lt hindex)]
  rcases Nat.eq_or_lt_of_le (Nat.le_sub_one_of_lt hindex) with rfl | hlt
  · exact le_rfl
  · have hends := h.summedStart_add_le hlt
    have hextent := h.extentOf (measures.len - 1)
    linarith

/-! ### Finding items -/

theorem indexAtOffset_lt (offset : Rat) (hlen : 0 < measures.len) :
    measures.indexAtOffset offset < measures.len := by
  rw [indexAtOffset, if_neg (Nat.ne_of_gt hlen)]
  dsimp only
  split
  · split
    · exact hlen
    · exact Nat.lt_of_le_of_lt (Nat.min_le_right _ _) (Nat.sub_one_lt_of_lt hlen)
  · have hle := partitionPoint_le_size (Scalar.le · (Scalar.nonNegative offset)) measures.allStarts
    rw [allStarts, Array.size_map, Array.size_range] at hle
    rw [allStarts]
    omega

theorem Nonneg.stride (h : measures.Nonneg) : 0 ≤ measures.stride :=
  add_nonneg h.uniform h.spacing

theorem Nonneg.summedStart (h : measures.Nonneg) (index : Nat) : 0 ≤ measures.summedStart index :=
  h.summedStart_mono (Nat.zero_le index)

/-- Without a stride all items start together, and there is no content. -/
theorem Nonneg.totalExtent_of_stride_eq_zero (h : measures.Nonneg)
    (huniform : measures.isUniform = true) (hstride : measures.stride = 0)
    (hlen : 0 < measures.len) : measures.totalExtent = 0 := by
  have hshared : measures.uniform = 0 :=
    le_antisymm (hstride ▸ le_add_of_nonneg_right h.spacing) h.uniform
  rw [totalExtent_eq hlen, summedStart_of_isUniform huniform, extentOf_of_isUniform huniform,
    hstride, hshared, mul_zero, add_zero]

/-- The binary search finds how many items start at or before an offset. -/
theorem Nonneg.lt_partitionPoint_allStarts_iff (h : measures.Nonneg) (offset : Rat) :
    j < partitionPoint (Scalar.le · offset) measures.allStarts ↔
      j < measures.len ∧ measures.summedStart j ≤ offset := by
  have hentry (i : Nat) : (measures.allStarts[i]?).any (Scalar.le · offset) = true ↔
      i < measures.len ∧ measures.summedStart i ≤ offset := by
    by_cases hi : i < measures.len <;> simp [allStarts, hi]
  refine (lt_partitionPoint_iff fun i j hij hholds ↦ ?_).trans (hentry j)
  obtain ⟨hlt, hle⟩ := (hentry j).mp hholds
  exact (hentry i).mpr ⟨Nat.lt_of_le_of_lt hij hlt, (h.summedStart_mono hij).trans hle⟩

/-- Without own extents an offset is divided by the stride. -/
theorem le_quotient_iff {offset : Rat} (huniform : measures.isUniform = true)
    (hstride : 0 < measures.stride) (hj : j < measures.len) :
    j ≤ Nat.min ⌊offset / measures.stride⌋.toNat (measures.len - 1) ↔
      j = 0 ∨ measures.summedStart j ≤ offset := by
  have hquotient : (j : Int) ≤ ⌊offset / measures.stride⌋ ↔ measures.summedStart j ≤ offset := by
    rw [Int.le_floor, Int.cast_natCast, le_div_iff₀ hstride, summedStart_of_isUniform huniform]
  have hmin : j ≤ Nat.min ⌊offset / measures.stride⌋.toNat (measures.len - 1) ↔
      j ≤ ⌊offset / measures.stride⌋.toNat ∧ j ≤ measures.len - 1 := le_min_iff
  rw [hmin, ← hquotient]
  omega

/-- Unless all items share one start without any of them having an extent of its own, an offset
finds the last item that starts at or before it. -/
theorem Nonneg.le_indexAtOffset_iff (h : measures.Nonneg)
    (hstride : measures.isUniform = true → 0 < measures.stride) (offset : Rat)
    (hj : j < measures.len) :
    j ≤ measures.indexAtOffset offset ↔ measures.summedStart j ≤ max 0 offset := by
  have hlen := Nat.zero_lt_of_lt hj
  have hfirst : measures.summedStart 0 ≤ max 0 offset := le_max_left 0 offset
  rw [indexAtOffset, if_neg (Nat.ne_of_gt hlen)]
  simp only [Scalar.nonNegative_eq, Scalar.le_eq, Scalar.zero_eq, decide_eq_true_eq,
    Scalar.floorToInt_eq]
  cases huniform : measures.isUniform with
  | true =>
    rw [if_pos rfl, if_neg (not_le.mpr (hstride huniform)),
      le_quotient_iff huniform (hstride huniform) hj]
    refine or_iff_right_of_imp fun hzero ↦ ?_
    rwa [hzero]
  | false =>
    rw [if_neg Bool.false_ne_true]
    have hone := (h.lt_partitionPoint_allStarts_iff (max 0 offset)).mpr ⟨hlen, hfirst⟩
    have hfound := h.lt_partitionPoint_allStarts_iff (j := j) (max 0 offset)
    simp only [hj, true_and, Scalar.le_eq] at hone hfound
    rw [← hfound]
    omega

/-- Items behind the one that is found start later, unless there is no content. -/
theorem Nonneg.lt_summedStart (h : measures.Nonneg) {offset : Rat} (hoffset : 0 ≤ offset)
    (hj : j < measures.len) (hlt : measures.indexAtOffset offset < j) :
    offset < measures.summedStart j ∨ measures.totalExtent ≤ measures.summedStart j := by
  by_cases hstride : measures.isUniform = true → 0 < measures.stride
  · left
    have hlater := mt (h.le_indexAtOffset_iff hstride offset hj).mpr (Nat.not_le.mpr hlt)
    rw [max_eq_right hoffset] at hlater
    exact not_le.mp hlater
  · right
    obtain ⟨huniform, hnone⟩ := Classical.not_imp.mp hstride
    rw [h.totalExtent_of_stride_eq_zero huniform (le_antisymm (not_lt.mp hnone) h.stride)
      (Nat.zero_lt_of_lt hj)]
    exact h.summedStart j

theorem Nonneg.laidOut (h : measures.Nonneg) : ExtentModel.LaidOut measures where
  trackIndex_mono := monotone_id
  offsetOf_zero := by
    by_cases hlen : 0 < measures.len
    · exact offsetOf_of_lt hlen
    · exact if_pos (Nat.eq_zero_of_not_pos hlen)
  offsetOf_congr i _ j _ hij := congrArg _ hij
  extentOf_ok i hi := by
    refine ⟨measures.extentOf i, rfl, h.extentOf i, fun j hj hij ↦ ?_, ?_⟩
    · change measures.offsetOf i + measures.extentOf i ≤ measures.offsetOf j
      rw [offsetOf_of_lt hi, offsetOf_of_lt hj]
      exact h.summedStart_add_le hij
    · change measures.offsetOf i + measures.extentOf i ≤ measures.totalExtent
      rw [offsetOf_of_lt hi]
      exact h.summedStart_add_le_totalExtent hi
  offsetOf_past i hi := offsetOf_of_le hi
  indexAtOffset_lt := indexAtOffset_lt
  lt_offsetOf offset hoffset j hj hlt := by
    change offset < measures.offsetOf j ∨ measures.totalExtent ≤ measures.offsetOf j
    rw [offsetOf_of_lt hj]
    exact h.lt_summedStart hoffset hj hlt

/-! ### Calls keep measures from being negative -/

theorem nonneg_of_checkedExtent {extent checked : Rat}
    (h : checkedExtent extent = .ok checked) : 0 ≤ checked := by
  obtain rfl := Except.ok.inj h
  rw [Scalar.nonNegative_eq]
  exact le_max_left 0 extent

/-- No call makes a measure negative. -/
theorem Edited.nonneg {call : Strip.Call Rat} {after : Measures Rat}
    (hedited : Edited call measures after) (h : measures.Nonneg) : after.Nonneg := by
  refine ⟨?uniform, ?spacing, fun i own hown ↦ ?override⟩
  case uniform =>
    cases hedited with
    | setUniform hchecked => exact nonneg_of_checkedExtent hchecked
    | _ => exact h.uniform
  case spacing =>
    cases hedited with
    | setSpacing hchecked => exact nonneg_of_checkedExtent hchecked
    | _ => exact h.spacing
  case override =>
    rw [overrideOf] at hown
    cases hedited with
    | setLen len =>
      simp only [Measures.setLen] at hown
      split at hown
      · simp only [Std.TreeMap.getElem?_filter, Option.pfilter_eq_some_iff] at hown
        obtain ⟨hown, -⟩ := hown
        exact h.override i own hown
      · exact h.override i own hown
    | @setOverride index extent checked _ hindex hchecked =>
      rw [Std.TreeMap.getElem?_insert] at hown
      split at hown
      · exact Option.some.inj hown ▸ nonneg_of_checkedExtent hchecked
      · exact h.override i own hown
    | clearOverride index =>
      rw [Std.TreeMap.getElem?_erase] at hown
      split at hown
      · cases hown
      · exact h.override i own hown
    | clearOverrides => cases (Std.TreeMap.getElem?_emptyc.symm.trans hown)
    | setUniform | setSpacing => exact h.override i own hown

theorem Nonneg.perform (h : measures.Nonneg) (call : Strip.Call Rat) :
    ((Measures.perform call).after measures).Nonneg := by
  rcases after_eq_or_edited call measures with hsame | hedited
  · rwa [hsame]
  · exact hedited.nonneg h

end Measures

end Windowing
