/-!
# Ranges of indices

A half-open range of indices, from `start` to before `stop`. A range that stops before it
starts holds nothing.

## Main definitions

* `IndexRange` — the range, its members in order and its size.
* `IndexRange.leaving` — the members of one range that are not in another.
-/

namespace Windowing

/-- The indices from `start` to before `stop`. -/
structure IndexRange where
  /-- The first index of the range. -/
  start : Nat
  /-- The index behind the last one of the range. -/
  stop : Nat
deriving DecidableEq

namespace IndexRange

/-- The range at zero that holds nothing. -/
def empty : IndexRange :=
  ⟨0, 0⟩

/-- Whether the range holds nothing. -/
def isEmpty (range : IndexRange) : Bool :=
  range.stop ≤ range.start

/-- The number of indices in the range. -/
def size (range : IndexRange) : Nat :=
  range.stop - range.start

/-- The first index of the range. -/
def first? (range : IndexRange) : Option Nat :=
  if range.isEmpty then none else some range.start

/-- The last index of the range. -/
def last? (range : IndexRange) : Option Nat :=
  if range.isEmpty then none else some (range.stop - 1)

/-- Whether an index is in the range. -/
def contains (range : IndexRange) (index : Nat) : Bool :=
  range.start ≤ index && index < range.stop

/-- The indices of the range, in order. -/
def toList (range : IndexRange) : List Nat :=
  List.range' range.start range.size

/-- The indices of `old` that are not in `new`: those before it, and those behind it. -/
def leaving (old new : IndexRange) : List Nat :=
  toList ⟨old.start, Nat.min old.stop new.start⟩ ++ toList ⟨Nat.max old.start new.stop, old.stop⟩

/-! ### Members -/

theorem contains_iff {range : IndexRange} {index : Nat} :
    range.contains index = true ↔ range.start ≤ index ∧ index < range.stop := by
  simp [contains]

@[simp]
theorem mem_toList {range : IndexRange} {index : Nat} :
    index ∈ range.toList ↔ range.start ≤ index ∧ index < range.stop := by
  simp only [toList, size, List.mem_range'_1]
  omega

@[simp]
theorem length_toList (range : IndexRange) : range.toList.length = range.size := by
  simp [toList]

/-- The indices that leave are those in the old range and not in the new one. -/
theorem mem_leaving {old new : IndexRange} {index : Nat} :
    index ∈ leaving old new ↔ old.contains index = true ∧ new.contains index = false := by
  simp only [leaving, List.mem_append, mem_toList, Nat.lt_min, Nat.max_le, contains_iff,
    ← Bool.not_eq_true]
  omega

theorem contains_iff_mem_toList {range : IndexRange} {index : Nat} :
    range.contains index = true ↔ index ∈ range.toList := by
  rw [contains_iff, mem_toList]

theorem not_mem_toList_of_mem_leaving {old new : IndexRange} {index : Nat}
    (h : index ∈ leaving old new) : index ∉ new.toList := by
  rw [← contains_iff_mem_toList, (mem_leaving.mp h).2]
  exact Bool.false_ne_true

/-- A range lists its indices in order. -/
theorem pairwise_toList (range : IndexRange) : range.toList.Pairwise (· < ·) :=
  List.pairwise_lt_range' ..

/-- The indices that leave are listed in order, those before the new range first. -/
theorem pairwise_leaving (old : IndexRange) {new : IndexRange} (hnew : new.start ≤ new.stop) :
    (leaving old new).Pairwise (· < ·) := by
  refine List.pairwise_append.mpr ⟨pairwise_toList _, pairwise_toList _, fun i hi j hj ↦ ?_⟩
  rw [mem_toList] at hi hj
  have hbefore : i < new.start := (Nat.lt_min.mp hi.2).2
  have hbehind : new.stop ≤ j := (Nat.max_le.mp hj.1).2
  omega

/-- A range holds nothing exactly when its size is zero. -/
theorem isEmpty_iff_size_eq_zero {range : IndexRange} :
    range.isEmpty = true ↔ range.size = 0 := by
  simp [isEmpty, size, Nat.sub_eq_zero_iff_le]

end IndexRange

end Windowing
