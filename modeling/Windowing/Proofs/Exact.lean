import Mathlib.Algebra.Order.Ring.Rat
import Mathlib.Data.Rat.Floor
import Windowing.Geometry

/-!
# Exact numbers as scalars

For exact numbers the operations of a scalar are those of the ordered field. The lemmas here
rewrite the operations, so that what is proved for exact numbers is proved with the usual order.

## Main results

* `Scalar.le_eq`, `Scalar.lt_eq`, `Scalar.gt_eq` — comparisons decide the order.
* `Scalar.nonNegative_eq`, `Scalar.max_eq`, `Scalar.min_eq` — the ranges.
* `Size.eq_iff`, `Point.eq_iff` — comparisons of sizes and positions decide equality.
-/

namespace Windowing

namespace Scalar

variable {a b : Rat}

@[simp]
theorem zero_eq : (zero : Rat) = 0 := rfl

@[simp]
theorem floorToInt_eq (a : Rat) : floorToInt a = ⌊a⌋ := rfl

/-! ### Comparisons -/

theorem compare?_of_lt (h : a < b) : compare? a b = some .lt :=
  congrArg some (if_pos h)

theorem compare?_of_gt (h : b < a) : compare? a b = some .gt :=
  congrArg some ((if_neg h.not_gt).trans (if_pos h))

theorem compare?_self (a : Rat) : compare? a a = some .eq :=
  congrArg some ((if_neg (lt_irrefl a)).trans (if_neg (lt_irrefl a)))

@[simp]
theorem lt_eq (a b : Rat) : lt a b = decide (a < b) := by
  rcases lt_trichotomy a b with h | rfl | h
  · simp [lt, compare?_of_lt h, h]
  · simp [lt, compare?_self]
  · simp [lt, compare?_of_gt h, h.le]

@[simp]
theorem gt_eq (a b : Rat) : gt a b = decide (b < a) := by
  rcases lt_trichotomy a b with h | rfl | h
  · simp [gt, compare?_of_lt h, h.le]
  · simp [gt, compare?_self]
  · simp [gt, compare?_of_gt h, h]

@[simp]
theorem le_eq (a b : Rat) : le a b = decide (a ≤ b) := by
  rcases lt_trichotomy a b with h | rfl | h
  · simp [le, compare?_of_lt h, h.le]
  · simp [le, compare?_self]
  · simp [le, compare?_of_gt h, h.not_ge]

@[simp]
theorem ge_eq (a b : Rat) : ge a b = decide (b ≤ a) := by
  rcases lt_trichotomy a b with h | rfl | h
  · simp [ge, compare?_of_lt h, h]
  · simp [ge, compare?_self]
  · simp [ge, compare?_of_gt h, h.le]

@[simp]
theorem eq_eq (a b : Rat) : eq a b = decide (a = b) := by
  rcases lt_trichotomy a b with h | rfl | h
  · simp [eq, compare?_of_lt h, h.ne]
  · simp [eq, compare?_self]
  · simp [eq, compare?_of_gt h, h.ne']

/-! ### Ranges -/

@[simp]
theorem nonNegative_eq (a : Rat) : nonNegative a = Max.max 0 a := by
  simp only [nonNegative, isSignNegative, compare?, Option.isNone_some, Bool.or_false,
    decide_eq_true_eq, zero_eq]
  split
  · next h => exact (max_eq_left h.le).symm
  · next h => exact (max_eq_right (not_lt.mp h)).symm

@[simp]
theorem max_eq (a b : Rat) : max a b = Max.max a b := by
  simp only [max]
  split
  · next h => exact (max_eq_right h.le).symm
  · next h => exact (max_eq_left (not_lt.mp h)).symm

@[simp]
theorem min_eq (a b : Rat) : min a b = Min.min a b := by
  simp only [min]
  split
  · next h => exact (min_eq_right h.le).symm
  · next h => exact (min_eq_left (not_lt.mp h)).symm

end Scalar

/-! ### Sizes and positions -/

theorem Size.eq_iff {a b : Size Rat} : a.eq b = true ↔ a = b := by
  cases a
  cases b
  simp [Size.eq]

theorem Point.eq_iff {p q : Point Rat} : p.eq q = true ↔ p = q := by
  cases p
  cases q
  simp [Point.eq]

end Windowing
