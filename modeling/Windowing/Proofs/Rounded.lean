import Mathlib
import Windowing.Proofs.Resizing
import Windowing.Scalar.Binary

/-!
# Rounded numbers as scalars

The values of a binary format that are numbers have places in a linear order, by sign, exponent and
mantissa, where both zeros are at the same one. Values compare by their places, and a value that is
no number has none. Clamping an offset rests on comparisons alone, so it is as lawful in the binary
formats as it is for exact numbers, whatever their sums are rounded to.

## Main definitions

* `ScalarPlaces` — a scalar whose values compare by their places.
* `floatPlace?` — the place of a floating-point number.
* `ScalarFloats` — a scalar whose values compare as the floating-point numbers that they stand for.

## Main results

* `ScalarPlaces.lawfulOffsets` — values that compare by their places are clamped lawfully.
* `floatCompare_eq` — floating-point numbers compare by their places.
* the instances of `LawfulOffsets` for `Binary64` and `Binary32`.
-/

namespace Windowing

open Float.Model (UnpackedFloat Format)
open Float.Model.UnpackedFloat (Sign unpack unpackSign)
open Scalar (IsOffset)

/-! ### Comparisons -/

section

variable {S : Type} [Scalar S] {a b : S}

theorem Scalar.eq_iff_compare? : Scalar.eq a b = true ↔ Scalar.compare? a b = some .eq := by
  rw [Scalar.eq]
  split <;> simp_all

theorem Scalar.lt_iff_compare? : Scalar.lt a b = true ↔ Scalar.compare? a b = some .lt := by
  rw [Scalar.lt]
  split <;> simp_all

theorem Scalar.gt_iff_compare? : Scalar.gt a b = true ↔ Scalar.compare? a b = some .gt := by
  rw [Scalar.gt]
  split <;> simp_all

end

/-! ### Values with places -/

/-- The values of a scalar that are numbers have places in a linear order and compare by them, with
zero at the place `origin`. A value that has no place is unordered with all others. -/
structure ScalarPlaces {S L : Type} [Scalar S] [LinearOrder L] (place? : S → Option L)
    (origin : L) : Prop where
  compare?_eq : ∀ a b : S,
    Scalar.compare? a b = (place? a).bind fun k ↦ (place? b).map fun l ↦ compare k l
  place?_zero : place? Scalar.zero = some origin
  sign : ∀ {a : S} {k : L}, place? a = some k →
    if Scalar.isSignNegative a then k ≤ origin else origin ≤ k
  max_eq : ∀ a b : S, Scalar.max a b = if Scalar.lt a b ∨ place? a = none then b else a
  min_eq : ∀ a b : S, Scalar.min a b = if Scalar.lt b a ∨ place? a = none then b else a

namespace ScalarPlaces

variable {S L : Type} [Scalar S] [LinearOrder L] {place? : S → Option L} {origin : L}
  (h : ScalarPlaces place? origin) {a b : S} {k l : L}

include h

theorem compare?_eq_some_iff {order : Ordering} : Scalar.compare? a b = some order ↔
    ∃ k l, place? a = some k ∧ place? b = some l ∧ compare k l = order := by
  simp [h.compare?_eq, Option.bind_eq_some_iff, Option.map_eq_some_iff]

theorem eq_iff : Scalar.eq a b = true ↔ ∃ k, place? a = some k ∧ place? b = some k := by
  simp [Scalar.eq_iff_compare?, h.compare?_eq_some_iff]

theorem lt_iff : Scalar.lt a b = true ↔ ∃ k l, place? a = some k ∧ place? b = some l ∧ k < l := by
  simp [Scalar.lt_iff_compare?, h.compare?_eq_some_iff, compare_lt_iff_lt]

theorem gt_iff : Scalar.gt a b = true ↔ ∃ k l, place? a = some k ∧ place? b = some l ∧ l < k := by
  simp [Scalar.gt_iff_compare?, h.compare?_eq_some_iff, compare_gt_iff_gt]

/-- A number comes before another one if it has the nearer place. -/
theorem lt_eq (ha : place? a = some k) (hb : place? b = some l) :
    Scalar.lt a b = decide (k < l) := by
  rw [Bool.eq_iff_iff, h.lt_iff, decide_eq_true_eq]
  simp [ha, hb]

/-- A number goes past another one if it has the further place. -/
theorem gt_eq (ha : place? a = some k) (hb : place? b = some l) :
    Scalar.gt a b = decide (l < k) := by
  rw [Bool.eq_iff_iff, h.gt_iff, decide_eq_true_eq]
  simp [ha, hb]

/-! ### Ranges of such values -/

/-- The larger of a value and a number is at the further place of the two, or at that of the number
if the value has none. -/
theorem place?_max (hb : place? b = some l) :
    place? (Scalar.max a b) = some (((place? a).map (max · l)).getD l) := by
  rw [h.max_eq]
  cases ha : place? a with
  | none => rw [if_pos (.inr rfl), hb]; rfl
  | some k =>
    rw [h.lt_eq ha hb]
    rcases lt_or_ge k l with hlt | hge
    · simp [hb, hlt, hlt.le]
    · simp [ha, hge.not_gt, hge]

/-- The smaller of a value and a number is at the nearer place of the two, or at that of the number
if the value has none. -/
theorem place?_min (hb : place? b = some l) :
    place? (Scalar.min a b) = some (((place? a).map (min · l)).getD l) := by
  rw [h.min_eq]
  cases ha : place? a with
  | none => rw [if_pos (.inr rfl), hb]; rfl
  | some k =>
    rw [h.lt_eq hb ha]
    rcases lt_or_ge l k with hlt | hge
    · simp [hb, hlt, hlt.le]
    · simp [ha, hge.not_gt, hge]

/-- A value that is read as an extent is at its own place, but not before zero. -/
theorem place?_nonNegative :
    place? (Scalar.nonNegative a) = some (((place? a).map (max origin)).getD origin) := by
  rw [Scalar.nonNegative, h.compare?_eq, h.place?_zero]
  cases ha : place? a with
  | none => simp [h.place?_zero]
  | some k =>
    have hsign := h.sign ha
    cases hnegative : Scalar.isSignNegative a with
    | true =>
      rw [if_pos hnegative] at hsign
      simp [h.place?_zero, hsign]
    | false =>
      rw [hnegative, if_neg Bool.false_ne_true] at hsign
      simp [ha, hsign]

/-- The offsets are the numbers that are not before zero. -/
theorem isOffset_iff : IsOffset a ↔ ∃ k, place? a = some k ∧ origin ≤ k := by
  rw [IsOffset, h.eq_iff, h.place?_nonNegative]
  cases place? a <;> simp

/-- The smaller of two numbers is the same as the one that a comparison picks. -/
theorem eq_min_ite (ha : place? a = some k) (hb : place? b = some l) {c : S}
    (hc : place? c = some (min k l)) : Scalar.eq c (if Scalar.gt a b then b else a) = true := by
  refine h.eq_iff.mpr ⟨min k l, hc, ?_⟩
  rw [h.gt_eq ha hb]
  rcases lt_or_ge l k with hlt | hge
  · simp [hlt, hlt.le, hb]
  · simp [hge.not_gt, hge, ha]

/-- Values that compare by their places are clamped as offsets have to be. -/
theorem lawfulOffsets : LawfulOffsets S where
  gt_self a := by
    rw [Bool.eq_false_iff, Ne, h.gt_iff]
    rintro ⟨k, l, hk, hl, hlt⟩
    exact hlt.ne (Option.some.inj (hl.symm.trans hk))
  gt_min a b := by
    rw [Bool.eq_false_iff, Ne, h.gt_iff]
    rintro ⟨k, l, hk, hl, hlt⟩
    rw [h.place?_min hl, Option.some_inj] at hk
    subst hk
    cases ha : place? a <;> simp [ha] at hlt
  zero_gt_max a := by
    rw [h.gt_eq h.place?_zero (h.place?_max h.place?_zero), decide_eq_false_iff_not, not_lt]
    cases place? a <;> simp
  isOffset_zero := h.isOffset_iff.mpr ⟨origin, h.place?_zero, le_rfl⟩
  isOffset_max a := by
    refine h.isOffset_iff.mpr ⟨_, h.place?_max h.place?_zero, ?_⟩
    cases place? a <;> simp
  isOffset_min a b hb := by
    obtain ⟨l, hl, hle⟩ := h.isOffset_iff.mp hb
    refine h.isOffset_iff.mpr ⟨_, h.place?_min hl, ?_⟩
    cases ha : place? a <;> simp [h.place?_nonNegative, ha, hle]
  eq_clamped a b ha hb := by
    obtain ⟨k, hk, hka⟩ := h.isOffset_iff.mp ha
    obtain ⟨l, hl, -⟩ := h.isOffset_iff.mp hb
    refine h.eq_min_ite hk hl ?_
    simp [h.place?_min hl, h.place?_nonNegative, hk, hka]
  eq_symm hab := by
    obtain ⟨k, ha, hb⟩ := h.eq_iff.mp hab
    exact h.eq_iff.mpr ⟨k, hb, ha⟩
  eq_trans hab hbc := by
    obtain ⟨k, ha, hb⟩ := h.eq_iff.mp hab
    obtain ⟨l, hb', hc⟩ := h.eq_iff.mp hbc
    obtain rfl : k = l := Option.some.inj (hb.symm.trans hb')
    exact h.eq_iff.mpr ⟨k, ha, hc⟩
  gt_congr c hab := by
    obtain ⟨k, ha, hb⟩ := h.eq_iff.mp hab
    rw [Bool.eq_iff_iff, h.gt_iff, h.gt_iff, ha, hb]
  eq_min ha hb := by
    obtain ⟨k, hk, -⟩ := h.isOffset_iff.mp ha
    obtain ⟨l, hl, -⟩ := h.isOffset_iff.mp hb
    refine h.eq_min_ite hk hl ?_
    simp [h.place?_min hl, hk]

end ScalarPlaces

/-! ### Floating-point numbers -/

/-- The place of a floating-point number among all of them: by its sign, then by its exponent, then
by its mantissa. The infinities are at the ends. -/
def floatPlace? : UnpackedFloat → Option (ℤ ×ₗ ℤ ×ₗ ℤ)
  | .notANumber => none
  | .infinity .negative => some (toLex (-2, toLex (0, 0)))
  | .finite .negative mantissa exponent _ => some (toLex (-1, toLex (-exponent, -mantissa)))
  | .zero _ => some (toLex (0, toLex (0, 0)))
  | .finite .positive mantissa exponent _ => some (toLex (1, toLex (exponent, mantissa)))
  | .infinity .positive => some (toLex (2, toLex (0, 0)))

/-- The place of both zeros. -/
def floatOrigin : ℤ ×ₗ ℤ ×ₗ ℤ :=
  toLex (0, toLex (0, 0))

theorem compare_toLex_natCast (m n : ℕ) (e f : ℤ) :
    compare (toLex (e, (m : ℤ))) (toLex (f, (n : ℤ))) = (compare e f).then (compare m n) := by
  have hcast : compare (m : ℤ) n = compare m n := by
    cases h : compare m n <;> simp_all [compare_lt_iff_lt, compare_gt_iff_gt]
  rw [← hcast, Prod.Lex.compare_def]
  rfl

theorem compare_toLex_neg (m n : ℕ) (e f : ℤ) :
    compare (toLex (-e, -(m : ℤ))) (toLex (-f, -(n : ℤ))) =
      ((compare e f).then (compare m n)).swap := by
  have hneg (a b : ℤ) : compare (-a) (-b) = (compare a b).swap := by
    cases h : compare a b <;> simp_all [compare_lt_iff_lt, compare_gt_iff_gt]
  rw [← compare_toLex_natCast, Prod.Lex.compare_def]
  change (compare (-e) (-f)).then (compare (-(m : ℤ)) (-n)) =
    ((compare e f).then (compare (m : ℤ) n)).swap
  rw [hneg, hneg, Ordering.swap_then]

/-- Floating-point numbers compare by their places. -/
theorem floatCompare_eq (x y : UnpackedFloat) : x.compare y =
    (floatPlace? x).bind fun k ↦ (floatPlace? y).map fun l ↦ compare k l := by
  rcases x with (_ | _) | _ | _ | ⟨_ | _, m, e, hm⟩ <;>
    rcases y with (_ | _) | _ | _ | ⟨_ | _, n, f, hn⟩
  -- only finite numbers of the same sign do not compare by the first component alone
  any_goals rfl
  · exact congrArg some (compare_toLex_neg m n e f).symm
  · exact congrArg some (compare_toLex_natCast m n e f).symm

theorem floatCompare_swap (x y : UnpackedFloat) :
    y.compare x = (x.compare y).map Ordering.swap := by
  rw [floatCompare_eq, floatCompare_eq]
  cases hx : floatPlace? x with
  | none => cases floatPlace? y <;> rfl
  | some k =>
    cases hy : floatPlace? y with
    | none => rfl
    | some l => exact congrArg some Std.OrientedCmp.eq_swap

/-- The order of two numbers is found by asking whether one is less and whether they are equal. -/
theorem floatCompare_eq_ite (x y : UnpackedFloat) : x.compare y =
    if x.lt y then some .lt else if y.lt x then some .gt
    else if x.beq y then some .eq else none := by
  rw [UnpackedFloat.lt, UnpackedFloat.lt, UnpackedFloat.beq, floatCompare_swap x y]
  rcases x.compare y with _ | _ | _ | _ <;> rfl

theorem floatPlace?_eq_none_iff {x : UnpackedFloat} :
    floatPlace? x = none ↔ x.isNaN = true := by
  rcases x with (_ | _) | _ | _ | ⟨_ | _, mantissa, exponent, hmantissa⟩ <;>
    simp [floatPlace?, UnpackedFloat.isNaN]

/-- The sign of a number. -/
def floatSign? : UnpackedFloat → Option Sign
  | .notANumber => none
  | .infinity sign => some sign
  | .zero sign => some sign
  | .finite sign _ _ _ => some sign

/-- A number is at its place on the side of zero that its sign says. -/
theorem floatSign?_of_place {x : UnpackedFloat} {k : ℤ ×ₗ ℤ ×ₗ ℤ} (h : floatPlace? x = some k) :
    floatSign? x = some .positive ∧ floatOrigin ≤ k ∨
      floatSign? x = some .negative ∧ k ≤ floatOrigin := by
  have hpositive {i : ℤ} (hi : 0 < i) (l : ℤ ×ₗ ℤ) : floatOrigin ≤ toLex (i, l) :=
    Prod.Lex.toLex_le_toLex.mpr (.inl hi)
  have hnegative {i : ℤ} (hi : i < 0) (l : ℤ ×ₗ ℤ) : toLex (i, l) ≤ floatOrigin :=
    Prod.Lex.toLex_le_toLex.mpr (.inl hi)
  rcases x with (_ | _) | _ | (_ | _) | ⟨_ | _, mantissa, exponent, hmantissa⟩
  case notANumber => cases h
  all_goals obtain rfl := Option.some.inj h
  · exact .inr ⟨rfl, hnegative (by decide) _⟩
  · exact .inl ⟨rfl, hpositive (by decide) _⟩
  · exact .inr ⟨rfl, le_rfl⟩
  · exact .inl ⟨rfl, le_rfl⟩
  · exact .inr ⟨rfl, hnegative (by decide) _⟩
  · exact .inl ⟨rfl, hpositive (by decide) _⟩

/-- The sign of a number is that of its pattern. -/
theorem unpackSign_of_floatSign? {spec : Format} {b : BitVec spec.numBits} {sign : Sign}
    (h : floatSign? (unpack spec b) = some sign) : unpackSign b = sign.toBitVec := by
  have hsign : sign = .ofBitVec (unpackSign b) := by
    revert h
    fun_cases unpack spec b
    case case2 => exact nofun
    all_goals exact fun h ↦ (Option.some.inj h).symm
  rw [hsign, Sign.toBitVec_ofBitVec]

/-- The sign of a number is negative where its highest bit is set. -/
theorem sign_eq_ite {spec : Format} {b : BitVec spec.numBits} {bit : Bool}
    (hbit : bit = true ↔ unpackSign b = Sign.negative.toBitVec) {sign : Sign}
    (h : floatSign? (unpack spec b) = some sign) : sign = if bit then .negative else .positive := by
  rw [unpackSign_of_floatSign? h] at hbit
  cases sign with
  | negative => rw [if_pos (hbit.mpr rfl)]
  | positive => rw [if_neg fun hset ↦ absurd (hbit.mp hset) (by decide)]

/-- Packing a number that was unpacked loses nothing of it. -/
theorem unpack_pack_unpack {spec : Format} (hspec : 2 ≤ spec.exponentBits)
    (b : BitVec spec.numBits) :
    unpack spec (UnpackedFloat.pack spec (unpack spec b)) = unpack spec b := by
  rw [UnpackedFloat.pack_unpack b hspec]
  split
  · next hnan =>
    rw [UnpackedFloat.isNaNBits, decide_eq_true_eq] at hnan
    rw [UnpackedFloat.unpack_packedNaN]
    simp [unpack, hnan]
  · rfl

/-! ### Scalars that stand for floating-point numbers -/

/-- The values of a scalar compare as the floating-point numbers that they stand for. -/
structure ScalarFloats {S : Type} [Scalar S] (number : S → UnpackedFloat) : Prop where
  compare?_eq : ∀ a b : S, Scalar.compare? a b = (number a).compare (number b)
  number_zero : number Scalar.zero = .zero .positive
  sign : ∀ {a : S} {sign : Sign}, floatSign? (number a) = some sign →
    sign = if Scalar.isSignNegative a then .negative else .positive
  max_eq : ∀ a b : S, Scalar.max a b =
    if (number a).lt (number b) || (number a).isNaN then b else a
  min_eq : ∀ a b : S, Scalar.min a b =
    if (number b).lt (number a) || (number a).isNaN then b else a

namespace ScalarFloats

variable {S : Type} [Scalar S] {number : S → UnpackedFloat} (h : ScalarFloats number)

include h

theorem lt_eq (a b : S) : Scalar.lt a b = (number a).lt (number b) := by
  rw [Bool.eq_iff_iff, Scalar.lt_iff_compare?, h.compare?_eq, UnpackedFloat.lt, beq_iff_eq]

/-- Such values compare by the places of these numbers. -/
theorem places : ScalarPlaces (fun a ↦ floatPlace? (number a)) floatOrigin where
  compare?_eq a b := (h.compare?_eq a b).trans (floatCompare_eq _ _)
  place?_zero := by rw [h.number_zero]; rfl
  sign {a k} hk := by
    rcases floatSign?_of_place hk with ⟨hsign, hle⟩ | ⟨hsign, hle⟩
    · have hpositive := h.sign hsign
      split
      · next hnegative => rw [if_pos hnegative] at hpositive; cases hpositive
      · exact hle
    · have hnegative := h.sign hsign
      split
      · exact hle
      · next hpositive => rw [if_neg hpositive] at hnegative; cases hnegative
  max_eq a b := (h.max_eq a b).trans <|
    if_congr (by rw [Bool.or_eq_true, h.lt_eq, floatPlace?_eq_none_iff]) rfl rfl
  min_eq a b := (h.min_eq a b).trans <|
    if_congr (by rw [Bool.or_eq_true, h.lt_eq, floatPlace?_eq_none_iff]) rfl rfl

end ScalarFloats

/-! ### The 64-bit format -/

namespace Binary64

/-- The number that a pattern stands for, taken apart. -/
def unpacked (x : Binary64) : UnpackedFloat :=
  unpack .binary64 x.bits.toBitVec

theorem unpack_toFloat (x : Binary64) : x.toFloat.toModel.unpack = x.unpacked :=
  @unpack_pack_unpack .binary64 (by decide) _

theorem lt_iff (a b : Binary64) :
    a.toFloat < b.toFloat ↔ a.unpacked.lt b.unpacked = true := by
  rw [← unpack_toFloat, ← unpack_toFloat]
  exact decide_eq_true_iff

theorem beq_eq (a b : Binary64) : (a.toFloat == b.toFloat) = a.unpacked.beq b.unpacked := by
  rw [← unpack_toFloat, ← unpack_toFloat]
  rfl

theorem isNaN_eq (x : Binary64) : x.toFloat.isNaN = x.unpacked.isNaN := by
  rw [← unpack_toFloat]
  rfl

theorem signBit_iff (x : Binary64) :
    x.signBit = true ↔ @unpackSign .binary64 x.bits.toBitVec = Sign.negative.toBitVec := by
  have hlt : x.bits.toNat < 2 ^ 64 := x.bits.toNat_lt
  rw [signBit, beq_iff_eq, ← UInt64.toNat_inj, ← BitVec.toNat_inj, UnpackedFloat.unpackSign_def,
    BitVec.extractLsb'_toNat, UInt64.toNat_shiftRight, Nat.shiftRight_eq_div_pow]
  simp [Nat.shiftRight_eq_div_pow, Sign.toBitVec]
  omega

theorem floats : ScalarFloats unpacked where
  compare?_eq a b := by
    rw [floatCompare_eq_ite]
    simp only [Scalar.compare?, lt_iff, beq_eq]
  number_zero := rfl
  sign {a _} h := sign_eq_ite a.signBit_iff h
  max_eq a b := by simp only [Scalar.max, lt_iff, isNaN_eq, Bool.decide_eq_true]
  min_eq a b := by simp only [Scalar.min, lt_iff, isNaN_eq, Bool.decide_eq_true]

end Binary64

instance : LawfulOffsets Binary64 :=
  Binary64.floats.places.lawfulOffsets

/-! ### The 32-bit format -/

namespace Binary32

/-- The number that a pattern stands for, taken apart. -/
def unpacked (x : Binary32) : UnpackedFloat :=
  unpack .binary32 x.bits.toBitVec

theorem unpack_toFloat32 (x : Binary32) : x.toFloat32.toModel.unpack = x.unpacked :=
  @unpack_pack_unpack .binary32 (by decide) _

theorem lt_iff (a b : Binary32) :
    a.toFloat32 < b.toFloat32 ↔ a.unpacked.lt b.unpacked = true := by
  rw [← unpack_toFloat32, ← unpack_toFloat32]
  exact decide_eq_true_iff

theorem beq_eq (a b : Binary32) : (a.toFloat32 == b.toFloat32) = a.unpacked.beq b.unpacked := by
  rw [← unpack_toFloat32, ← unpack_toFloat32]
  rfl

theorem isNaN_eq (x : Binary32) : x.toFloat32.isNaN = x.unpacked.isNaN := by
  rw [← unpack_toFloat32]
  rfl

theorem signBit_iff (x : Binary32) :
    x.signBit = true ↔ @unpackSign .binary32 x.bits.toBitVec = Sign.negative.toBitVec := by
  have hlt : x.bits.toNat < 2 ^ 32 := x.bits.toNat_lt
  rw [signBit, beq_iff_eq, ← UInt32.toNat_inj, ← BitVec.toNat_inj, UnpackedFloat.unpackSign_def,
    BitVec.extractLsb'_toNat, UInt32.toNat_shiftRight, Nat.shiftRight_eq_div_pow]
  simp [Nat.shiftRight_eq_div_pow, Sign.toBitVec]
  omega

theorem floats : ScalarFloats unpacked where
  compare?_eq a b := by
    rw [floatCompare_eq_ite]
    simp only [Scalar.compare?, lt_iff, beq_eq]
  number_zero := rfl
  sign {a _} h := sign_eq_ite a.signBit_iff h
  max_eq a b := by simp only [Scalar.max, lt_iff, isNaN_eq, Bool.decide_eq_true]
  min_eq a b := by simp only [Scalar.min, lt_iff, isNaN_eq, Bool.decide_eq_true]

end Binary32

instance : LawfulOffsets Binary32 :=
  Binary32.floats.places.lawfulOffsets

end Windowing
