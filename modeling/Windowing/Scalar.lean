/-!
# Scalars

Extents, offsets and scroll positions are numbers of one scalar type. The type
brings its arithmetic, one comparison that may find two values unordered, and the
few conversions that laying out items needs. No law is asked of any of them, so
what is proved for every scalar also holds for rounded arithmetic.

## Main definitions

* `Scalar` — the operations of a scalar type.
* `Scalar.nonNegative` — what an extent or an offset is read as.
* `NonFinite` — the values that are no number of pixels.
* the instance for the exact numbers `Rat`.
-/

namespace Windowing

/-- The values of a scalar type that are not finite numbers. -/
inductive NonFinite where
  | notANumber
  | positiveInfinity
  | negativeInfinity
deriving DecidableEq

/-- The operations that extents, offsets and scroll positions are computed with. -/
class Scalar (S : Type) extends Add S, Sub S, Mul S, Div S where
  /-- The additive identity. -/
  zero : S
  /-- The scalar nearest to a count of items. -/
  ofNat : Nat → S
  /-- How two values compare, or nothing where they are unordered. -/
  compare? : S → S → Option Ordering
  /-- Which of the values outside the finite numbers this is, if any. -/
  nonFinite? : S → Option NonFinite
  /-- Whether the sign is negative, also that of a zero or of a value that is no number. -/
  isSignNegative : S → Bool
  /-- The largest integer below or at the value. Rounded arithmetic may cut it off at the range
  of a machine word. -/
  floorToInt : S → Int
  /-- The larger of two values; a value that is no number loses. -/
  max : S → S → S
  /-- The smaller of two values; a value that is no number loses. -/
  min : S → S → S

namespace Scalar

variable {S : Type} [Scalar S]

/-! ### Comparisons -/

/-- Whether `a` comes strictly before `b`. -/
def lt (a b : S) : Bool :=
  match compare? a b with
  | some .lt => true
  | _ => false

/-- Whether `a` comes strictly after `b`. -/
def gt (a b : S) : Bool :=
  match compare? a b with
  | some .gt => true
  | _ => false

/-- Whether `a` comes before `b` or equals it. -/
def le (a b : S) : Bool :=
  match compare? a b with
  | some .lt | some .eq => true
  | _ => false

/-- Whether `a` comes after `b` or equals it. -/
def ge (a b : S) : Bool :=
  match compare? a b with
  | some .gt | some .eq => true
  | _ => false

/-- Whether `a` and `b` compare as equal; a value that is no number equals nothing. -/
def eq (a b : S) : Bool :=
  match compare? a b with
  | some .eq => true
  | _ => false

/-! ### Ranges -/

/-- Whether the value is a finite number. -/
def isFinite (x : S) : Bool :=
  (nonFinite? x).isNone

/-- The value itself, or zero where it is negative or unordered with zero. -/
def nonNegative (x : S) : S :=
  if isSignNegative x || (compare? x (zero : S)).isNone then zero else x

end Scalar

/-! ### Exact arithmetic -/

instance : Scalar Rat where
  zero := 0
  ofNat n := n
  compare? a b := some (if a < b then .lt else if b < a then .gt else .eq)
  nonFinite? _ := none
  isSignNegative x := decide (x < 0)
  floorToInt := Rat.floor
  max a b := if a < b then b else a
  min a b := if b < a then b else a

end Windowing
