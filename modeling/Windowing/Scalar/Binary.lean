import Windowing.Scalar

/-!
# Binary floating point

The rounded scalars are the two usual binary formats. A value is kept as its bit pattern and
computed with as a floating-point number. The pattern says more than the number does: a value
that is no number has a sign, which is read off its highest bit as for any other value.

## Main definitions

* `Binary64`, `Binary32` — the patterns, as scalars.
* `Binary64.toBinary32`, `Binary32.toBinary64` — rounding to the shorter format, and back.
-/

namespace Windowing

/-- A value of the 64-bit format, as its bit pattern. -/
structure Binary64 where
  bits : UInt64
deriving DecidableEq

/-- A value of the 32-bit format, as its bit pattern. -/
structure Binary32 where
  bits : UInt32
deriving DecidableEq

namespace Binary64

/-- The number that a pattern stands for. -/
def toFloat (x : Binary64) : Float :=
  Float.ofBits x.bits

/-- The pattern of a number. -/
def ofFloat (x : Float) : Binary64 :=
  ⟨x.toBits⟩

/-- Whether the highest bit is set. -/
def signBit (x : Binary64) : Bool :=
  x.bits >>> 63 == 1

/-- The nearest value of the shorter format. The sign stays, also where there is no number. -/
def toBinary32 (x : Binary64) : Binary32 :=
  ⟨x.toFloat.toFloat32.toBits ||| (x.bits >>> 63).toUInt32 <<< 31⟩

instance : Scalar Binary64 where
  add a b := ofFloat (a.toFloat + b.toFloat)
  sub a b := ofFloat (a.toFloat - b.toFloat)
  mul a b := ofFloat (a.toFloat * b.toFloat)
  div a b := ofFloat (a.toFloat / b.toFloat)
  zero := ⟨0⟩
  ofNat n := ofFloat n.toUInt64.toFloat
  compare? a b :=
    if a.toFloat < b.toFloat then some .lt
    else if b.toFloat < a.toFloat then some .gt
    else if a.toFloat == b.toFloat then some .eq
    else none
  nonFinite? x :=
    if x.toFloat.isNaN then some .notANumber
    else if x.toFloat.isInf then
      some (if x.signBit then .negativeInfinity else .positiveInfinity)
    else none
  isSignNegative := signBit
  floorToInt x :=
    let truncated := x.toFloat.toInt64
    if truncated.toFloat > x.toFloat then truncated.toInt - 1 else truncated.toInt
  max a b := if a.toFloat < b.toFloat || a.toFloat.isNaN then b else a
  min a b := if b.toFloat < a.toFloat || a.toFloat.isNaN then b else a

end Binary64

namespace Binary32

/-- The number that a pattern stands for. -/
def toFloat32 (x : Binary32) : Float32 :=
  Float32.ofBits x.bits

/-- The pattern of a number. -/
def ofFloat32 (x : Float32) : Binary32 :=
  ⟨x.toBits⟩

/-- Whether the highest bit is set. -/
def signBit (x : Binary32) : Bool :=
  x.bits >>> 31 == 1

/-- The same value in the longer format. The sign stays, also where there is no number. -/
def toBinary64 (x : Binary32) : Binary64 :=
  ⟨x.toFloat32.toFloat.toBits ||| (x.bits >>> 31).toUInt64 <<< 63⟩

instance : Scalar Binary32 where
  add a b := ofFloat32 (a.toFloat32 + b.toFloat32)
  sub a b := ofFloat32 (a.toFloat32 - b.toFloat32)
  mul a b := ofFloat32 (a.toFloat32 * b.toFloat32)
  div a b := ofFloat32 (a.toFloat32 / b.toFloat32)
  zero := ⟨0⟩
  ofNat n := ofFloat32 n.toUInt64.toFloat32
  compare? a b :=
    if a.toFloat32 < b.toFloat32 then some .lt
    else if b.toFloat32 < a.toFloat32 then some .gt
    else if a.toFloat32 == b.toFloat32 then some .eq
    else none
  nonFinite? x :=
    if x.toFloat32.isNaN then some .notANumber
    else if x.toFloat32.isInf then
      some (if x.signBit then .negativeInfinity else .positiveInfinity)
    else none
  isSignNegative := signBit
  floorToInt x :=
    let truncated := x.toFloat32.toInt64
    if truncated.toFloat32 > x.toFloat32 then truncated.toInt - 1 else truncated.toInt
  max a b := if a.toFloat32 < b.toFloat32 || a.toFloat32.isNaN then b else a
  min a b := if b.toFloat32 < a.toFloat32 || a.toFloat32.isNaN then b else a

end Binary32

end Windowing
