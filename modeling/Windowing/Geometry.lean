import Windowing.Scalar

/-!
# Geometry of a viewport

Views are placed in the coordinates of the viewport, whose origin is its top left corner.
A collection scrolls along one axis, its *main* axis; the other one is its *cross* axis.

## Main definitions

* `Point`, `Size`, `Rect` — positions, extents and axis-parallel rectangles.
* `Axis.split`, `Axis.rect` — between widths and heights and main and cross extents.
-/

namespace Windowing

/-- A position. -/
structure Point (S : Type) where
  x : S
  y : S
deriving DecidableEq

/-- A width and a height. -/
structure Size (S : Type) where
  width : S
  height : S
deriving DecidableEq

/-- A rectangle, given by two opposite corners. -/
structure Rect (S : Type) where
  left : S
  top : S
  right : S
  bottom : S

section

variable {S : Type} [Scalar S]

/-- Whether two positions compare as equal in both coordinates. -/
def Point.eq (p q : Point S) : Bool :=
  Scalar.eq p.x q.x && Scalar.eq p.y q.y

/-- Whether two sizes compare as equal in both extents. -/
def Size.eq (a b : Size S) : Bool :=
  Scalar.eq a.width b.width && Scalar.eq a.height b.height

/-- The corner that a rectangle is placed by. -/
def Rect.origin (r : Rect S) : Point S :=
  ⟨r.left, r.top⟩

/-- The width and the height of a rectangle, as the differences of its corners. -/
def Rect.size (r : Rect S) : Size S :=
  ⟨r.right - r.left, r.bottom - r.top⟩

/-- The rectangle with the origin `p` that is `width` wide and `height` high. -/
def Rect.ofOrigin (p : Point S) (width height : S) : Rect S :=
  ⟨p.x, p.y, p.x + width, p.y + height⟩

end

/-- The direction that a collection scrolls in. -/
inductive Axis where
  /-- Items lie top to bottom. -/
  | vertical
  /-- Items lie left to right. -/
  | horizontal
deriving DecidableEq

instance : Inhabited Axis := ⟨.vertical⟩

namespace Axis

variable {S : Type} [Scalar S]

/-- The extents of a size along the main and along the cross axis. -/
def split (size : Size S) : Axis → S × S
  | vertical => (size.height, size.width)
  | horizontal => (size.width, size.height)

/-- The size with the given extents along the main and along the cross axis. -/
def join (main cross : S) : Axis → Size S
  | vertical => ⟨cross, main⟩
  | horizontal => ⟨main, cross⟩

/-- The rectangle that a start and an extent along each axis span. -/
def rect (main cross : S × S) : Axis → Rect S
  | vertical => .ofOrigin ⟨cross.1, main.1⟩ cross.2 main.2
  | horizontal => .ofOrigin ⟨main.1, cross.1⟩ main.2 cross.2

end Axis

end Windowing
