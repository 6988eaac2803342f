import Windowing.Extent.Model
import Windowing.Extent.Starts
import Std.Data.TreeMap

/-!
# Strips

A strip is a run of items that mostly share one extent. Some items have an extent of
their own, and neighbours are a fixed gap apart; the last item has no gap behind it.

While no item has an extent of its own, every query is arithmetic on the shared extent.
Otherwise the starts of the items are running sums, maintained lazily.

## Main definitions

* `Strip` — the shared extent, the gap and the extents of single items.
* `Strip.setLen`, `Strip.setOverride`, `Strip.clearOverride`, `Strip.setUniform`,
  `Strip.setSpacing` — the edits.
* `Strip.extentOf`, `Strip.offsetOf`, `Strip.indexAtOffset` — the queries.
-/

namespace Windowing

/-- A run of `len` items with one shared extent and single exceptions to it. -/
structure Strip (S : Type) where
  /-- The number of items. -/
  len : Nat
  /-- The extent of every item that has none of its own. -/
  uniform : S
  /-- The gap between neighbours. -/
  spacing : S
  /-- The items that have an extent of their own. -/
  overrides : Std.TreeMap Nat S
  /-- The starts of the items, kept while some item has an extent of its own. -/
  starts : Starts S

/-- An extent as a strip keeps it: finite, and not negative. -/
def checkedExtent {S : Type} [Scalar S] (extent : S) : Except Fault S :=
  match Scalar.nonFinite? extent with
  | some value => .error (.nonFiniteExtent value)
  | none => .ok (Scalar.nonNegative extent)

namespace Strip

variable {S : Type} [Scalar S]

/-! ### Queries -/

/-- The distance between the starts of two neighbours that have the shared extent. -/
def stride (strip : Strip S) : S :=
  strip.uniform + strip.spacing

/-- Whether every item has the shared extent. -/
def isUniform (strip : Strip S) : Bool :=
  strip.overrides.isEmpty

/-- The number of items that have an extent of their own. -/
def overrideCount (strip : Strip S) : Nat :=
  strip.overrides.size

/-- The extent that an item has of its own, if any. -/
def overrideOf (strip : Strip S) (index : Nat) : Option S :=
  strip.overrides[index]?

/-- The extent of an item. -/
def extentOf (strip : Strip S) (index : Nat) : S :=
  (strip.overrideOf index).getD strip.uniform

/-- Where the item after `index` starts, when `index` starts at `start`. -/
def advance (strip : Strip S) (index : Nat) (start : S) : S :=
  start + strip.extentOf index + strip.spacing

/-- The strip with its kept starts brought up to date if `index` is among the stale ones. -/
def refreshed (strip : Strip S) (index : Nat) : Strip S :=
  { strip with starts := strip.starts.refresh strip.advance index }

/-- The strip with all the starts that it keeps up to date. -/
def settleAll (strip : Strip S) : Strip S :=
  if strip.isUniform then strip else strip.refreshed (strip.len - 1)

/-- The strip with the start of `index` up to date; past the end, that of the last item. The
first item starts at zero in any case. -/
def settleAt (index : Nat) (strip : Strip S) : Strip S :=
  let index := Nat.min index (strip.len - 1)
  if strip.isUniform ∨ index = 0 then strip else strip.refreshed index

/-- Where the item at a valid `index` starts. -/
def startOf (strip : Strip S) (index : Nat) : S :=
  if index = 0 then Scalar.zero
  else if strip.isUniform then Scalar.ofNat index * strip.stride
  else (strip.refreshed index).starts.entries.getD index Scalar.zero

/-- Where an item starts; past the end, where the last item ends. -/
def offsetOf (strip : Strip S) (index : Nat) : S :=
  if strip.len = 0 then Scalar.zero
  else if index < strip.len then strip.startOf index
  else strip.startOf (strip.len - 1) + strip.extentOf (strip.len - 1)

/-- The extent of all items and the gaps between them. -/
def totalExtent (strip : Strip S) : S :=
  strip.offsetOf strip.len

/-- The last item that starts at or before `offset`. -/
def indexAtOffset (strip : Strip S) (offset : S) : Nat :=
  if strip.len = 0 then 0
  else
    let target := Scalar.nonNegative offset
    if strip.isUniform then
      if Scalar.le strip.stride Scalar.zero then 0
      else Nat.min (Scalar.floorToInt (target / strip.stride)).toNat (strip.len - 1)
    else
      partitionPoint (Scalar.le · target) (strip.refreshed (strip.len - 1)).starts.entries - 1

/-- The last item that starts at or before `offset`, if the strip has items. -/
def indexAtOffset? (strip : Strip S) (offset : S) : Option Nat :=
  if strip.len = 0 then none else some (strip.indexAtOffset offset)

/-! ### Construction -/

/-- A strip of `len` items that all have the extent `uniform`, without gaps. -/
def ofUniform (len : Nat) (uniform : S) : Except Fault (Strip S) := do
  return {
    len
    uniform := ← checkedExtent uniform
    spacing := Scalar.zero
    overrides := ∅
    starts := .unset }

/-- The strip without items. -/
def empty : Strip S where
  len := 0
  uniform := Scalar.zero
  spacing := Scalar.zero
  overrides := ∅
  starts := .unset

/-! ### Edits -/

/-- Marks the kept starts from `index` on as stale. -/
def invalidateFrom (index : Nat) (strip : Strip S) : Strip S :=
  { strip with starts := strip.starts.invalidateFrom index }

/-- Changes the shared extent. -/
def setUniform (extent : S) : Step (Strip S) Unit := do
  let extent ← Step.ofExcept (checkedExtent extent)
  modify fun strip ↦
    if Scalar.eq extent strip.uniform then strip
    else { strip with uniform := extent }.invalidateFrom 0

/-- Changes the gap between neighbours. -/
def setSpacing (spacing : S) : Step (Strip S) Unit := do
  let spacing ← Step.ofExcept (checkedExtent spacing)
  modify fun strip ↦
    if Scalar.eq spacing strip.spacing then strip
    else { strip with spacing }.invalidateFrom 0

/-- The strip with the gap `spacing` between neighbours. -/
def withSpacing (spacing : S) (strip : Strip S) : Except Fault (Strip S) := do
  let spacing ← checkedExtent spacing
  return if Scalar.eq spacing strip.spacing then strip
    else { strip with spacing }.invalidateFrom 0

/-- Makes room for the starts of all items, or drops it while no item needs it. -/
def fitStarts (strip : Strip S) : Strip S :=
  { strip with starts :=
      if strip.isUniform then .unset else strip.starts.resize strip.len }

/-- Changes the number of items. Items past the new end lose their own extents. -/
def setLen (len : Nat) (strip : Strip S) : Strip S :=
  let overrides :=
    if len < strip.len then strip.overrides.filter fun index _ ↦ index < len
    else strip.overrides
  { strip with len, overrides }.fitStarts

/-- The strip with room for the starts of all items. -/
def openStarts (strip : Strip S) : Strip S :=
  if strip.isUniform then { strip with starts := .blank strip.len } else strip

/-- The strip in which a valid `index` has the extent `extent` of its own. -/
def insertOverride (index : Nat) (extent : S) (strip : Strip S) : Strip S :=
  { strip with overrides := strip.overrides.insert index extent }.invalidateFrom index

/-- Gives an item an extent of its own; answers whether the item exists. Room for the starts
is made before the extent is looked at. -/
def setOverride (index : Nat) (extent : S) : Step (Strip S) Bool := do
  let strip ← get
  if strip.len ≤ index then
    return false
  set strip.openStarts
  let extent ← Step.ofExcept (checkedExtent extent)
  modify (insertOverride index extent)
  return true

/-- Takes an item's own extent away; answers whether it had one. -/
def clearOverride (index : Nat) (strip : Strip S) : Strip S × Bool :=
  if strip.overrides.contains index then
    let cleared := { strip with overrides := strip.overrides.erase index }
    (if cleared.isUniform then { cleared with starts := .unset }
      else cleared.invalidateFrom index, true)
  else
    (strip, false)

/-- Takes every item's own extent away. -/
def clearOverrides (strip : Strip S) : Strip S :=
  { strip with overrides := ∅, starts := .unset }

/-! ### Strips as models of lists -/

instance : ExtentModel (Strip S) S where
  len strip := strip.len
  totalExtent := totalExtent
  extentOf strip index := .ok (strip.extentOf index)
  offsetOf := offsetOf
  indexAtOffset := indexAtOffset
  settleAt := settleAt
  settleAll := settleAll

instance : ResizableModel (Strip S) S where
  setLen := setLen
  setItemExtent := setOverride
  clearItemExtent := clearOverride

/-- An item of a list spans the whole viewport across the scroll axis. -/
instance : CrossPlacement (Strip S) S where
  fitCrossExtent _ strip := (strip, false)
  crossSpan _ _ crossExtent := (Scalar.zero, crossExtent)

end Strip

end Windowing
