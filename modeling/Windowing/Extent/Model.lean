import Windowing.Step

/-!
# Extent models

An extent model says how long each item of a strip is and where it starts. Items are
grouped into *tracks*: the items of one track share their start and their extent, and
come into view together. In a list every item is a track of its own.

A model may keep answers it has worked out. Queries are read off the model as it is;
`ExtentModel.settleAt` and `ExtentModel.settleAll` store what a query worked out, and are
expected to change no answer.

## Main definitions

* `ExtentModel` — lengths, extents, offsets and tracks of the items of a strip.
* `ResizableModel` — models whose length and item extents can be edited.
* `CrossPlacement` — where an item lies across the scroll axis.
-/

namespace Windowing

/-- The sizes and positions of items laid end to end along the scroll axis. -/
class ExtentModel (M : Type) (S : outParam Type) where
  /-- The number of items. -/
  len : M → Nat
  /-- The extent of all items and the gaps between them. -/
  totalExtent : M → S
  /-- The extent of one item, its gap excluded. It fails where the model has lost the item. -/
  extentOf : M → Nat → Except Fault S
  /-- Where an item starts; past the end, where the content ends. -/
  offsetOf : M → Nat → S
  /-- The last item that starts at or before an offset. -/
  indexAtOffset : M → S → Nat
  /-- The track that holds an item. -/
  trackIndex : M → Nat → Nat := fun _ index ↦ index
  /-- The model with what finding the offset of one item works out stored. -/
  settleAt : Nat → M → M := fun _ model ↦ model
  /-- The model with what finding an item by its offset works out stored. -/
  settleAll : M → M := fun model ↦ model

/-- Whether a model has no items. -/
def ExtentModel.isEmpty {M S : Type} [ExtentModel M S] (model : M) : Bool :=
  len model == 0

/-- Models whose number of items and item extents can be edited. -/
class ResizableModel (M : Type) (S : outParam Type) where
  /-- Changes the number of items and forgets what was set past the new end. -/
  setLen : Nat → M → M
  /-- Gives one item an extent of its own; answers whether the item exists. -/
  setItemExtent : Nat → S → Step M Bool
  /-- Takes an item's own extent away; answers whether it had one. -/
  clearItemExtent : Nat → M → M × Bool

/-- The placement of items across the scroll axis. -/
class CrossPlacement (M : Type) (S : outParam Type) where
  /-- Adapts the model to the extent of the viewport across the scroll axis; answers
  whether items may have moved along it. -/
  fitCrossExtent : S → M → M × Bool
  /-- The start and the size of an item across the scroll axis. -/
  crossSpan : M → Nat → S → S × S

end Windowing
