import Windowing.Extent.Model

/-!
# Tabulated models

A tabulated model answers from lists that are written down in advance. Nothing ties the
lists to each other, so it can contradict itself in any way a model of the host may.

## Main definitions

* `Tabulated` — the written answers, as an extent model.
-/

namespace Windowing

/-- An extent model that answers from lists. -/
structure Tabulated (S : Type) where
  /-- The number of items. -/
  len : Nat
  /-- The extent of the content, and the start of every item that `offsets` leaves out. -/
  total : S
  /-- The starts of the items. -/
  offsets : Array S
  /-- The extents of the items; the others have none. -/
  extents : Array S
  /-- The tracks of the items; the others are on a track of their own index. -/
  tracks : Array Nat
  /-- The item found at every offset. -/
  hit : Nat

instance {S : Type} [Scalar S] : ExtentModel (Tabulated S) S where
  len model := model.len
  totalExtent model := model.total
  extentOf model index := .ok (model.extents.getD index Scalar.zero)
  offsetOf model index := model.offsets.getD index model.total
  indexAtOffset model _ := model.hit
  trackIndex model index := model.tracks.getD index index

end Windowing
