import Windowing.Extent.Model

/-!
# Wrapping grids

A wrapping grid lays a run of items out in lanes of one fixed width. Along the scroll axis
it is a sequence of tracks, and each track holds one item per lane: item `i` is in track
`i / lanes` and in lane `i % lanes`. The last track may be partly filled.

The extents of the tracks come from an extent model of their own, the *track model*. The
grid keeps its length at the number of tracks.

## Main definitions

* `Grid` — a track model, the number of lanes and the measures of a lane.
* `Grid.trackOf`, `Grid.laneOf` — where an item lies.
* `Grid.lanesFor` — how many lanes fit a viewport.
-/

namespace Windowing

/-- A run of `len` items wrapped into lanes. -/
structure Grid (M S : Type) where
  /-- The sizes of the tracks along the scroll axis. -/
  tracks : M
  /-- The number of items that a full track holds. -/
  lanes : Nat
  /-- A track holds at least one item. -/
  lanes_pos : 0 < lanes
  /-- The number of items. -/
  len : Nat
  /-- The extent of an item across the scroll axis. -/
  itemWidth : S
  /-- The gap between neighbouring lanes. -/
  laneSpacing : S

namespace Grid

variable {M S : Type} [Scalar S] [ExtentModel M S] [ResizableModel M S]

/-! ### Tracks and lanes -/

/-- The track that holds an item. -/
def trackOf (grid : Grid M S) (index : Nat) : Nat :=
  index / grid.lanes

/-- The lane of an item within its track. -/
def laneOf (grid : Grid M S) (index : Nat) : Nat :=
  index % grid.lanes

/-- The number of tracks that the items need. -/
def trackCount (grid : Grid M S) : Nat :=
  (grid.len + grid.lanes - 1) / grid.lanes

omit [Scalar S] [ExtentModel M S] [ResizableModel M S] in
theorem laneOf_lt_lanes (grid : Grid M S) (index : Nat) : grid.laneOf index < grid.lanes :=
  Nat.mod_lt index grid.lanes_pos

omit [Scalar S] [ExtentModel M S] [ResizableModel M S] in
/-- An item is found again by its track and its lane. -/
theorem lanes_mul_trackOf_add_laneOf (grid : Grid M S) (index : Nat) :
    grid.lanes * grid.trackOf index + grid.laneOf index = index :=
  Nat.div_add_mod index grid.lanes

omit [Scalar S] [ExtentModel M S] [ResizableModel M S] in
/-- There is a track for every item. -/
theorem trackOf_lt_trackCount {grid : Grid M S} {index : Nat} (h : index < grid.len) :
    grid.trackOf index < grid.trackCount := by
  rw [trackOf, trackCount, Nat.div_lt_iff_lt_mul grid.lanes_pos]
  have hlanes := Nat.div_add_mod (grid.len + grid.lanes - 1) grid.lanes
  have hmod := Nat.mod_lt (grid.len + grid.lanes - 1) grid.lanes_pos
  rw [Nat.mul_comm] at hlanes
  omega

/-- The distance between the starts of neighbouring lanes. -/
def pitch (grid : Grid M S) : S :=
  grid.itemWidth + grid.laneSpacing

/-- How many lanes a viewport of the given extent across the scroll axis holds. There is
always one, even where an item is wider than the viewport. -/
def lanesFor (grid : Grid M S) (crossExtent : S) : Nat :=
  if Scalar.le grid.pitch Scalar.zero || Scalar.le crossExtent grid.itemWidth then 1
  else Nat.max 1 (Scalar.floorToInt ((crossExtent + grid.laneSpacing) / grid.pitch)).toNat

omit [ExtentModel M S] [ResizableModel M S] in
/-- A viewport holds at least one lane. -/
theorem lanesFor_pos (grid : Grid M S) (crossExtent : S) : 0 < grid.lanesFor crossExtent := by
  rw [lanesFor]
  split
  · exact Nat.one_pos
  · exact Nat.le_max_left 1 _

/-! ### Construction and edits -/

/-- Gives the track model as many tracks as the items need. -/
def resizeTracks (grid : Grid M S) : Grid M S :=
  { grid with tracks := ResizableModel.setLen grid.trackCount grid.tracks }

/-- A grid of `len` items of the given width, in one lane until it sees a viewport. -/
def ofTracks (tracks : M) (itemWidth : S) (len : Nat) : Grid M S :=
  { tracks, lanes := 1, lanes_pos := Nat.one_pos, len,
    itemWidth := Scalar.nonNegative itemWidth, laneSpacing := Scalar.zero : Grid M S }.resizeTracks

/-- The grid with the gap `spacing` between neighbouring lanes. -/
def withLaneSpacing (spacing : S) (grid : Grid M S) : Grid M S :=
  { grid with laneSpacing := Scalar.nonNegative spacing }

/-- Changes the number of lanes; answers whether it was another one before. -/
def setLanes (lanes : Nat) (lanes_pos : 0 < lanes) (grid : Grid M S) : Grid M S × Bool :=
  if grid.lanes = lanes then (grid, false)
  else ({ grid with lanes, lanes_pos }.resizeTracks, true)

/-- Changes the number of items, and the number of tracks with it. -/
def setLen (len : Nat) (grid : Grid M S) : Grid M S :=
  { grid with len }.resizeTracks

/-- Gives the whole track of an item an extent of its own; answers whether it exists. -/
def setItemExtent (index : Nat) (extent : S) : Step (Grid M S) Bool := do
  let grid ← get
  if index < grid.len then
    Step.within Grid.tracks (fun tracks grid ↦ { grid with tracks })
      (ResizableModel.setItemExtent (grid.trackOf index) extent)
  else
    return false

/-- Takes the own extent of an item's track away; answers whether it had one. -/
def clearItemExtent (index : Nat) (grid : Grid M S) : Grid M S × Bool :=
  if index < grid.len then
    let (tracks, cleared) := ResizableModel.clearItemExtent (grid.trackOf index) grid.tracks
    ({ grid with tracks }, cleared)
  else
    (grid, false)

/-! ### Queries -/

/-- The extent of the track of an item, or of the last item past the end. It fails where the
track model was made shorter than the grid. -/
def extentOf (grid : Grid M S) (index : Nat) : Except Fault S :=
  if grid.len = 0 then .ok Scalar.zero
  else
    let track := grid.trackOf (Nat.min index (grid.len - 1))
    let count := ExtentModel.len grid.tracks
    if track < count then ExtentModel.extentOf grid.tracks track
    else .error (.missingTrack track count)

/-- The track that an offset is read off: past the end, the one behind the last. -/
def offsetTrack (grid : Grid M S) (index : Nat) : Nat :=
  if index < grid.len then grid.trackOf index else grid.trackCount

/-- Where the track of an item starts; past the end, where the last track ends. -/
def offsetOf (grid : Grid M S) (index : Nat) : S :=
  if grid.len = 0 then Scalar.zero
  else ExtentModel.offsetOf grid.tracks (grid.offsetTrack index)

/-- The first item of the last track that starts at or before `offset`. -/
def indexAtOffset (grid : Grid M S) (offset : S) : Nat :=
  if grid.len = 0 then 0
  else Nat.min (ExtentModel.indexAtOffset grid.tracks offset * grid.lanes) (grid.len - 1)

instance : ExtentModel (Grid M S) S where
  len grid := grid.len
  totalExtent grid := ExtentModel.totalExtent grid.tracks
  extentOf := extentOf
  offsetOf := offsetOf
  indexAtOffset := indexAtOffset
  trackIndex := trackOf
  settleAt index grid :=
    { grid with tracks := ExtentModel.settleAt (grid.offsetTrack index) grid.tracks }
  settleAll grid := { grid with tracks := ExtentModel.settleAll grid.tracks }

instance : ResizableModel (Grid M S) S where
  setLen := setLen
  setItemExtent := setItemExtent
  clearItemExtent := clearItemExtent

/-- An item of a grid lies in its lane, and the lanes that fit are counted anew when the
viewport changes across the scroll axis. -/
instance : CrossPlacement (Grid M S) S where
  fitCrossExtent crossExtent grid :=
    grid.setLanes (grid.lanesFor crossExtent) (grid.lanesFor_pos crossExtent)
  crossSpan grid index _ := (Scalar.ofNat (grid.laneOf index) * grid.pitch, grid.itemWidth)

end Grid

end Windowing
