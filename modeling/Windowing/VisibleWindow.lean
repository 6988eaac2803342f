import Windowing.Extent.Model
import Windowing.IndexRange

/-!
# Visible windows

The visible window is the range of items that a viewport shows, widened to whole tracks and
by some tracks of look-ahead behind the trailing edge. It is found by walking from the item
at the scroll offset, so the cost follows the size of the window and not of the content.

## Main definitions

* `VisibleWindow` — a range of items and the extents before, after and of the content.
* `ExtentModel.nextTrack` — the first item of the next track.
* `ExtentModel.visibleWindow` — the window of a viewport over a model.
-/

namespace Windowing

/-- The items from `start` to before `stop`, and how much of the content lies around them. -/
structure VisibleWindow (S : Type) extends IndexRange where
  /-- The extent of the content before the window. -/
  before : S
  /-- The extent of the content after the window. -/
  after : S
  /-- The extent of the content. -/
  content : S

/-- The window without items, over no content. -/
def VisibleWindow.empty {S : Type} [Scalar S] : VisibleWindow S where
  toIndexRange := .empty
  before := Scalar.zero
  after := Scalar.zero
  content := Scalar.zero

namespace ExtentModel

variable {M S : Type} [Scalar S] [ExtentModel M S]

/-! ### Tracks -/

/-- The first item from `index` on that is not on the track `track`. -/
def trackStop (model : M) (len track index : Nat) : Nat :=
  if index < len ∧ trackIndex model index = track then trackStop model len track (index + 1)
  else index
termination_by len - index

/-- The first item after `index` that is on another track, or `len`. -/
def nextTrack (model : M) (len index : Nat) : Nat :=
  trackStop model len (trackIndex model index) (index + 1)

/-- The first item of the run before `index` that is on the track `track`. -/
def trackStart (model : M) (track : Nat) : Nat → Nat
  | 0 => 0
  | index + 1 => if trackIndex model index = track then trackStart model track index else index + 1

omit [Scalar S] in
theorem le_trackStop (model : M) (len track index : Nat) :
    index ≤ trackStop model len track index := by
  fun_induction trackStop model len track index with
  | case1 index _ ih => omega
  | case2 => exact Nat.le_refl _

omit [Scalar S] in
theorem lt_nextTrack (model : M) (len index : Nat) : index < nextTrack model len index :=
  le_trackStop model len _ (index + 1)

/-! ### The walk from the scroll offset -/

/-- Skips tracks while the next one starts later than this one, at or before `offset`. Items
that share a start are not skipped over. -/
def skipTracks (model : M) (len : Nat) (offset : S) (start : Nat) : Nat :=
  let next := nextTrack model len start
  if next < len ∧ Scalar.le (offsetOf model next) offset ∧
      Scalar.gt (offsetOf model next) (offsetOf model start) then
    skipTracks model len offset next
  else
    start
termination_by len - start
decreasing_by have := lt_nextTrack model len start; omega

/-- Goes back to an item that does not start after `offset`. -/
def stepBack (model : M) (offset : S) : Nat → Nat
  | 0 => 0
  | index + 1 =>
    if Scalar.gt (offsetOf model (index + 1)) offset then stepBack model offset index
    else index + 1

/-- Walks forward over the items that start before `limit`. -/
def walkTo (model : M) (len : Nat) (limit : S) (index : Nat) : Nat :=
  if index < len ∧ Scalar.lt (offsetOf model index) limit then walkTo model len limit (index + 1)
  else index
termination_by len - index

/-- Adds whole tracks behind `stop`. -/
def lookPast (model : M) (len : Nat) : Nat → Nat → Nat
  | 0, stop => stop
  | lookahead + 1, stop =>
    if len ≤ stop then stop else lookPast model len lookahead (nextTrack model len stop)

/-- The first item of the window at `offset`: the start of the track that is there. -/
def windowStart (model : M) (len : Nat) (offset : S) : Nat :=
  let found := Nat.min (indexAtOffset model offset) (len - 1)
  let start := stepBack model offset (skipTracks model len offset found)
  trackStart model (trackIndex model start) start

/-- The end of the window from `start` to where the items start at or after `limit`. The last
track is completed, and `lookahead` tracks are added. -/
def windowStop (model : M) (len : Nat) (limit : S) (lookahead start : Nat) : Nat :=
  let reached := walkTo model len limit (start + 1)
  lookPast model len lookahead (nextTrack model len (reached - 1))

/-- The window of items visible at `scrollOffset` through a viewport of extent
`viewportExtent`, with `lookahead` further tracks behind the trailing edge. It is empty only
for a model without items. -/
def visibleWindow (model : M) (scrollOffset viewportExtent : S) (lookahead : Nat) :
    VisibleWindow S :=
  let len := len model
  if len = 0 then .empty
  else
    let content := Scalar.nonNegative (totalExtent model)
    let offset := Scalar.nonNegative scrollOffset
    let limit := Scalar.min (offset + Scalar.nonNegative viewportExtent) content
    let start := windowStart model len offset
    let stop := windowStop model len limit lookahead start
    { start, stop, content
      before := offsetOf model start
      after :=
        if stop < len then Scalar.max (content - offsetOf model stop) Scalar.zero
        else Scalar.zero }

end ExtentModel

end Windowing
