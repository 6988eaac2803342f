import Windowing.VisibleWindow

/-!
# Viewports

A viewport shows part of the content of an extent model. It knows how far it is scrolled
and how much it shows, and keeps the visible window until something that can move it has
changed. Whatever moves the viewport is clamped into the scrollable range at once.

## Main definitions

* `Viewport` — a model, a scroll offset, an extent and the kept window.
* `Viewport.scrollTo`, `Viewport.resize`, `Viewport.clamp` — what moves it.
* `Viewport.bring` — scrolling an item into view, aligned as asked.
* `Viewport.window` — the visible window, kept or found anew.
-/

namespace Windowing

/-- Where an item that is scrolled into view ends up. -/
inductive ScrollAlign where
  /-- The leading edges of the item and the viewport meet. -/
  | start
  /-- The midpoints of the item and the viewport meet. -/
  | center
  /-- The trailing edges of the item and the viewport meet. -/
  | stop
  /-- The viewport moves just enough to show the item in full. -/
  | nearest
deriving DecidableEq

instance : Inhabited ScrollAlign := ⟨.nearest⟩

/-- A view on part of the content of a model. -/
structure Viewport (M S : Type) where
  /-- What the viewport shows a part of. -/
  model : M
  /-- The distance from the start of the content to the leading edge. -/
  offset : S
  /-- How much of the content is shown. -/
  extent : S
  /-- The number of tracks behind the trailing edge that belong to the window. -/
  lookahead : Nat
  /-- The window as last found, while nothing that can move it has changed. -/
  kept : Option (VisibleWindow S)

namespace Viewport

variable {M S : Type} [Scalar S] [ExtentModel M S]

/-- The number of look-ahead tracks of a viewport that was not told otherwise. -/
def defaultLookahead : Nat := 1

/-- A viewport of the given extent at the start of the content. -/
def ofModel (model : M) (extent : S) : Viewport M S where
  model := model
  offset := Scalar.zero
  extent := Scalar.nonNegative extent
  lookahead := defaultLookahead
  kept := none

/-! ### The window -/

/-- Forgets the kept window. -/
def invalidate (viewport : Viewport M S) : Viewport M S :=
  { viewport with kept := none }

/-- Changes the number of look-ahead tracks. -/
def setLookahead (lookahead : Nat) (viewport : Viewport M S) : Viewport M S :=
  if lookahead = viewport.lookahead then viewport
  else { viewport with lookahead }.invalidate

/-- The window of the viewport as it is, found anew. -/
def freshWindow (viewport : Viewport M S) : VisibleWindow S :=
  ExtentModel.visibleWindow viewport.model viewport.offset viewport.extent viewport.lookahead

/-- The visible window, and the viewport that keeps it. -/
def window (viewport : Viewport M S) : VisibleWindow S × Viewport M S :=
  match viewport.kept with
  | some window => (window, viewport)
  | none =>
    let settled := { viewport with model := ExtentModel.settleAll viewport.model }
    (settled.freshWindow, { settled with kept := some settled.freshWindow })

/-- The viewport over an edited model. -/
def withModel (model : M) (viewport : Viewport M S) : Viewport M S :=
  { viewport with model }.invalidate

/-- A step on the model of a viewport. The kept window is forgotten whatever the step does. -/
def onModel {α : Type} (step : Step M α) : Step (Viewport M S) α :=
  Step.within model withModel step

/-! ### Moving the viewport -/

/-- The largest offset at which the viewport does not reach past the content. -/
def maxOffset (viewport : Viewport M S) : S :=
  Scalar.max (ExtentModel.totalExtent viewport.model - viewport.extent) Scalar.zero

/-- Scrolls to an offset, clamped into the scrollable range; answers whether it moved. -/
def scrollTo (offset : S) (viewport : Viewport M S) : Viewport M S × Bool :=
  let offset := Scalar.min (Scalar.nonNegative offset) viewport.maxOffset
  if Scalar.eq offset viewport.offset then (viewport, false)
  else ({ viewport with offset }.invalidate, true)

/-- Scrolls by a distance. -/
def scrollBy (delta : S) (viewport : Viewport M S) : Viewport M S × Bool :=
  viewport.scrollTo (viewport.offset + delta)

/-- Scrolls to the start of the content. -/
def scrollToStart (viewport : Viewport M S) : Viewport M S × Bool :=
  viewport.scrollTo Scalar.zero

/-- Scrolls to the end of the content. -/
def scrollToEnd (viewport : Viewport M S) : Viewport M S × Bool :=
  viewport.scrollTo viewport.maxOffset

/-- Pulls the viewport back where it reaches past the content; answers whether it moved. -/
def clamp (viewport : Viewport M S) : Viewport M S × Bool :=
  if Scalar.gt viewport.offset viewport.maxOffset then
    ({ viewport with offset := viewport.maxOffset }.invalidate, true)
  else
    (viewport, false)

/-- Changes the extent of the viewport; answers whether it was another one before. -/
def resize (extent : S) (viewport : Viewport M S) : Viewport M S × Bool :=
  let extent := Scalar.nonNegative extent
  if Scalar.eq extent viewport.extent then (viewport, false)
  else ({ viewport with extent }.invalidate.clamp.1, true)

/-! ### Items in the viewport -/

/-- Where an item starts, seen from the leading edge of the viewport. -/
def positionOf (viewport : Viewport M S) (index : Nat) : S :=
  ExtentModel.offsetOf viewport.model index - viewport.offset

/-- The start and the end of an item in the content, if the item exists. -/
def spanOf? (viewport : Viewport M S) (index : Nat) : Except Fault (Option (S × S)) := do
  if index < ExtentModel.len viewport.model then
    let start := ExtentModel.offsetOf viewport.model index
    return some (start, start + (← ExtentModel.extentOf viewport.model index))
  else
    return none

/-- Where the viewport ends in the content. -/
def trailingEdge (viewport : Viewport M S) : S :=
  viewport.offset + viewport.extent

/-- Whether no part of an item is clipped. -/
def isFullyVisible (viewport : Viewport M S) (index : Nat) : Except Fault Bool := do
  match ← viewport.spanOf? index with
  | none => return false
  | some (start, stop) =>
    return Scalar.ge start viewport.offset && Scalar.le stop viewport.trailingEdge

/-- Whether some part of an item shows. -/
def isPartiallyVisible (viewport : Viewport M S) (index : Nat) : Except Fault Bool := do
  match ← viewport.spanOf? index with
  | none => return false
  | some (start, stop) =>
    return Scalar.gt stop viewport.offset && Scalar.lt start viewport.trailingEdge

/-- The offset at which an item that spans `start` to `stop` is aligned as asked. -/
def alignedOffset (viewport : Viewport M S) (start stop : S) : ScrollAlign → S
  | .start => start
  | .stop => stop - viewport.extent
  | .center => (start + stop - viewport.extent) / Scalar.ofNat 2
  | .nearest =>
    if Scalar.lt start viewport.offset then start
    else if Scalar.gt stop viewport.trailingEdge then stop - viewport.extent
    else viewport.offset

/-- Scrolls an item into view, or the last one past the end; answers whether the viewport
moved. Over no items it returns to the start. -/
def bring (index : Nat) (align : ScrollAlign) (viewport : Viewport M S) :
    Except Fault (Viewport M S × Bool) := do
  let len := ExtentModel.len viewport.model
  if len = 0 then
    return viewport.scrollTo Scalar.zero
  match ← viewport.spanOf? (Nat.min index (len - 1)) with
  | none => return (viewport, false)
  | some (start, stop) => return viewport.scrollTo (viewport.alignedOffset start stop align)

/-- Scrolls just enough to show an item in full. -/
def reveal (index : Nat) (viewport : Viewport M S) : Except Fault (Viewport M S × Bool) :=
  viewport.bring index .nearest

end Viewport

end Windowing
