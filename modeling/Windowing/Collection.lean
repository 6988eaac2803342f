import Windowing.Pass
import Windowing.Viewport.Request

/-!
# Collections

A collection is a list or a grid of items that scrolls along one axis. It keeps exactly the
items of its visible window backed by live views. Scrolling, resizing and edits only record
what changed; a layout pass brings the views up to date. A pass polls the length of the
source first, so that changes of the data are noticed without being announced.

A scroll request takes effect at once, against the length that was polled last. The latest
one is applied again by the next pass, so that an item that the source has gained since is
still reached. A pass that a fault cut short is remembered as open, and the next pass then
rebinds all views.

## Main definitions

* `Collection` — the scroll state, the views, the selection and the work that is due.
* `Collection.layout` — the layout pass.
* `Collection.select`, `Collection.itemInvalidated` — calls that may run a pass themselves.
-/

namespace Windowing

/-- A list or a grid of items with live views for its visible window. -/
structure Collection (M V S : Type) where
  /-- The scroll state over the model of the items. -/
  viewport : Viewport M S
  /-- The axis along which the collection scrolls. -/
  axis : Axis
  /-- The extent of the viewport across that axis. -/
  crossExtent : S
  /-- The views. -/
  stock : ViewStock Nat V S
  /-- The window that the last completed pass realized. -/
  window : VisibleWindow S
  /-- The selected items. -/
  selection : Selection Nat
  /-- What the next pass has to do beyond following the window. -/
  due : Due
  /-- The latest scroll request since the last pass. -/
  pending : Option (ScrollRequest S)
  /-- Whether a pass has begun and not ended. -/
  passOpen : Bool

namespace Collection

variable {H M V S : Type} [Scalar S] [ExtentModel M S] [ResizableModel M S]
  [CrossPlacement M S] [ViewHandle H V S]

/-! ### Construction -/

/-- A collection over a model, with an empty viewport. -/
def ofModel (model : M) (axis : Axis) : Collection M V S where
  viewport := .ofModel model Scalar.zero
  axis := axis
  crossExtent := Scalar.zero
  stock := .empty
  window := .empty
  selection := .ofMode default
  due := { length := true }
  pending := none
  passOpen := false

/-- The collection with an empty selection of the given mode. -/
def withSelectionMode (mode : SelectionMode) (items : Collection M V S) : Collection M V S :=
  { items with selection := .ofMode mode }

/-- The collection with the given number of look-ahead tracks. -/
def withLookahead (lookahead : Nat) (items : Collection M V S) : Collection M V S :=
  { items with viewport := items.viewport.setLookahead lookahead }

/-! ### Queries -/

/-- The model of the items. -/
def model (items : Collection M V S) : M :=
  items.viewport.model

/-- The size of the viewport. -/
def viewportSize (items : Collection M V S) : Size S :=
  items.axis.join items.viewport.extent items.crossExtent

/-- The live views of the window, in the order of their items. -/
def views (items : Collection M V S) : List (Nat × V) :=
  items.window.toList.filterMap fun index ↦
    (items.stock.view? index).map fun view ↦ (index, view)

/-- The rectangle that an item goes to, in the coordinates of the viewport. -/
def placement (items : Collection M V S) (index : Nat) : Except Fault (Rect S) := do
  let start := items.viewport.positionOf index
  let extent ← ExtentModel.extentOf items.model index
  let across := CrossPlacement.crossSpan items.model index items.crossExtent
  return items.axis.rect (start, extent) across

/-! ### Scrolling and resizing -/

/-- Pulls the viewport back where it reaches past the content. -/
def clampScroll (items : Collection M V S) : Collection M V S :=
  { items with viewport := items.viewport.clamp.1 }

/-- Records a scroll request and applies it; answers whether the viewport moved. -/
def requestScroll (request : ScrollRequest S) : Step (Collection M V S) Bool := do
  modify fun items ↦ { items with pending := some request }
  let (viewport, moved) ← Step.ofExcept (request.apply (← get).viewport)
  modify fun items ↦ { items with viewport }
  return moved

/-- Scrolls by a distance; answers whether the viewport moved. -/
def scrollBy (delta : S) : Step (Collection M V S) Bool := do
  requestScroll (.offset ((← get).viewport.offset + delta))

/-- Resizes the viewport; answers whether anything changed. A grid counts its lanes anew when
the extent across the axis changed. The offset may be pulled back against a length that is
out of date, so the old one becomes a request unless a newer one is pending. -/
def setViewportSize (size : Size S) (items : Collection M V S) : Collection M V S × Bool :=
  let (main, cross) := items.axis.split size
  let offset := items.viewport.offset
  let (viewport, resized) := items.viewport.resize main
  let (viewport, crossExtent, recrossed) :=
    if Scalar.eq cross items.crossExtent then (viewport, items.crossExtent, false)
    else
      let (model, moved) := CrossPlacement.fitCrossExtent cross viewport.model
      let viewport := viewport.withModel model
      (if moved then viewport.clamp.1 else viewport, cross, true)
  if resized || recrossed then
    ({ items with
        viewport, crossExtent
        pending := some (items.pending.getD (.offset offset))
        due := { items.due with place := true } }, true)
  else
    (items, false)

/-- Gives an item an extent of its own; answers whether the item exists. -/
def setItemExtent (index : Nat) (extent : S) : Step (Collection M V S) Bool := do
  let applied ← onViewport (Viewport.onModel (ResizableModel.setItemExtent index extent))
  if applied then
    modify clampScroll
  return applied
where
  /-- A step on the viewport. -/
  onViewport {α : Type} (step : Step (Viewport M S) α) : Step (Collection M V S) α :=
    Step.within viewport (fun viewport items ↦ { items with viewport }) step

/-- Takes an item's own extent away; answers whether it had one. -/
def clearItemExtent (index : Nat) (items : Collection M V S) : Collection M V S × Bool :=
  let (model, cleared) := ResizableModel.clearItemExtent index items.model
  let items := { items with viewport := items.viewport.withModel model }
  (if cleared then items.clampScroll else items, cleared)

/-- A step on the model. The next pass places every live view again. -/
def onModel {α : Type} (step : Step M α) : Step (Collection M V S) α := do
  modify fun items ↦ { items with due := { items.due with place := true } }
  Step.within viewport (fun viewport items ↦ { items with viewport }) (Viewport.onModel step)

/-! ### Parts of a pass -/

/-- Begins a pass. Where the last one was cut short, all views are to be bound again. -/
def openPass (items : Collection M V S) : Collection M V S :=
  { items with
    passOpen := true
    due := if items.passOpen then items.due.refresh else items.due }

/-- Takes over the length of the source: extents and selections past the end are dropped, and
all views are to be bound again, since an index may now stand for another item. -/
def adoptLength (len : Nat) (items : Collection M V S) :
    Collection M V S × List (Selection.Change Nat) :=
  let viewport := (items.viewport.withModel (ResizableModel.setLen len items.model)).clamp.1
  let (selection, dropped) := items.selection.retain (Bounded.inBounds len)
  ({ items with viewport, selection, due := items.due.refresh }, dropped)

/-- Takes over the length of the source where it differs from the model's, or where it is to
be taken as changed. -/
def syncLength (len : Nat) (items : Collection M V S) :
    Collection M V S × List (Selection.Change Nat) :=
  if items.due.length || len != ExtentModel.len items.model then items.adoptLength len
  else (items, [])

/-- Applies the pending scroll request once more, against the length just polled. -/
def applyPending : Step (Collection M V S) Unit := do
  match (← get).pending with
  | none => return ()
  | some request =>
    modify fun items ↦ { items with pending := none }
    let (viewport, _) ← Step.ofExcept (request.apply (← get).viewport)
    modify fun items ↦ { items with viewport }

/-- The visible window, kept or found anew. -/
def takeWindow (items : Collection M V S) : VisibleWindow S × Collection M V S :=
  let (window, viewport) := items.viewport.window
  (window, { items with viewport })

/-- The part of a pass that only concerns scrolling, once the source has said how many items
there are: the length is taken over, the pending request is applied, the viewport is pulled
back, and the window is found. Answers the window and the selections dropped. -/
def approach (len : Nat) :
    Step (Collection M V S) (VisibleWindow S × List (Selection.Change Nat)) := do
  let unselected ← modifyGet fun items ↦ (items.syncLength len).swap
  applyPending
  modify clampScroll
  let window ← modifyGet takeWindow
  return (window, unselected)

/-- What a pass wants of each item, given the work that is due. -/
def layoutFor (items : Collection M V S) (due : Due) : Layout Nat S where
  rect := items.placement
  selected := items.selection.isSelected
  rebind := due.rebind
  force := due.place

/-- A step on the views of a collection, and on its host. -/
def onStock {α : Type} (step : Step (Hosted H (ViewStock Nat V S)) α) :
    Step (Hosted H (Collection M V S)) α :=
  Hosted.onPart stock (fun stock items ↦ { items with stock }) step

/-- The part of a pass that works on views: they are brought in line with a window. The work
that was due is taken as done when this part begins, and the pass ends with it. -/
def realize (source : ItemSource H V) (window : VisibleWindow S) :
    Step (Hosted H (Collection M V S)) Tally := do
  let items := (← get).held
  Hosted.onHeld (modify fun items ↦ { items with due := {} })
  let tally ← onStock <|
    ViewStock.follow source.views (items.layoutFor items.due)
      (IndexRange.leaving items.window.toIndexRange window.toIndexRange) window.toList
      window.contains
  Hosted.onHeld (modify fun items ↦ { items with window, passOpen := false })
  return tally

/-- Polls the length of the source. -/
def pollLength (source : ItemSource H V) : Step (Hosted H (Collection M V S)) Nat :=
  Hosted.onHost (modifyGet source.len)

/-! ### The pass -/

/-- The part of a pass before it works on views: it polls the length of the source and finds the
window. Answers the window and the selections dropped. -/
def prepare (source : ItemSource H V) :
    Step (Hosted H (Collection M V S)) (VisibleWindow S × List (Selection.Change Nat)) := do
  Hosted.onHeld (modify openPass)
  let len ← pollLength source
  Hosted.onHeld (approach len)

/-- The layout pass. It polls the length of the source, finds the window and brings the live
views in line with it. -/
def layout (source : ItemSource H V) :
    Step (Hosted H (Collection M V S)) (Pass IndexRange Nat) := do
  let (window, unselected) ← prepare source
  let tally ← realize source window
  return { tally with window := window.toIndexRange, unselected }

/-! ### Changes of the data -/

/-- Has the next pass take the length as changed even if it looks the same. -/
def announceLength (items : Collection M V S) : Collection M V S :=
  { items with due := { items.due with length := true } }

/-- Has the next pass bind and place all views again. -/
def announceRefresh (items : Collection M V S) : Collection M V S :=
  { items with due := items.due.refresh }

/-- The pass after an announced change of the length. -/
def lengthChanged (source : ItemSource H V) :
    Step (Hosted H (Collection M V S)) (Pass IndexRange Nat) := do
  Hosted.onHeld (modify announceLength)
  layout source

/-- The pass after a change of all items' presentation. -/
def refreshAll (source : ItemSource H V) :
    Step (Hosted H (Collection M V S)) (Pass IndexRange Nat) := do
  Hosted.onHeld (modify announceRefresh)
  layout source

/-- The part of invalidating an item before the pass: a view of the kind that the item needs is
bound again. Answers whether the item has a view, and whether a pass is to follow. -/
def revise (source : ItemSource H V) (index : Nat) :
    Step (Hosted H (Collection M V S)) (Bool × Bool) := do
  let kind := source.kind (← get).host index
  match (← get).held.stock.kindOf? index with
  | none => return (false, false)
  | some live =>
    if live = kind then
      let selected := (← get).held.selection.isSelected index
      return (← onStock (ViewStock.refill source.views index selected), false)
    else
      return (true, true)

/-- Binds the view of one item again; answers whether it has one. An item that needs another
kind of view gets it through a pass. -/
def itemInvalidated (source : ItemSource H V) (index : Nat) :
    Step (Hosted H (Collection M V S)) Bool := do
  let (live, follows) ← revise source index
  if follows then
    let _ ← layout source
  return live

/-! ### Selection -/

/-- Makes a change of the selection, and styles the live views that it is about. -/
def changeSelection (change : Selection Nat → Selection Nat × List (Selection.Change Nat)) :
    Step (Hosted H (Collection M V S)) (List (Selection.Change Nat)) := do
  let changes ← Hosted.onHeld <| modifyGet fun items ↦
    let (selection, changes) := change items.selection
    (changes, { items with selection })
  onStock (ViewStock.restyle changes)
  return changes

/-- The part of selecting an item before the pass: the item is selected and scrolled into view.
An item that does not exist or is selected already is ignored. Answers the changes, and whether
a pass is to follow. -/
def aim (source : ItemSource H V) (index : Nat) :
    Step (Hosted H (Collection M V S)) (List (Selection.Change Nat) × Bool) := do
  let len ← pollLength source
  let changes ← changeSelection (Selection.select (Bounded.inBounds len) index)
  if changes.isEmpty then
    return (changes, false)
  let dropped ← Hosted.onHeld <| modifyGet fun items ↦
    if len != ExtentModel.len items.model then (items.adoptLength len).swap else ([], items)
  let _ ← Hosted.onHeld (requestScroll (.item index .nearest))
  return (changes ++ dropped, true)

/-- Selects an item, scrolls it into view and runs a pass, unless the item is ignored. -/
def select (source : ItemSource H V) (index : Nat) :
    Step (Hosted H (Collection M V S)) (List (Selection.Change Nat)) := do
  let (changes, follows) ← aim source index
  if follows then
    let pass ← layout source
    return changes ++ pass.unselected
  else
    return changes

/-- Drops every view; answers how many there were. The next pass builds views anew. -/
def destroyAll (items : Collection M V S) : Nat × Collection M V S :=
  let (count, stock) := items.stock.destroyAll
  (count, { items with stock, window := .empty })

end Collection

end Windowing
