import Windowing.Collection
import Windowing.Extent.Call

/-!
# Calls on collections

The public calls on a collection, as data, so that a run of calls is a list. The host may
change on its own between two calls; that is a call too. Calls on the model are data of
their own, and whoever performs a call says what they do.

## Main definitions

* `Collection.Call`, `Collection.Answer` — the calls and what they answer.
* `Collection.Call.perform` — what a call does to a collection and its host.
-/

namespace Windowing.Collection

/-- The public calls on a collection with views of type `V`, whose model understands the calls
`E`, and the changes of a host of type `H`. -/
inductive Call (E H V S : Type) where
  | layout
  | refreshAll
  | lengthChanged
  | itemInvalidated (index : Nat)
  | select (index : Nat)
  | unselect (index : Nat)
  | unselectAll
  | setSelectionMode (mode : SelectionMode)
  | isSelected (index : Nat)
  | setViewportSize (size : Size S)
  | scrollTo (offset : S)
  | scrollBy (delta : S)
  | reveal (index : Nat)
  | bring (index : Nat) (align : ScrollAlign)
  | scrollToStart
  | scrollToEnd
  | isFullyVisible (index : Nat)
  | setItemExtent (index : Nat) (extent : S)
  | clearItemExtent (index : Nat)
  | model (call : E)
  | destroyAll
  /-- The host reaches into the view of an item. -/
  | editView (index : Nat) (change : V → V)
  /-- The host changes on its own. -/
  | host (change : H → H)

/-- What a call on a collection answers. -/
inductive Answer (S : Type) where
  | done
  | flag (value : Bool)
  | count (value : Nat)
  | model (reply : Reply S)
  | pass (pass : Pass IndexRange Nat)
  | changes (changes : List (Selection.Change Nat))

variable {E H M V S : Type} [Scalar S] [ExtentModel M S] [ResizableModel M S]
  [CrossPlacement M S] [ViewHandle H V S]

/-- A step that changes a collection by a function and answers the flag it gives. -/
def flagged (change : Collection M V S → Collection M V S × Bool) :
    Step (Hosted H (Collection M V S)) (Answer S) :=
  Hosted.onHeld <| modifyGet fun items ↦
    let (items, changed) := change items
    (.flag changed, items)

/-- A step that records a scroll request and answers whether the viewport moved. -/
def scrolling (step : Step (Collection M V S) Bool) :
    Step (Hosted H (Collection M V S)) (Answer S) := do
  return .flag (← Hosted.onHeld step)

/-- Makes a call on a collection, where `edit` says what a call on its model does. -/
def Call.perform (edit : E → Step M (Reply S)) (source : ItemSource H V) :
    Call E H V S → Step (Hosted H (Collection M V S)) (Answer S)
  | layout => return .pass (← Collection.layout source)
  | refreshAll => return .pass (← Collection.refreshAll source)
  | lengthChanged => return .pass (← Collection.lengthChanged source)
  | itemInvalidated index => return .flag (← Collection.itemInvalidated source index)
  | select index => return .changes (← Collection.select source index)
  | unselect index => return .changes (← changeSelection (Selection.unselect index))
  | unselectAll => return .changes (← changeSelection Selection.unselectAll)
  | setSelectionMode mode => return .changes (← changeSelection (Selection.setMode mode))
  | isSelected index => return .flag ((← get).held.selection.isSelected index)
  | setViewportSize size => flagged (Collection.setViewportSize size)
  | scrollTo offset => scrolling (requestScroll (.offset offset))
  | scrollBy delta => scrolling (Collection.scrollBy delta)
  | reveal index => scrolling (requestScroll (.item index .nearest))
  | bring index align => scrolling (requestScroll (.item index align))
  | scrollToStart => scrolling (requestScroll (.offset Scalar.zero))
  | scrollToEnd => scrolling (requestScroll .stop)
  | isFullyVisible index => do
    return .flag (← Step.ofExcept ((← get).held.viewport.isFullyVisible index))
  | setItemExtent index extent => scrolling (Collection.setItemExtent index extent)
  | clearItemExtent index => flagged (Collection.clearItemExtent index)
  | model call => return .model (← Hosted.onHeld (onModel (edit call)))
  | destroyAll => Hosted.onHeld <| modifyGet fun items ↦
    let (count, items) := items.destroyAll
    (.count count, items)
  | editView index change => do
    let edited ← onStock <| ViewStock.onLive index <| modify fun slot ↦
      { slot with held := { slot.held with view := change slot.held.view } }
    return .flag edited.isSome
  | host change => do
    modify fun hosted ↦ { hosted with host := change hosted.host }
    return .done

end Windowing.Collection
