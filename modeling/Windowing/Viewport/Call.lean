import Windowing.Extent.Call
import Windowing.Viewport

/-!
# Calls on viewports

The public calls on a viewport, as data. Calls on its model are data of their own, and
whoever performs a call says what they do.

## Main definitions

* `Viewport.Call` — the calls.
* `Viewport.Call.perform` — what a call does to a viewport.
-/

namespace Windowing.Viewport

/-- The public calls on a viewport over a model that understands the calls `E`. -/
inductive Call (E S : Type) where
  | setLookahead (lookahead : Nat)
  | model (call : E)
  | invalidate
  | scrollTo (offset : S)
  | scrollBy (delta : S)
  | resize (extent : S)
  | maxOffset
  | clamp
  | window
  | positionOf (index : Nat)
  | extentOf (index : Nat)
  | isFullyVisible (index : Nat)
  | isPartiallyVisible (index : Nat)
  | reveal (index : Nat)
  | scrollToStart
  | scrollToEnd
  | bring (index : Nat) (align : ScrollAlign)

/-- What a call on a viewport answers: a window, or what a model may answer too. -/
inductive Answer (S : Type) where
  | plain (reply : Reply S)
  | window (window : VisibleWindow S)

variable {E M S : Type} [Scalar S] [ExtentModel M S]

/-- A step that moves the viewport and answers whether it did. -/
private def moving (move : Viewport M S → Viewport M S × Bool) :
    Step (Viewport M S) (Answer S) :=
  modifyGet fun viewport ↦
    let (viewport, moved) := move viewport
    (.plain (.flag moved), viewport)

/-- A step that moves the viewport, unless its model lost the item, and answers whether it
did. -/
private def movingTo (move : Viewport M S → Except Fault (Viewport M S × Bool)) :
    Step (Viewport M S) (Answer S) := do
  let (viewport, moved) ← Step.ofExcept (move (← get))
  set viewport
  return .plain (.flag moved)

/-- Makes a call on a viewport, where `edit` says what a call on its model does. -/
def Call.perform (edit : E → Step M (Reply S)) :
    Call E S → Step (Viewport M S) (Answer S)
  | setLookahead lookahead => do
    modify (Viewport.setLookahead lookahead)
    return .plain .done
  | model call => return .plain (← onModel (edit call))
  | invalidate => do
    modify Viewport.invalidate
    return .plain .done
  | scrollTo offset => moving (Viewport.scrollTo offset)
  | scrollBy delta => moving (Viewport.scrollBy delta)
  | resize extent => moving (Viewport.resize extent)
  | maxOffset => return .plain (.scalar (← get).maxOffset)
  | clamp => moving Viewport.clamp
  | window => modifyGet fun viewport ↦
    let (found, viewport) := viewport.window
    (.window found, viewport)
  | positionOf index => return .plain (.scalar ((← get).positionOf index))
  | extentOf index => do
    return .plain (.scalar (← Step.ofExcept (ExtentModel.extentOf (← get).model index)))
  | isFullyVisible index => do
    return .plain (.flag (← Step.ofExcept ((← get).isFullyVisible index)))
  | isPartiallyVisible index => do
    return .plain (.flag (← Step.ofExcept ((← get).isPartiallyVisible index)))
  | reveal index => movingTo (Viewport.reveal index)
  | scrollToStart => moving Viewport.scrollToStart
  | scrollToEnd => moving Viewport.scrollToEnd
  | bring index align => movingTo (Viewport.bring index align)

end Windowing.Viewport
