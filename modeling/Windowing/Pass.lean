import Windowing.ViewStock

/-!
# Layout passes

A layout pass brings the live views in line with a window of keys. Views that leave the
window go to their pools. Keys that enter it are given a view, which is styled, bound and
then placed. Keys that stay only have their view placed, unless the pass rebinds all views
or the key now needs a view of another kind.

Lists, grids and tables share this part of a pass: it knows keys, the rectangles they go
to and the source of the views, and nothing of scrolling.

## Main definitions

* `ViewSource` — where the views of a stock come from.
* `Layout` — what a pass wants of each key.
* `Due` — what a pass has to do beyond following the window.
* `Tally`, `Pass` — what a pass did.
* `ViewStock.realize` — the work of a pass on one key.
* `ViewStock.follow` — the work of a pass on a whole window.
-/

namespace Windowing

/-- Where the views of a stock come from, and how they get their content. -/
structure ViewSource (K H V : Type) where
  /-- The kind of view that shows a key. -/
  kind : H → K → ViewKind
  /-- Builds an unbound view of a kind, or refuses to. -/
  create : ViewKind → Step H (Option V)
  /-- Fills a view with the content of a key. -/
  bind : K → Step (Hosted H V) Unit

/-- A source of items, as a source of views. -/
def ItemSource.views {H V : Type} (source : ItemSource H V) : ViewSource Nat H V where
  kind := source.kind
  create := source.create
  bind := source.bind

/-- The source of a table, as a source of views: all cells are of one kind. -/
def TableSource.views {H V : Type} (source : TableSource H V) : ViewSource CellId H V where
  kind _ _ := .only
  create _ := source.create
  bind := source.bind

/-- What a pass wants of the keys of its window. -/
structure Layout (K S : Type) where
  /-- The rectangle that a key goes to. -/
  rect : K → Except Fault (Rect S)
  /-- Whether a key is selected. -/
  selected : K → Bool
  /-- Whether views that stay are bound again. -/
  rebind : Bool
  /-- Whether views that stay are placed even if they did not move. -/
  force : Bool

/-- How many views a pass bound, moved and had built. -/
structure Tally where
  /-- Keys that entered the window and were bound. -/
  bound : Nat := 0
  /-- Keys that stayed in the window and were bound again. -/
  rebound : Nat := 0
  /-- Views that went to their pool. -/
  released : Nat := 0
  /-- Views that the host built. -/
  created : Nat := 0

namespace Tally

instance : Add Tally where
  add a b := ⟨a.bound + b.bound, a.rebound + b.rebound, a.released + b.released,
    a.created + b.created⟩

/-- The number of times that the pass had a view filled. -/
def binds (tally : Tally) : Nat :=
  tally.bound + tally.rebound

end Tally

/-- What a pass did: the window that it left, its counts, and the selections it dropped. -/
structure Pass (W K : Type) extends Tally where
  /-- The window that is realized after the pass. -/
  window : W
  /-- The selections dropped because their item no longer exists. -/
  unselected : List (Selection.Change K)

/-- Work that the next pass has to do beyond following the window. -/
structure Due where
  /-- Take the length as changed even if it looks the same. -/
  length : Bool := false
  /-- Bind every live view again. -/
  rebind : Bool := false
  /-- Place every live view even if it did not move. -/
  place : Bool := false

namespace Due

/-- The due work with a rebinding of all views added. -/
def refresh (due : Due) : Due :=
  { due with rebind := true, place := true }

end Due

namespace ViewStock

variable {H K V S : Type} [DecidableEq K] [Scalar S] [ViewHandle H V S]

/-- Styles a view and has it filled with the content of a key. -/
def present (source : ViewSource K H V) (key : K) (selected : Bool) :
    Step (Hosted H (Slot K V S)) Unit := do
  modify (Slot.style selected)
  Slot.onView (source.bind key)

/-- Moves the view live under a key to its pool if the key needs another kind; answers
whether it did. -/
def releaseForeign (key : K) (kind : ViewKind) : Step (ViewStock K V S) Bool := do
  match (← get).kindOf? key with
  | some live => if live = kind then return false else release key
  | none => return false

/-- The work of a pass on a key that has a live view. -/
def keep (source : ViewSource K H V) (layout : Layout K S) (key : K) (rect : Rect S) :
    Step (Hosted H (Slot K V S)) Tally := do
  if layout.rebind then
    present source key (layout.selected key)
  modify (Slot.place rect layout.force)
  return { rebound := layout.rebind.toNat }

/-- The work of a pass on a key that was just given a view. -/
def enter (source : ViewSource K H V) (layout : Layout K S) (key : K) (rect : Rect S) :
    Step (Hosted H (Slot K V S)) Tally := do
  present source key (layout.selected key)
  modify (Slot.place rect true)
  return { bound := 1 }

/-- The work of a pass on one key of the window. A key for which the host builds no view is
left without one. -/
def realize (source : ViewSource K H V) (layout : Layout K S) (key : K) :
    Step (Hosted H (ViewStock K V S)) Tally := do
  let rect ← Step.ofExcept (layout.rect key)
  let kind := source.kind (← get).host key
  let released ← Hosted.onHeld (releaseForeign key kind)
  let swapped : Tally := { released := released.toNat }
  match ← onLive key (keep source layout key rect) with
  | some kept => return swapped + kept
  | none =>
    match ← supply key kind (source.create kind) with
    | none => return swapped
    | some created =>
      let entered ← onLive key (enter source layout key rect)
      return swapped + entered.getD {} + { created := created.toNat }

/-- The work of a pass on the keys of the window, one after another. -/
def realizeAll (source : ViewSource K H V) (layout : Layout K S) :
    List K → Step (Hosted H (ViewStock K V S)) Tally
  | [] => return {}
  | key :: rest => do
    let first ← realize source layout key
    return first + (← realizeAll source layout rest)

/-- Moves the views that are to go to their pools; answers how many. A rebinding pass releases
whatever is live outside the window, and any other pass the keys that leave it. -/
def vacate (rebind : Bool) (leaving : List K) (inWindow : K → Bool) :
    Step (ViewStock K V S) Nat :=
  if rebind then releaseUnless inWindow else releaseAll leaving

/-- Brings the live views in line with a window. -/
def follow (source : ViewSource K H V) (layout : Layout K S) (leaving keys : List K)
    (inWindow : K → Bool) : Step (Hosted H (ViewStock K V S)) Tally := do
  let released ← Hosted.onHeld (vacate layout.rebind leaving inWindow)
  let tally ← realizeAll source layout keys
  Step.require ((← get).held.live.keys.all inWindow) .strayView
  return { released } + tally

/-- Binds the view live under a key again; answers whether there is one. -/
def refill (source : ViewSource K H V) (key : K) (selected : Bool) :
    Step (Hosted H (ViewStock K V S)) Bool := do
  return (← onLive key (present source key selected)).isSome

end ViewStock

end Windowing
