import Windowing.Host
import Windowing.Keyed
import Windowing.Pool
import Windowing.Selection

/-!
# The stock of views

A collection owns every view that its host built. A view is *live* under the key of the
item that it shows, or it waits in the pool of its kind. Releasing a view moves it from the
first place to the second, and a key that needs a view is given a pooled one of the right
kind before the host is asked to build another.

A slot remembers where its view was last placed, so that a view that did not move is not
told again.

## Main definitions

* `Slot` — a view, its kind, the key it was last given to and where it was placed.
* `ViewStock` — the live slots and the pools.
* `ViewStock.release`, `ViewStock.supply` — between the two.
-/

namespace Windowing

/-- A view and what its collection remembers about it. -/
structure Slot (K V S : Type) where
  /-- The view. -/
  view : V
  /-- The kind that the view was built for. -/
  kind : ViewKind
  /-- The key that the view was last given to; it stays while the view waits in its pool. -/
  key : Option K
  /-- The rectangle that the view was last given. -/
  placed : Option (Rect S)

namespace Slot

variable {H K V S : Type} [Scalar S] [ViewHandle H V S]

/-- The slot of a view that was just built. -/
def ofView (view : V) (kind : ViewKind) : Slot K V S :=
  { view, kind, key := none, placed := none }

/-- A step on the view of a slot. -/
def onView {α : Type} (step : Step (Hosted H V) α) : Step (Hosted H (Slot K V S)) α :=
  Hosted.onPart view (fun view slot ↦ { slot with view }) step

/-- Tells the view its size and then its position, except what it was told last and was not
told to forget. -/
def place (rect : Rect S) (force : Bool) (slot : Hosted H (Slot K V S)) :
    Hosted H (Slot K V S) :=
  let last := if force then none else slot.held.placed
  let view : Hosted H V := ⟨slot.host, slot.held.view⟩
  let view :=
    if last.any fun r ↦ r.size.eq rect.size then view else ViewHandle.setSize rect.size view
  let view :=
    if last.any fun r ↦ r.origin.eq rect.origin then view
    else ViewHandle.setPosition rect.origin view
  ⟨view.host, { slot.held with view := view.held, placed := some rect }⟩

/-- Styles the view of a slot. -/
def style (selected : Bool) (slot : Hosted H (Slot K V S)) : Hosted H (Slot K V S) :=
  let view := ViewHandle.setSelected selected ⟨slot.host, slot.held.view⟩
  ⟨view.host, { slot.held with view := view.held }⟩

end Slot

/-- All views of a collection. -/
structure ViewStock (K V S : Type) where
  /-- The slots of the views in use, under the keys they show. -/
  live : Keyed K (Slot K V S)
  /-- The slots of the views out of use, by kind. -/
  pools : Keyed ViewKind (Pool (Slot K V S))

namespace ViewStock

variable {H K V S : Type} [DecidableEq K]

/-- The stock without views. -/
def empty : ViewStock K V S :=
  ⟨.empty, .empty⟩

/-! ### Counts and look-ups -/

/-- The number of views in use. -/
def liveCount (stock : ViewStock K V S) : Nat :=
  stock.live.size

/-- The number of views out of use. -/
def pooledCount (stock : ViewStock K V S) : Nat :=
  stock.pools.values.foldr (fun pool total ↦ pool.size + total) 0

/-- The kind of the view live under a key. -/
def kindOf? (stock : ViewStock K V S) (key : K) : Option ViewKind :=
  (stock.live.find? key).map Slot.kind

/-- The view live under a key. -/
def view? (stock : ViewStock K V S) (key : K) : Option V :=
  (stock.live.find? key).map Slot.view

/-- The pool of a kind. -/
def pool (stock : ViewStock K V S) (kind : ViewKind) : Pool (Slot K V S) :=
  (stock.pools.find? kind).getD .empty

/-! ### Moving views between use and the pools -/

/-- The stock with a slot put into the pool of its kind. -/
def putBack (slot : Slot K V S) (stock : ViewStock K V S) : ViewStock K V S :=
  { stock with pools := stock.pools.insert slot.kind ((stock.pool slot.kind).release slot) }

/-- Moves the view live under a key to its pool; answers whether there was one. -/
def release (key : K) : Step (ViewStock K V S) Bool := do
  match (← get).live.find? key with
  | none => return false
  | some slot =>
    modify fun stock ↦ { stock with live := stock.live.erase key }
    Step.require (slot.key = some key) .slotShowsAnother
    modify (putBack slot)
    return true

/-- Moves the views live under the given keys to their pools; answers how many there were. -/
def releaseAll : List K → Step (ViewStock K V S) Nat
  | [] => return 0
  | key :: rest => do
    let released ← release key
    return (← releaseAll rest) + released.toNat

/-- Moves every live view whose key is not to be kept to its pool; answers how many. The views go in
the one order in which they are stored here, where a map may be walked in any order. That order says
only which of several pooled views of a kind is taken again first, and no result depends on it. -/
def releaseUnless (keep : K → Bool) : Step (ViewStock K V S) Nat := do
  releaseAll ((← get).live.keys.filter fun key ↦ !keep key)

/-- Takes the slot that was released last out of the pool of a kind. -/
def takePooled (kind : ViewKind) : Step (ViewStock K V S) (Option (Slot K V S)) :=
  modifyGet fun stock ↦
    let (slot, pool) := (stock.pool kind).obtain?
    (slot, { stock with pools := stock.pools.insert kind pool })

/-- Makes a pooled view of a kind live under a key, or else one that the host builds. Answers
whether the host built it, or nothing where the host refused. -/
def supply (key : K) (kind : ViewKind) (create : Step H (Option V)) :
    Step (Hosted H (ViewStock K V S)) (Option Bool) := do
  match ← Hosted.onHeld (takePooled kind) with
  | some slot =>
    Step.require (slot.kind = kind) .foreignKind
    Hosted.onHeld (goLive slot)
    return some false
  | none =>
    match ← Hosted.onHost create with
    | some view =>
      Hosted.onHeld (goLive (.ofView view kind))
      return some true
    | none => return none
where
  /-- Makes a slot live under the key. -/
  goLive (slot : Slot K V S) : Step (ViewStock K V S) Unit := do
    Step.require ((← get).live.find? key).isNone .keyTaken
    modify fun stock ↦ { stock with live := stock.live.insert key { slot with key := some key } }

/-! ### Working on live views -/

/-- A step on the slot live under a key, if there is one. -/
def onLive {α : Type} (key : K) (step : Step (Hosted H (Slot K V S)) α) :
    Step (Hosted H (ViewStock K V S)) (Option α) := do
  match (← get).held.live.find? key with
  | none => return none
  | some slot =>
    some <$> Hosted.onPart (fun _ ↦ slot)
      (fun slot stock ↦ { stock with live := stock.live.insert key slot }) step

/-- Drops every view; answers how many there were. -/
def destroyAll (stock : ViewStock K V S) : Nat × ViewStock K V S :=
  (stock.liveCount + stock.pooledCount, empty)

variable [BEq K] [Hashable K] [ViewHandle H V S]

/-- Styles the live views that a change of the selection is about. -/
def restyle : List (Selection.Change K) → Step (Hosted H (ViewStock K V S)) Unit
  | [] => return ()
  | change :: rest => do
    let _ ← onLive change.key (modify (Slot.style change.isSelected))
    restyle rest

end ViewStock

end Windowing
