import Windowing.Host

/-!
# Rehearsals

A rehearsal is a host whose behaviour is written down in advance: what it answers each time
it is polled, which items need which kind of view, and where it refuses or gives up. Its
views are blank.

## Main definitions

* `Rehearsal` — the host.
* `BlankView` — a view that does nothing.
* `Rehearsal.items`, `Rehearsal.itemCallbacks`, `Rehearsal.cells`, `Rehearsal.cellCallbacks` —
  the host as a source.
-/

namespace Windowing

/-- A host with written behaviour. It is polled for answers of type `P`, and its items are
addressed by keys of type `K`. -/
structure Rehearsal (P K : Type) where
  /-- The answer to the next poll. -/
  poll : P
  /-- The answers to the polls after it; the last one stays. -/
  polls : List P
  /-- The kinds of the items, over and over; items are of the default kind without any. -/
  kinds : Array ViewKind
  /-- How many views are built at most. -/
  createLimit : Option Nat
  /-- The kinds that no view is built for. -/
  noCreate : List ViewKind
  /-- Whether building a view fails. -/
  createFails : Bool
  /-- The key whose view cannot be filled. -/
  bindFails : Option K
  /-- The number of views built so far. -/
  created : Nat

/-- A view that does nothing with what it is told. -/
structure BlankView (S : Type) where

instance {H S : Type} : ViewHandle H (BlankView S) S where
  setPosition _ view := view
  setSize _ view := view

namespace Rehearsal

variable {P K S : Type}

/-- A host that answers `poll` to every poll and builds every view. -/
def ofPoll (poll : P) : Rehearsal P K where
  poll := poll
  polls := []
  kinds := #[]
  createLimit := none
  noCreate := []
  createFails := false
  bindFails := none
  created := 0

/-- Answers a poll. -/
def answer (host : Rehearsal P K) : P × Rehearsal P K :=
  (host.poll, match host.polls with
    | [] => host
    | next :: rest => { host with poll := next, polls := rest })

/-- The kind of an item. -/
def kindOf (host : Rehearsal P K) (index : Nat) : ViewKind :=
  host.kinds.getD (index % host.kinds.size) .only

/-- Whether a view of a kind is not built now. -/
def refuses (host : Rehearsal P K) (kind : ViewKind) : Bool :=
  (host.createLimit.any (· ≤ host.created)) || host.noCreate.contains kind

/-- Builds a view of a kind, unless the host refuses or gives up. -/
def create (kind : ViewKind) : Step (Rehearsal P K) (Option (BlankView S)) := do
  let host ← get
  if host.createFails then
    throw (.host s!"create failed for kind {kind.number}")
  if host.refuses kind then
    return none
  set { host with created := host.created + 1 }
  return some {}

/-- Has a view filled with the content of a key, unless the host gives up on it. -/
def bind [DecidableEq K] [ToString K] (key : K) :
    Step (Hosted (Rehearsal P K) (BlankView S)) Unit := do
  if (← get).host.bindFails = some key then
    throw (.host s!"bind failed for {key}")

/-- The host as a source of items. -/
def items : ItemSource (Rehearsal Nat Nat) (BlankView S) where
  len := answer
  kind := kindOf
  create := create
  bind := bind

/-- The host as functions that make up a source of items of one kind. -/
def itemCallbacks : Callbacks (Rehearsal Nat Nat) (BlankView S) where
  len := answer
  create := create .only
  bind := bind

/-- The host as a source of cells. -/
def cells : TableSource (Rehearsal (Nat × Nat) CellId) (BlankView S) where
  dimensions := answer
  create := create .only
  bind := bind

/-- The host as functions that make up a source of cells. -/
def cellCallbacks : TableCallbacks (Rehearsal (Nat × Nat) CellId) (BlankView S) where
  dimensions := answer
  create := create .only
  bind := bind

end Rehearsal

end Windowing
