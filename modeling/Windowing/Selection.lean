import Std.Data.HashSet

/-!
# Selections

A selection is the list of the keys that are selected, oldest first, and the set of them
for looking a key up. It does not depend on which items have a live view. Every change is
reported, and playing the reported changes back on the old list gives the new one.

## Main definitions

* `Selection` — a mode, the selected keys in order, and the set of them.
* `Selection.Change` — a key became selected or stopped being selected.
* `Selection.Call` — the public calls, as data.
-/

namespace Windowing

/-- How many keys may be selected at once. -/
inductive SelectionMode where
  /-- None: the selection is disabled. -/
  | none
  /-- At most one. -/
  | single
  /-- Any number. -/
  | multiple
deriving DecidableEq

instance : Inhabited SelectionMode := ⟨.single⟩

/-- How many keys a mode leaves selected, if it sets a limit. -/
def SelectionMode.limit? : SelectionMode → Option Nat
  | none => some 0
  | single => some 1
  | multiple => Option.none

/-- Keys that address the items of a collection whose size is given by bounds. -/
class Bounded (K : Type) (B : outParam Type) where
  /-- Whether a key addresses an item. -/
  inBounds : B → K → Bool

/-- The items of a list are addressed by their index. -/
instance : Bounded Nat Nat where
  inBounds len index := index < len

/-- The keys that are selected. -/
structure Selection (K : Type) [BEq K] [Hashable K] where
  /-- How many keys may be selected. -/
  mode : SelectionMode
  /-- The selected keys, oldest first. -/
  order : List K
  /-- The selected keys, for looking one up. -/
  members : Std.HashSet K

namespace Selection

variable {K : Type} [BEq K] [Hashable K]

/-! ### Changes -/

/-- A change of a selection. -/
inductive Change (K : Type) where
  /-- The key became selected. -/
  | selected (key : K)
  /-- The key stopped being selected. -/
  | unselected (key : K)

/-- The key that a change is about. -/
def Change.key : Change K → K
  | selected key => key
  | unselected key => key

/-- Whether the key of a change is selected after it. -/
def Change.isSelected : Change K → Bool
  | selected _ => true
  | unselected _ => false

/-- The selected keys after a change, oldest first. -/
def Change.apply (keys : List K) : Change K → List K
  | selected key => keys ++ [key]
  | unselected key => keys.erase key

/-! ### Queries -/

/-- The selection without keys. -/
def ofMode (mode : SelectionMode) : Selection K where
  mode := mode
  order := []
  members := ∅

/-- Whether a key is selected. -/
def isSelected (selection : Selection K) (key : K) : Bool :=
  selection.members.contains key

/-- The number of selected keys. -/
def size (selection : Selection K) : Nat :=
  selection.order.length

/-- Whether no key is selected. -/
def isEmpty (selection : Selection K) : Bool :=
  selection.order.isEmpty

/-! ### Mutations -/

/-- The selection without its `count` oldest keys, and the report of their loss. -/
def dropOldest (count : Nat) (selection : Selection K) : Selection K × List (Change K) :=
  let dropped := selection.order.take count
  ({ selection with
      order := selection.order.drop count
      members := dropped.foldl Std.HashSet.erase selection.members },
    dropped.map .unselected)

/-- Changes the mode. The oldest keys that the new mode has no room for are dropped. -/
def setMode (mode : SelectionMode) (selection : Selection K) : Selection K × List (Change K) :=
  let selection := { selection with mode }
  match mode.limit? with
  | some limit => selection.dropOldest (selection.size - limit)
  | none => (selection, [])

/-- Selects a key that is in bounds and not selected yet, unless the selection is disabled. In
single mode the key that was selected before is dropped first. -/
def select (inBounds : K → Bool) (key : K) (selection : Selection K) :
    Selection K × List (Change K) :=
  if selection.mode = .none ∨ inBounds key = false ∨ selection.isSelected key = true then
    (selection, [])
  else
    let (selection, dropped) :=
      if selection.mode = .single then selection.dropOldest selection.size
      else (selection, [])
    ({ selection with
        order := selection.order ++ [key]
        members := selection.members.insert key },
      dropped ++ [.selected key])

/-- Unselects a key. -/
def unselect (key : K) (selection : Selection K) : Selection K × List (Change K) :=
  if selection.isSelected key then
    ({ selection with
        order := selection.order.filter (· != key)
        members := selection.members.erase key },
      [.unselected key])
  else
    (selection, [])

/-- Unselects every key, oldest first. -/
def unselectAll (selection : Selection K) : Selection K × List (Change K) :=
  ({ selection with order := [], members := ∅ }, selection.order.map .unselected)

/-- Unselects every key that is out of bounds. -/
def retain (inBounds : K → Bool) (selection : Selection K) : Selection K × List (Change K) :=
  let dropped := selection.order.filter fun key ↦ !inBounds key
  ({ selection with
      order := selection.order.filter inBounds
      members := dropped.foldl Std.HashSet.erase selection.members },
    dropped.map .unselected)

/-! ### Calls -/

/-- The calls that change a selection. Bounds may differ from call to call. -/
inductive Call (K : Type) where
  | select (inBounds : K → Bool) (key : K)
  | unselect (key : K)
  | unselectAll
  | retain (inBounds : K → Bool)
  | setMode (mode : SelectionMode)

/-- Makes a call on a selection; answers the changes. -/
def Call.perform : Call K → Selection K → Selection K × List (Change K)
  | select inBounds key => Selection.select inBounds key
  | unselect key => Selection.unselect key
  | unselectAll => Selection.unselectAll
  | retain inBounds => Selection.retain inBounds
  | setMode mode => Selection.setMode mode

end Selection

end Windowing
