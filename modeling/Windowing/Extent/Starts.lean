import Windowing.Scalar

/-!
# Lazily maintained starts

The starts of the items of a strip are running sums, kept in an array that is rebuilt
only when somebody asks. An edit marks the entries from some index on as stale; the next
query that needs one of them rebuilds the whole stale part.

## Main definitions

* `Starts` — the array and the index from which it is stale.
* `Starts.refresh` — the array with its stale part rebuilt.
* `partitionPoint` — the binary search that finds the last start before an offset.
-/

namespace Windowing

/-- Where items start, as far as it has been worked out. -/
structure Starts (S : Type) where
  /-- The start of each item. -/
  entries : Array S
  /-- The first entry that may be out of date, if there is one. -/
  staleFrom : Option Nat

namespace Starts

variable {S : Type} [Scalar S]

/-- No starts are kept. -/
def unset : Starts S where
  entries := #[]
  staleFrom := some 0

/-- Room for the starts of `count` items, all of them stale. -/
def blank (count : Nat) : Starts S where
  entries := Array.replicate count Scalar.zero
  staleFrom := some 0

/-- Marks the entries from `index` on as stale. -/
def invalidateFrom (index : Nat) (starts : Starts S) : Starts S :=
  { starts with staleFrom := some (starts.staleFrom.elim index (Nat.min · index)) }

/-- Makes room for exactly `count` entries; entries that come in are stale. -/
def resize (count : Nat) (starts : Starts S) : Starts S :=
  let old := starts.entries.size
  let resized := { starts with
    entries := starts.entries.extract 0 count ++ Array.replicate (count - old) Scalar.zero }
  if old < count then resized.invalidateFrom old else resized

/-- Rewrites the entries from `index` on. The entry at `index` becomes `start`, and
`advance i s` is where the item after `i` starts when `i` starts at `s`. -/
def fill (advance : Nat → S → S) (entries : Array S) (index : Nat) (start : S) : Array S :=
  if h : index < entries.size then
    fill advance (entries.set index start) (index + 1) (advance index start)
  else
    entries
termination_by entries.size - index
decreasing_by simp only [Array.size_set]; omega

/-- Where the item at `index` starts, read off the entry before it. -/
def resumeAt (advance : Nat → S → S) (entries : Array S) : Nat → S
  | 0 => Scalar.zero
  | index + 1 => advance index (entries.getD index Scalar.zero)

/-- Rebuilds the stale entries if one of them lies at or before `index`. -/
def refresh (advance : Nat → S → S) (index : Nat) (starts : Starts S) : Starts S :=
  match starts.staleFrom with
  | none => starts
  | some first =>
    if first ≤ index ∧ first < starts.entries.size then
      { entries := fill advance starts.entries first (resumeAt advance starts.entries first)
        staleFrom := none }
    else
      starts

end Starts

/-- How many leading entries satisfy `holds`, found by halving the range in which the first
one that fails may lie. -/
def partitionPoint {S : Type} (holds : S → Bool) (entries : Array S) : Nat :=
  search 0 entries.size
where
  /-- Searches the entries from `low` to before `high`. -/
  search (low high : Nat) : Nat :=
    if low < high then
      let middle := low + (high - low) / 2
      if (entries[middle]?).any holds then search (middle + 1) high else search low middle
    else
      low
  termination_by high - low

end Windowing
