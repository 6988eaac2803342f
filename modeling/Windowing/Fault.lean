import Windowing.Scalar

/-!
# Faults

A call may be cut short: a caller hands over an extent that is no number, a grid is asked
for a track that its track model has lost, or the host gives up in the middle of a pass.

## Main definitions

* `Fault` — why a call was cut short.
* `Fault.message` — the text that a fault is reported with.
-/

namespace Windowing

/-- Why a call was cut short. The last four say that the bookkeeping of live views
contradicts itself, which no run of calls brings about. -/
inductive Fault where
  /-- An extent or a spacing is not a finite number. -/
  | nonFiniteExtent (value : NonFinite)
  /-- A grid needs a track that its track model of length `len` does not have. -/
  | missingTrack (track len : Nat)
  /-- The host could not create or bind a view. -/
  | host (reason : String)
  /-- The slot live under a key says that it shows another one. -/
  | slotShowsAnother
  /-- A pool handed out a view of a kind that is not its own. -/
  | foreignKind
  /-- A view is to go live under a key that already has one. -/
  | keyTaken
  /-- A pass ended with a live view outside its window. -/
  | strayView
deriving DecidableEq

/-- The usual short text of a value that is not finite. -/
def NonFinite.text : NonFinite → String
  | notANumber => "NaN"
  | positiveInfinity => "inf"
  | negativeInfinity => "-inf"

/-- The text that a fault is reported with. -/
def Fault.message : Fault → String
  | nonFiniteExtent value => "extents must be finite; got " ++ value.text
  | missingTrack track len =>
    s!"track {track} missing from a track model of length {len}"
  | host reason => reason
  | slotShowsAnother => "slot bound to another key"
  | foreignKind => "pooled view of the wrong kind"
  | keyTaken => "key is already bound"
  | strayView => "live view outside the window"

end Windowing
