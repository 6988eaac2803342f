import Windowing.Proofs.Extent.Built

/-!
# The checks that a strip makes of its kept starts

While some item has an extent of its own, a strip takes for granted that it keeps a start for every
item. It relies on this whenever it rebuilds stale starts and whenever it reads a start. Here the
queries are done once more in a way that checks each of these accesses, and stops at the first one
that fails. In a sound strip none does, and the checked queries answer what the others do.

## Main definitions

* `Starts.checkedRefresh` — rebuilding stale starts, with every access checked.
* `Strip.checkedOffsetOf`, `Strip.checkedIndexAtOffset` — the queries that read starts.
* `Strip.PassesChecks`, `Grid.PassesChecks` — no check of a query fails.

## Main results

* `Strip.Sound.passesChecks`, `Grid.Fitting.passesChecks` — sound strips pass all checks, and so do
  grids that have a track for every item.
-/

namespace Windowing

/-! ### Rebuilding -/

namespace Starts

variable {S : Type} {advance : Nat → S → S} {entries : Array S} {index len : Nat}

/-- Rewrites the entries from `index` to before `len`, if there are that many. -/
def checkedFill (advance : Nat → S → S) (len : Nat) (entries : Array S) (index : Nat) (start : S) :
    Option (Array S) :=
  if index < len then
    if h : index < entries.size then
      checkedFill advance len (entries.set index start) (index + 1) (advance index start)
    else
      none
  else
    some entries
termination_by len - index

theorem checkedFill_eq (hsize : entries.size = len) (start : S) :
    checkedFill advance len entries index start = some (fill advance entries index start) := by
  fun_induction fill advance entries index start with
  | case1 entries index start h ih =>
    rw [checkedFill, if_pos (hsize ▸ h), dif_pos h]
    exact ih ((Array.size_set h).trans hsize)
  | case2 entries index start h => rw [checkedFill, if_neg (hsize ▸ h)]

variable [Scalar S]

/-- Where the item at `index` starts, read off the entry before it if there is one. -/
def checkedResumeAt (advance : Nat → S → S) (entries : Array S) : Nat → Option S
  | 0 => some Scalar.zero
  | index + 1 => entries[index]?.map (advance index)

theorem checkedResumeAt_eq (h : index < entries.size) :
    checkedResumeAt advance entries index = some (resumeAt advance entries index) := by
  cases index with
  | zero => rfl
  | succ index =>
    have hentry : entries[index]? = some entries[index] :=
      Array.getElem?_eq_getElem (Nat.lt_of_succ_lt h)
    rw [checkedResumeAt, resumeAt, Array.getD_eq_getD_getElem?, hentry]
    rfl

/-- Rebuilds the stale entries if one of them lies at or before `index`, where there is to be one
for each of `len` items. -/
def checkedRefresh (advance : Nat → S → S) (len index : Nat) (starts : Starts S) :
    Option (Starts S) :=
  match starts.staleFrom with
  | none => some starts
  | some first =>
    if first ≤ index ∧ first < len then do
      guard (starts.entries.size = len)
      let start ← checkedResumeAt advance starts.entries first
      let entries ← checkedFill advance len starts.entries first start
      return { entries, staleFrom := none }
    else
      some starts

/-- With an entry for every item, no access fails when stale entries are rebuilt. -/
theorem checkedRefresh_eq {starts : Starts S} (hsize : starts.entries.size = len) :
    checkedRefresh advance len index starts = some (starts.refresh advance index) := by
  subst hsize
  rw [checkedRefresh, refresh]
  cases starts.staleFrom with
  | none => rfl
  | some first =>
    dsimp only
    split
    · next hstale => simp [checkedResumeAt_eq hstale.2, checkedFill_eq]
    · rfl

end Starts

/-! ### Strips -/

namespace Strip

variable {S : Type} [Scalar S] {strip : Strip S} {index : Nat}

/-- The strip with its kept starts brought up to date if `index` is among the stale ones. -/
def checkedRefreshed (strip : Strip S) (index : Nat) : Option (Strip S) :=
  (strip.starts.checkedRefresh strip.advance strip.len index).map fun starts ↦
    { strip with starts }

/-- Where the item at a valid `index` starts. -/
def checkedStartOf (strip : Strip S) (index : Nat) : Option S :=
  if index = 0 then some Scalar.zero
  else if strip.isUniform then some (Scalar.ofNat index * strip.stride)
  else do
    let refreshed ← strip.checkedRefreshed index
    refreshed.starts.entries[index]?

/-- Where an item starts; past the end, where the last item ends. -/
def checkedOffsetOf (strip : Strip S) (index : Nat) : Option S :=
  if strip.len = 0 then some Scalar.zero
  else if index < strip.len then strip.checkedStartOf index
  else (strip.checkedStartOf (strip.len - 1)).map (· + strip.extentOf (strip.len - 1))

/-- The last item that starts at or before `offset`. -/
def checkedIndexAtOffset (strip : Strip S) (offset : S) : Option Nat :=
  if strip.len = 0 ∨ strip.isUniform then some (strip.indexAtOffset offset)
  else do
    let refreshed ← strip.checkedRefreshed (strip.len - 1)
    return partitionPoint (Scalar.le · (Scalar.nonNegative offset)) refreshed.starts.entries - 1

/-- No query of the strip fails a check, and the checked ones answer what the others do. -/
structure PassesChecks (strip : Strip S) : Prop where
  offsetOf : ∀ index, strip.checkedOffsetOf index = some (strip.offsetOf index)
  indexAtOffset : ∀ offset, strip.checkedIndexAtOffset offset = some (strip.indexAtOffset offset)

theorem Sound.checkedRefreshed_eq (h : strip.Sound) (huniform : strip.isUniform = false)
    (index : Nat) : strip.checkedRefreshed index = some (strip.refreshed index) := by
  rw [checkedRefreshed, Starts.checkedRefresh_eq (h.size_eq huniform)]
  rfl

theorem Sound.checkedStartOf_eq (h : strip.Sound) (hindex : index < strip.len) :
    strip.checkedStartOf index = some (strip.startOf index) := by
  rw [checkedStartOf, startOf]
  split
  · rfl
  · cases huniform : strip.isUniform with
    | true => rfl
    | false =>
      have hsize : (strip.refreshed index).starts.entries.size = strip.len :=
        Starts.size_refresh.trans (h.size_eq huniform)
      have hentry : (strip.refreshed index).starts.entries[index]? =
          some ((strip.refreshed index).starts.entries[index]) :=
        Array.getElem?_eq_getElem (hindex.trans_eq hsize.symm)
      simp [h.checkedRefreshed_eq huniform, Array.getD_eq_getD_getElem?, hentry]

/-- A sound strip passes all checks. -/
theorem Sound.passesChecks (h : strip.Sound) : strip.PassesChecks where
  offsetOf index := by
    rw [checkedOffsetOf, Strip.offsetOf]
    split
    · rfl
    · next hlen =>
      split
      · next hindex => exact h.checkedStartOf_eq hindex
      · rw [h.checkedStartOf_eq (Nat.sub_one_lt hlen)]
        rfl
  indexAtOffset offset := by
    rw [checkedIndexAtOffset]
    split
    · rfl
    · next hread =>
      obtain ⟨hlen, huniform⟩ := not_or.mp hread
      have huniform := Bool.eq_false_iff.mpr huniform
      simp [h.checkedRefreshed_eq huniform, Strip.indexAtOffset, hlen, huniform]

end Strip

/-! ### Grids -/

namespace Grid

variable {S : Type} [Scalar S] {grid : Grid (Strip S) S}

/-- No query of the grid fails a check: it has a track for every item, and the queries of its tracks
pass theirs. -/
structure PassesChecks (grid : Grid (Strip S) S) : Prop where
  extentOf : ∀ index, ∃ extent, grid.extentOf index = .ok extent
  tracks : grid.tracks.PassesChecks

/-- A grid with a track for every item knows the extent of each of them, and of the last one past
the end. -/
theorem Fitting.extentOf_ok {holds : Strip S → Prop} (h : grid.Fitting holds) (index : Nat) :
    ∃ extent, grid.extentOf index = .ok extent := by
  rw [extentOf]
  split
  · exact ⟨_, rfl⟩
  · next hlen =>
    have hlast : Nat.min index (grid.len - 1) < grid.len :=
      (Nat.min_le_right ..).trans_lt (Nat.sub_one_lt hlen)
    have htrack : grid.trackOf (Nat.min index (grid.len - 1)) < grid.tracks.len :=
      (trackOf_lt_trackCount hlast).trans_eq h.len_eq.symm
    exact ⟨_, if_pos htrack⟩

/-- A grid of sound tracks passes all checks while it has as many of them as its items need. -/
theorem Fitting.passesChecks (h : grid.Fitting Strip.Sound) : grid.PassesChecks where
  extentOf := h.extentOf_ok
  tracks := h.tracks.passesChecks

end Grid

end Windowing
