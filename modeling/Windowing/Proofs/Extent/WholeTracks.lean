import Mathlib.Data.Nat.Basic
import Windowing.Extent.Tabulated
import Windowing.Proofs.Extent.Window

/-!
# Windows of any model

The search for a visible window asks a model where its items start, which item is at an offset and
on which tracks items are. Nothing ties the answers of a host's own model together, and its scalars
may be unordered. The search still comes to an end, because each of its loops goes one way through
the items, and the window that it finds never cuts a track.

To speak of the end of a loop, the loop is written down as what one round of it does. That a loop
ends is then a matter of finitely many rounds, not of how the walks are computed.

## Main definitions

* `Loops` — a loop that has ended, with the number of its rounds.
* `ExtentModel.SearchEnds` — the search for a window has ended with a range.
* `ExtentModel.CutsNoTrack` — a range whose edges lie between tracks.

## Main results

* `ExtentModel.searchEnds_visibleWindow` — the search ends with the visible window.
* `ExtentModel.visibleWindow_cutsNoTrack` — whatever the model, the window is valid.
-/

namespace Windowing

/-! ### Loops -/

section Loops

variable {σ : Type} {next? : σ → Option σ} {s t u : σ} {n m : Nat}

/-- A loop from `s`, in which a round takes a state to the one that `next?` names, ends in `t` after
the given number of rounds. -/
inductive Loops (next? : σ → Option σ) : Nat → σ → σ → Prop
  | done {s : σ} (h : next? s = none) : Loops next? 0 s s
  | round {n : Nat} {s t u : σ} (h : next? s = some t) (rest : Loops next? n t u) :
      Loops next? (n + 1) s u

/-- A loop ends in one state only, and always after the same number of rounds. -/
theorem Loops.unique (h : Loops next? n s t) (h' : Loops next? m s u) : n = m ∧ t = u := by
  induction h generalizing m with
  | done hnone =>
    cases h' with
    | done => exact ⟨rfl, rfl⟩
    | round hsome => exact absurd (hnone.symm.trans hsome) (by simp)
  | round hsome _ ih =>
    cases h' with
    | done hnone => exact absurd (hnone.symm.trans hsome) (by simp)
    | round hsome' rest =>
      obtain rfl := Option.some.inj (hsome.symm.trans hsome')
      obtain ⟨rfl, rfl⟩ := ih rest
      exact ⟨rfl, rfl⟩

/-- The loop ends after so many rounds at most. -/
def EndsWithin (bound : Nat) (next? : σ → Option σ) (s t : σ) : Prop :=
  ∃ rounds ≤ bound, Loops next? rounds s t

theorem EndsWithin.unique {bound bound' : Nat} (h : EndsWithin bound next? s t)
    (h' : EndsWithin bound' next? s u) : t = u := by
  obtain ⟨_, _, h⟩ := h
  obtain ⟨_, _, h'⟩ := h'
  exact (h.unique h').2

/-- A loop that has ended is allowed more rounds. -/
theorem EndsWithin.mono {bound bound' : Nat} (h : EndsWithin bound next? s t)
    (hle : bound ≤ bound') : EndsWithin bound' next? s t := by
  obtain ⟨rounds, hrounds, h⟩ := h
  exact ⟨rounds, hrounds.trans hle, h⟩

theorem endsWithin_of_none (bound : Nat) (h : next? s = none) : EndsWithin bound next? s s :=
  ⟨0, Nat.zero_le bound, .done h⟩

theorem EndsWithin.round {bound : Nat} (h : next? s = some t) (rest : EndsWithin bound next? t u) :
    EndsWithin (bound + 1) next? s u := by
  obtain ⟨rounds, hrounds, hrest⟩ := rest
  exact ⟨rounds + 1, Nat.succ_le_succ hrounds, .round h hrest⟩

end Loops

namespace ExtentModel

variable {M S : Type} [ExtentModel M S]

/-! ### The rounds of a search -/

/-- One item further on the same track. -/
def trackRound (model : M) (track index : Nat) : Option Nat :=
  if index < len model ∧ trackIndex model index = track then some (index + 1) else none

/-- One item back on the same track. -/
def alignRound (model : M) (track index : Nat) : Option Nat :=
  if 0 < index ∧ trackIndex model (index - 1) = track then some (index - 1) else none

/-- One more track of look-ahead, while some are left. The state is their number and where the
window stops. -/
def lookRound (model : M) : Nat × Nat → Option (Nat × Nat)
  | (0, _) => none
  | (left + 1, stop) =>
    if len model ≤ stop then none else some (left, nextTrack model (len model) stop)

variable [Scalar S]

/-- One track further, if it starts later than this one, at or before the offset. -/
def skipRound (model : M) (offset : S) (start : Nat) : Option Nat :=
  let next := nextTrack model (len model) start
  if next < len model ∧ Scalar.le (offsetOf model next) offset ∧
      Scalar.gt (offsetOf model next) (offsetOf model start) then some next
  else none

/-- One item back, if this one starts after the offset. -/
def backRound (model : M) (offset : S) (index : Nat) : Option Nat :=
  if 0 < index ∧ Scalar.gt (offsetOf model index) offset then some (index - 1) else none

/-- One item further, if this one starts before the limit. -/
def walkRound (model : M) (limit : S) (index : Nat) : Option Nat :=
  if index < len model ∧ Scalar.lt (offsetOf model index) limit then some (index + 1) else none

/-- The search for the window at an offset has ended with a range: each of its loops, one after
another, has come to an end, none after more rounds than there are items, and the last one after no
more than the tracks of look-ahead. -/
def SearchEnds (model : M) (offset limit : S) (lookahead : Nat) (range : IndexRange) : Prop :=
  ∃ skipped back reached whole left,
    EndsWithin (len model) (skipRound model offset)
      (Nat.min (indexAtOffset model offset) (len model - 1)) skipped ∧
    EndsWithin (len model) (backRound model offset) skipped back ∧
    EndsWithin (len model) (alignRound model (trackIndex model back)) back range.start ∧
    EndsWithin (len model) (walkRound model limit) (range.start + 1) reached ∧
    EndsWithin (len model) (trackRound model (trackIndex model (reached - 1))) reached whole ∧
    EndsWithin lookahead (lookRound model) (lookahead, whole) (left, range.stop)

/-- A search ends with one range only. -/
theorem SearchEnds.unique {model : M} {offset limit : S} {lookahead : Nat}
    {range other : IndexRange} (h : SearchEnds model offset limit lookahead range)
    (h' : SearchEnds model offset limit lookahead other) : range = other := by
  obtain ⟨start, stop⟩ := range
  obtain ⟨start', stop'⟩ := other
  obtain ⟨skipped, back, reached, whole, left, hskip, hback, halign, hwalk, hwhole, hlook⟩ := h
  obtain ⟨skipped', back', reached', whole', left', hskip', hback', halign', hwalk', hwhole',
    hlook'⟩ := h'
  obtain rfl := hskip.unique hskip'
  obtain rfl := hback.unique hback'
  obtain rfl : start = start' := halign.unique halign'
  obtain rfl := hwalk.unique hwalk'
  obtain rfl := hwhole.unique hwhole'
  obtain rfl := (Prod.mk.inj (hlook.unique hlook')).2
  rfl

/-! ### Every loop ends -/

section Rounds

omit [Scalar S]

theorem endsWithin_trackStop (model : M) (track index : Nat) :
    EndsWithin (len model - index) (trackRound model track) index
      (trackStop model (len model) track index) := by
  fun_induction trackStop model (len model) track index with
  | case1 index hindex ih =>
    have hround : trackRound model track index = some (index + 1) := if_pos hindex
    exact (ih.round hround).mono (by omega)
  | case2 index hindex => exact endsWithin_of_none _ (if_neg hindex)

/-- The loop that finds the next track ends. -/
theorem endsWithin_nextTrack (model : M) (index : Nat) :
    EndsWithin (len model) (trackRound model (trackIndex model index)) (index + 1)
      (nextTrack model (len model) index) :=
  (endsWithin_trackStop model _ (index + 1)).mono (Nat.sub_le _ _)

theorem endsWithin_trackStart (model : M) (track index : Nat) :
    EndsWithin index (alignRound model track) index (trackStart model track index) := by
  induction index with
  | zero => exact endsWithin_of_none _ (if_neg (by simp))
  | succ index ih =>
    rw [trackStart]
    split
    · next htrack => exact ih.round (if_pos ⟨Nat.succ_pos index, htrack⟩)
    · next htrack => exact endsWithin_of_none _ (if_neg fun h ↦ htrack h.2)

theorem endsWithin_lookPast (model : M) (lookahead stop : Nat) :
    ∃ left, EndsWithin lookahead (lookRound model) (lookahead, stop)
      (left, lookPast model (len model) lookahead stop) := by
  induction lookahead generalizing stop with
  | zero => exact ⟨0, endsWithin_of_none _ rfl⟩
  | succ lookahead ih =>
    rw [lookPast]
    split
    · next hstop => exact ⟨lookahead + 1, endsWithin_of_none _ (if_pos hstop)⟩
    · next hstop =>
      obtain ⟨left, hrest⟩ := ih (nextTrack model (len model) stop)
      exact ⟨left, hrest.round (if_neg hstop)⟩

end Rounds

theorem endsWithin_skipTracks (model : M) (offset : S) (start : Nat) :
    EndsWithin (len model - start) (skipRound model offset) start
      (skipTracks model (len model) offset start) := by
  fun_induction skipTracks model (len model) offset start with
  | case1 start next hnext ih =>
    have hround : skipRound model offset start = some next := if_pos hnext
    have hlt : start < next := lt_nextTrack model (len model) start
    have hlen : next < len model := hnext.1
    exact (ih.round hround).mono (by omega)
  | case2 start next hnext => exact endsWithin_of_none _ (if_neg hnext)

theorem endsWithin_stepBack (model : M) (offset : S) (index : Nat) :
    EndsWithin index (backRound model offset) index (stepBack model offset index) := by
  induction index with
  | zero => exact endsWithin_of_none _ (if_neg (by simp))
  | succ index ih =>
    rw [stepBack]
    split
    · next hlate => exact ih.round (if_pos ⟨Nat.succ_pos index, hlate⟩)
    · next hlate => exact endsWithin_of_none _ (if_neg fun h ↦ hlate h.2)

theorem endsWithin_walkTo (model : M) (limit : S) (index : Nat) :
    EndsWithin (len model - index) (walkRound model limit) index
      (walkTo model (len model) limit index) := by
  fun_induction walkTo model (len model) limit index with
  | case1 index hindex ih =>
    have hround : walkRound model limit index = some (index + 1) := if_pos hindex
    exact (ih.round hround).mono (by omega)
  | case2 index hindex => exact endsWithin_of_none _ (if_neg hindex)

/-- Whatever the model answers, the search for a window ends. -/
theorem searchEnds_window (model : M) (offset limit : S) (lookahead : Nat) (hlen : 0 < len model) :
    let start := windowStart model (len model) offset
    SearchEnds model offset limit lookahead
      ⟨start, windowStop model (len model) limit lookahead start⟩ := by
  intro start
  let found := Nat.min (indexAtOffset model offset) (len model - 1)
  let skipped := skipTracks model (len model) offset found
  let back := stepBack model offset skipped
  let reached := walkTo model (len model) limit (start + 1)
  have hfound : found < len model :=
    Nat.lt_of_le_of_lt (Nat.min_le_right _ _) (Nat.sub_one_lt_of_lt hlen)
  have hskipped : skipped < len model := skipTracks_lt hfound
  have hback : back ≤ skipped := stepBack_le model offset skipped
  have hreached : start + 1 ≤ reached := le_walkTo model (len model) limit (start + 1)
  have hwhole := endsWithin_nextTrack model (reached - 1)
  rw [Nat.sub_add_cancel (by omega)] at hwhole
  obtain ⟨left, hlook⟩ :=
    endsWithin_lookPast model lookahead (nextTrack model (len model) (reached - 1))
  refine ⟨skipped, back, reached, _, left, ?_, ?_, ?_, ?_, hwhole, hlook⟩
  · exact (endsWithin_skipTracks model offset found).mono (Nat.sub_le _ _)
  · exact (endsWithin_stepBack model offset skipped).mono hskipped.le
  · exact (endsWithin_trackStart model _ back).mono (hback.trans hskipped.le)
  · exact (endsWithin_walkTo model limit (start + 1)).mono (Nat.sub_le _ _)

/-! ### Edges of the window -/

/-- The edges of the range lie between tracks, or at the ends of the content. -/
structure CutsNoTrack (model : M) (range : IndexRange) : Prop where
  start : range.start = 0 ∨ trackIndex model (range.start - 1) ≠ trackIndex model range.start
  stop : range.stop = len model ∨ trackIndex model (range.stop - 1) ≠ trackIndex model range.stop

/-- A window starts with the first item of a track. -/
theorem windowStart_edge (model : M) (n : Nat) (offset : S) :
    windowStart model n offset = 0 ∨ trackIndex model (windowStart model n offset - 1) ≠
      trackIndex model (windowStart model n offset) := by
  let back := stepBack model offset
    (skipTracks model n offset (Nat.min (indexAtOffset model offset) (n - 1)))
  change trackStart model (trackIndex model back) back = 0 ∨ trackIndex model
    (trackStart model (trackIndex model back) back - 1) ≠
      trackIndex model (trackStart model (trackIndex model back) back)
  rw [trackIndex_trackStart]
  rcases hstart : trackStart model (trackIndex model back) back with _ | before
  · exact .inl rfl
  · exact .inr (trackIndex_ne_of_trackStart hstart)

omit [Scalar S] in
/-- The next track is another one than that of the item before it, unless there is none. -/
theorem nextTrack_edge {model : M} {index : Nat} (h : index < len model) :
    nextTrack model (len model) index = len model ∨
      trackIndex model (nextTrack model (len model) index - 1) ≠
        trackIndex model (nextTrack model (len model) index) := by
  have hle : nextTrack model (len model) index ≤ len model := nextTrack_le h
  rcases Nat.eq_or_lt_of_le hle with hend | hlt
  · exact .inl hend
  · have hafter := lt_nextTrack model (len model) index
    have hbefore : trackIndex model (nextTrack model (len model) index - 1) =
        trackIndex model index :=
      trackIndex_of_lt_nextTrack (Nat.le_sub_one_of_lt hafter)
        (Nat.sub_one_lt_of_lt hafter)
    exact .inr (hbefore.trans_ne (trackIndex_nextTrack_ne hlt).symm)

omit [Scalar S] in
/-- Look-ahead adds whole tracks. -/
theorem lookPast_edge {model : M} {stop : Nat} (lookahead : Nat)
    (h : stop = len model ∨ trackIndex model (stop - 1) ≠ trackIndex model stop) :
    lookPast model (len model) lookahead stop = len model ∨
      trackIndex model (lookPast model (len model) lookahead stop - 1) ≠
        trackIndex model (lookPast model (len model) lookahead stop) := by
  induction lookahead generalizing stop with
  | zero => exact h
  | succ lookahead ih =>
    rw [lookPast]
    split
    · exact h
    · next hstop => exact ih (nextTrack_edge (Nat.lt_of_not_le hstop))

theorem windowStop_edge {model : M} {limit : S} {lookahead start : Nat} (h : start < len model) :
    windowStop model (len model) limit lookahead start = len model ∨
      trackIndex model (windowStop model (len model) limit lookahead start - 1) ≠
        trackIndex model (windowStop model (len model) limit lookahead start) := by
  have hreached : walkTo model (len model) limit (start + 1) ≤ len model :=
    walkTo_le (Nat.succ_le_of_lt h)
  have hpast := le_walkTo model (len model) limit (start + 1)
  exact lookPast_edge lookahead (nextTrack_edge (by omega))

/-! ### The window -/

/-- The visible window of a model with items is found by a search that ends with it. -/
theorem searchEnds_visibleWindow (model : M) (scrollOffset extent : S) (lookahead : Nat)
    (hlen : 0 < len model) :
    let offset := Scalar.nonNegative scrollOffset
    let limit := Scalar.min (offset + Scalar.nonNegative extent)
      (Scalar.nonNegative (totalExtent model))
    SearchEnds model offset limit lookahead
      (visibleWindow model scrollOffset extent lookahead).toIndexRange := by
  rw [visibleWindow, if_neg (Nat.ne_of_gt hlen)]
  exact searchEnds_window model _ _ lookahead hlen

theorem cutsNoTrack_visibleWindow (model : M) (scrollOffset extent : S) (lookahead : Nat)
    (hlen : 0 < len model) :
    CutsNoTrack model (visibleWindow model scrollOffset extent lookahead).toIndexRange := by
  rw [visibleWindow, if_neg (Nat.ne_of_gt hlen)]
  exact ⟨windowStart_edge model _ _, windowStop_edge (windowStart_lt model _ hlen)⟩

omit [Scalar S] in
/-- In a grid, an edge between tracks is a multiple of the number of lanes. -/
theorem lanes_dvd_of_trackOf_ne {N : Type} {grid : Grid N S} {index : Nat}
    (h : index = 0 ∨ grid.trackOf (index - 1) ≠ grid.trackOf index) : grid.lanes ∣ index := by
  rcases h with rfl | hne
  · exact dvd_zero _
  · rcases index with _ | before
    · exact dvd_zero _
    · by_contra hdvd
      exact hne (Nat.succ_div_of_not_dvd hdvd).symm

/-- Whatever a model answers to its queries, and however its scalars compare, the search for the
visible window ends, and with one window only. It is empty where the model has no items; otherwise
it holds at least one item and existing ones only, and it cuts no track at either edge. In a grid it
starts at a multiple of the number of lanes, and ends at one or with the last item. -/
theorem visibleWindow_cutsNoTrack :
    (∀ {M S : Type} [Scalar S] [ExtentModel M S] (model : M) (scrollOffset extent : S)
      (lookahead : Nat),
      let window := visibleWindow model scrollOffset extent lookahead
      let offset := Scalar.nonNegative scrollOffset
      let limit := Scalar.min (offset + Scalar.nonNegative extent)
        (Scalar.nonNegative (totalExtent model))
      len model = 0 ∧ window = .empty ∨
        (∀ index, EndsWithin (len model) (trackRound model (trackIndex model index)) (index + 1)
          (nextTrack model (len model) index)) ∧
        (∀ range, SearchEnds model offset limit lookahead range ↔ range = window.toIndexRange) ∧
        window.start < window.stop ∧ window.stop ≤ len model ∧
        CutsNoTrack model window.toIndexRange) ∧
    ∀ {M S : Type} [Scalar S] [ExtentModel M S] [ResizableModel M S] (grid : Grid M S)
      (scrollOffset extent : S) (lookahead : Nat),
      let window := visibleWindow grid scrollOffset extent lookahead
      grid.lanes ∣ window.start ∧ (window.stop = grid.len ∨ grid.lanes ∣ window.stop) := by
  refine ⟨fun {M S} _ _ model scrollOffset extent lookahead ↦ ?any,
    fun {M S} _ _ _ grid scrollOffset extent lookahead ↦ ?grid⟩
  case any =>
    intro window offset limit
    rcases Nat.eq_zero_or_pos (len model) with hzero | hlen
    · exact .inl ⟨hzero, if_pos hzero⟩
    · have hends := searchEnds_visibleWindow model scrollOffset extent lookahead hlen
      have hwithin := visibleWindow_within model scrollOffset extent lookahead
      have hnonempty : window.isEmpty ≠ true := fun hempty ↦
        hlen.ne' (hwithin.isEmpty_iff.mp hempty)
      refine .inr ⟨endsWithin_nextTrack model, fun range ↦ ⟨fun h ↦ h.unique hends, ?_⟩,
        ?_, hwithin.stop_le, cutsNoTrack_visibleWindow model scrollOffset extent lookahead hlen⟩
      · rintro rfl
        exact hends
      · simpa [IndexRange.isEmpty] using hnonempty
  case grid =>
    intro window
    rcases Nat.eq_zero_or_pos grid.len with hzero | hlen
    · have hempty : window = .empty := if_pos hzero
      rw [hempty, hzero]
      exact ⟨dvd_zero _, .inl rfl⟩
    · have hedges := cutsNoTrack_visibleWindow grid scrollOffset extent lookahead hlen
      refine ⟨lanes_dvd_of_trackOf_ne hedges.start, ?_⟩
      exact hedges.stop.imp_right fun hne ↦ lanes_dvd_of_trackOf_ne (.inr hne)

/-- A model whose starts go down and up again, and which finds an item behind its last one. -/
example :
    let model : Tabulated Rat := ⟨6, 7, #[9, 50, 3, 40, 2, 1], #[], #[4, 4, 0, 0, 7, 7], 90⟩
    (visibleWindow model 5 10 0).toIndexRange = ⟨4, 6⟩ := by
  decide +kernel

end ExtentModel

end Windowing
