import Windowing.Proofs.Extent.Laid

/-!
# Strips and grids over exact numbers

However a strip is built and edited, its measures stay nonnegative and its kept starts right, so
it lays out its items. A grid lays out its items as long as there is a track for every item, which
is so unless the number of tracks is changed behind it.

## Main definitions

* `Strip.Built`, `Grid.Built` — strips and grids as their calls make them.
* `Strip.Laid`, `Grid.Laid` — what makes a strip or a grid lay out its items.
* `Grid.Fitting` — the grid has as many tracks as its items need.

## Main results

* `Strip.Laid.laidOut`, `Grid.Laid.laidOut` — the items lie end to end.
* `Strip.Built.laid`, `Grid.Built.laid` — and every call keeps it so.
-/

namespace Windowing

/-! ### Strips over exact numbers -/

namespace Strip

/-- A strip as its calls make it: built with one extent for all items, and then called in any
way. -/
def Built {S : Type} [Scalar S] (strip : Strip S) : Prop :=
  ∃ len uniform built calls, ofUniform len uniform = .ok built ∧
    (Step.runAll Call.perform calls built).2 = strip

/-- Whatever the numbers, a strip that its calls made is sound. -/
theorem Built.sound {S : Type} [Scalar S] {strip : Strip S} (h : strip.Built) : strip.Sound := by
  obtain ⟨len, uniform, built, calls, hbuilt, rfl⟩ := h
  refine Sound.runAll (sound_of_isUniform ?_) calls
  cases hextent : checkedExtent uniform with
  | error fault => simp [ofUniform, hextent, bind, Except.bind] at hbuilt
  | ok extent =>
    simp only [ofUniform, hextent, bind, Except.bind, pure, Except.pure, Except.ok.injEq] at hbuilt
    exact hbuilt ▸ Std.TreeMap.isEmpty_emptyc

theorem Built.perform {S : Type} [Scalar S] {strip : Strip S} (h : strip.Built) (call : Call S) :
    (call.perform.after strip).Built := by
  obtain ⟨len, uniform, built, calls, hbuilt, rfl⟩ := h
  exact ⟨len, uniform, built, calls ++ [call], hbuilt, Step.snd_runAll_concat _ calls call built⟩

variable {strip : Strip Rat}

/-- The strip is sound, and no measure of it is negative. -/
structure Laid (strip : Strip Rat) : Prop where
  sound : strip.Sound
  nonneg : strip.measures.Nonneg

/-- A strip lays out its items as its measures do. -/
theorem Laid.laidOut (h : strip.Laid) : ExtentModel.LaidOut strip := by
  have hlaid := h.nonneg.laidOut
  have hoffset : ExtentModel.offsetOf strip = ExtentModel.offsetOf strip.measures :=
    funext h.sound.offsetOf_eq
  have htotal : ExtentModel.totalExtent strip = ExtentModel.totalExtent strip.measures :=
    h.sound.totalExtent_eq
  have hfound : ExtentModel.indexAtOffset strip = ExtentModel.indexAtOffset strip.measures :=
    funext h.sound.indexAtOffset_eq
  exact {
    trackIndex_mono := hlaid.trackIndex_mono
    offsetOf_zero := hoffset ▸ hlaid.offsetOf_zero
    offsetOf_congr := hoffset ▸ hlaid.offsetOf_congr
    extentOf_ok := by
      rw [hoffset, htotal]
      exact hlaid.extentOf_ok
    offsetOf_past := by
      rw [hoffset, htotal]
      exact hlaid.offsetOf_past
    indexAtOffset_lt := hfound ▸ hlaid.indexAtOffset_lt
    lt_offsetOf := by
      rw [hoffset, htotal, hfound]
      exact hlaid.lt_offsetOf }

theorem Laid.perform (h : strip.Laid) (call : Call Rat) : (call.perform.after strip).Laid where
  sound := h.sound.perform call
  nonneg := by
    rw [← Step.after_of_shown (h.sound.perform_measures call)]
    exact h.nonneg.perform call

/-- Only the call for the number of items changes it. -/
theorem Sound.len_after {S : Type} [Scalar S] {strip : Strip S} (h : strip.Sound) {call : Call S}
    (hcall : ∀ len, call ≠ .edit (.setLen len)) : (call.perform.after strip).len = strip.len := by
  rw [← len_measures, ← Step.after_of_shown (h.perform_measures call)]
  rcases Measures.after_eq_or_edited call strip.measures with hsame | hedited
  · rw [hsame, len_measures]
  · exact hedited.len_eq hcall

theorem laid_of_ofUniform {len : Nat} {uniform : Rat} (h : ofUniform len uniform = .ok strip) :
    strip.Laid := by
  obtain rfl := Except.ok.inj h
  refine ⟨sound_of_isUniform Std.TreeMap.isEmpty_emptyc, ?uniform, le_rfl,
    fun index extent hown ↦ ?own⟩
  case uniform => exact Measures.nonneg_of_checkedExtent rfl
  case own => cases Std.TreeMap.getElem?_emptyc.symm.trans hown

theorem Built.laid (h : strip.Built) : strip.Laid := by
  obtain ⟨len, uniform, built, calls, hbuilt, rfl⟩ := h
  exact Step.holds_runAll Laid (fun call _ _ h ↦ h.perform call) (laid_of_ofUniform hbuilt)

end Strip

/-! ### Grids over exact numbers -/

namespace Grid

/-- A grid as its calls make it: built over a strip of tracks, and then called in any way that does
not change the number of tracks behind it. -/
def Built {S : Type} [Scalar S] (grid : Grid (Strip S) S) : Prop :=
  ∃ tracks itemWidth laneSpacing len calls, tracks.Built ∧
    (∀ count, Call.tracks (.edit (.setLen count)) ∉ calls) ∧
    (Step.runAll Call.perform calls
      ((ofTracks tracks itemWidth len).withLaneSpacing laneSpacing)).2 = grid

variable {grid : Grid (Strip Rat) Rat}

/-- The tracks are laid out, and there are as many as the items need. -/
structure Laid (grid : Grid (Strip Rat) Rat) : Prop where
  tracks : grid.tracks.Laid
  len_eq : grid.tracks.len = grid.trackCount

section Tracks

variable {M S : Type} [Scalar S] [ExtentModel M S] [ResizableModel M S] {grid : Grid M S}
  {index track : Nat}

omit [Scalar S] [ExtentModel M S] [ResizableModel M S] in
/-- Every track has a first item. -/
theorem mul_lanes_lt_len (h : track < grid.trackCount) : track * grid.lanes < grid.len := by
  have hle := (Nat.le_div_iff_mul_le grid.lanes_pos).mp (Nat.succ_le_of_lt h)
  rw [Nat.succ_mul] at hle
  have hlanes := grid.lanes_pos
  omega

omit [ResizableModel M S] in
theorem offsetOf_of_lt (h : index < grid.len) :
    grid.offsetOf index = ExtentModel.offsetOf grid.tracks (grid.trackOf index) := by
  rw [offsetOf, offsetTrack, if_neg (Nat.ne_of_gt (Nat.zero_lt_of_lt h)), if_pos h]

omit [ResizableModel M S] in
theorem extentOf_of_lt (h : index < grid.len)
    (hlen : ExtentModel.len grid.tracks = grid.trackCount) :
    grid.extentOf index = ExtentModel.extentOf grid.tracks (grid.trackOf index) := by
  have hitem : Nat.min index (grid.len - 1) = index := Nat.min_eq_left (Nat.le_sub_one_of_lt h)
  rw [extentOf, if_neg (Nat.ne_of_gt (Nat.zero_lt_of_lt h)), hitem, hlen]
  exact if_pos (trackOf_lt_trackCount h)

omit [Scalar S] [ResizableModel M S] in
/-- The item that is found is on the track that is found. -/
theorem indexAtOffset_eq {offset : S} (hlen : 0 < grid.len)
    (hfound : ExtentModel.indexAtOffset grid.tracks offset < grid.trackCount) :
    grid.indexAtOffset offset = ExtentModel.indexAtOffset grid.tracks offset * grid.lanes := by
  rw [indexAtOffset, if_neg (Nat.ne_of_gt hlen)]
  exact Nat.min_eq_left (Nat.le_sub_one_of_lt (mul_lanes_lt_len hfound))

end Tracks

/-- A grid lays out its items as far as its tracks are laid out. -/
theorem Laid.laidOut (h : grid.Laid) : ExtentModel.LaidOut grid := by
  have hlaid := h.tracks.laidOut
  have hlen : ExtentModel.len grid.tracks = grid.trackCount := h.len_eq
  have htrack {i : Nat} (hi : i < grid.len) : grid.trackOf i < ExtentModel.len grid.tracks :=
    hlen ▸ trackOf_lt_trackCount hi
  have hfound (offset : Rat) (hpos : 0 < grid.len) :
      ExtentModel.indexAtOffset grid.tracks offset < grid.trackCount :=
    hlen ▸ hlaid.indexAtOffset_lt offset (Nat.zero_lt_of_lt (htrack hpos))
  refine ⟨fun i j hij ↦ Nat.div_le_div_right hij, ?zero, ?congr, ?extent, ?past, ?found, ?later⟩
  case zero =>
    change grid.offsetOf 0 = 0
    by_cases hpos : 0 < grid.len
    · rw [offsetOf_of_lt hpos, trackOf, Nat.zero_div]
      exact hlaid.offsetOf_zero
    · exact if_pos (Nat.eq_zero_of_not_pos hpos)
  case congr =>
    intro i hi j hj hij
    change grid.offsetOf i = grid.offsetOf j
    rw [offsetOf_of_lt hi, offsetOf_of_lt hj]
    exact congrArg _ hij
  case extent =>
    intro i hi
    obtain ⟨extent, hextent, hnonneg, hends, htotal⟩ := hlaid.extentOf_ok _ (htrack hi)
    refine ⟨extent, (extentOf_of_lt hi hlen).trans hextent, hnonneg, fun j hj hij ↦ ?_, ?_⟩
    · change grid.offsetOf i + extent ≤ grid.offsetOf j
      rw [offsetOf_of_lt hi, offsetOf_of_lt hj]
      exact hends _ (htrack hj) hij
    · change grid.offsetOf i + extent ≤ ExtentModel.totalExtent grid.tracks
      rwa [offsetOf_of_lt hi]
  case past =>
    intro i hi
    change grid.offsetOf i = ExtentModel.totalExtent grid.tracks
    rw [offsetOf]
    split
    · next hzero =>
      have hnone : ExtentModel.len grid.tracks ≤ 0 := by
        rw [hlen, trackCount, hzero, Nat.zero_add,
          Nat.div_eq_of_lt (Nat.sub_one_lt_of_lt grid.lanes_pos)]
      exact hlaid.offsetOf_zero.symm.trans (hlaid.offsetOf_past 0 hnone)
    · have hbehind : grid.offsetTrack i = grid.trackCount := if_neg (Nat.not_lt.mpr hi)
      rw [hbehind]
      exact hlaid.offsetOf_past _ hlen.le
  case found =>
    intro offset hpos
    change grid.indexAtOffset offset < grid.len
    rw [indexAtOffset_eq hpos (hfound offset hpos)]
    exact mul_lanes_lt_len (hfound offset hpos)
  case later =>
    intro offset hoffset j hj hlt
    change offset < grid.offsetOf j ∨ ExtentModel.totalExtent grid.tracks ≤ grid.offsetOf j
    change grid.trackOf (grid.indexAtOffset offset) < grid.trackOf j at hlt
    have hpos := Nat.zero_lt_of_lt hj
    rw [indexAtOffset_eq hpos (hfound offset hpos), trackOf,
      Nat.mul_div_cancel _ grid.lanes_pos] at hlt
    rw [offsetOf_of_lt hj]
    exact hlaid.lt_offsetOf offset hoffset _ (htrack hj) hlt

section Fitting

variable {S : Type} [Scalar S] {holds : Strip S → Prop} {grid : Grid (Strip S) S}

/-- The tracks have a property, and there are as many as the items need. -/
structure Fitting (holds : Strip S → Prop) (grid : Grid (Strip S) S) : Prop where
  tracks : holds grid.tracks
  len_eq : grid.tracks.len = grid.trackCount

variable (hsound : ∀ {strip}, holds strip → strip.Sound)
  (hperform : ∀ (call : Strip.Call S) {strip}, holds strip → holds (call.perform.after strip))

include hsound hperform

/-- A call on the tracks that keeps their number keeps a grid fitting. -/
theorem Fitting.ensures_tracks (h : grid.Fitting holds) (call : Strip.Call S)
    (hcall : ∀ count, call ≠ .edit (.setLen count)) :
    call.perform.Ensures grid.tracks (fun _ tracks ↦ { grid with tracks }.Fitting holds)
      fun tracks ↦ { grid with tracks }.Fitting holds := by
  have hafter : { grid with tracks := call.perform.after grid.tracks }.Fitting holds :=
    ⟨hperform call h.tracks, ((hsound h.tracks).len_after hcall).trans h.len_eq⟩
  exact Step.ensures_iff_after.mpr hafter

omit hsound in
theorem fitting_resizeTracks (grid : Grid (Strip S) S) (h : holds grid.tracks) :
    grid.resizeTracks.Fitting holds where
  tracks := hperform (.edit (.setLen grid.trackCount)) h
  len_eq := rfl

omit hsound in
theorem Fitting.setLanes (h : grid.Fitting holds) {lanes : Nat} (lanes_pos : 0 < lanes) :
    (grid.setLanes lanes lanes_pos).1.Fitting holds := by
  rw [Grid.setLanes]
  split
  · exact h
  · exact fitting_resizeTracks hperform _ h.tracks

theorem Fitting.setItemExtent (h : grid.Fitting holds) (index : Nat) (extent : S) :
    (Grid.setItemExtent index extent).Ensures grid (fun _ ↦ Fitting holds) (Fitting holds) := by
  have htracks := h.ensures_tracks hsound hperform
    (.edit (.setItemExtent (grid.trackOf index) extent)) nofun
  simp only [Strip.Call.perform, ResizableModel.Edit.perform, Step.ensures_bind] at htracks
  simp only [Grid.setItemExtent, Step.ensures_bind, Step.ensures_get, Step.ensures_ite,
    Step.ensures_within, Step.ensures_pure]
  split
  · exact htracks
  · exact h

theorem Fitting.clearItemExtent (h : grid.Fitting holds) (index : Nat) :
    (grid.clearItemExtent index).1.Fitting holds := by
  rw [Grid.clearItemExtent]
  split
  · exact h.ensures_tracks hsound hperform (.edit (.clearItemExtent (grid.trackOf index))) nofun
  · exact h

/-- Every call keeps a grid fitting, unless it changes the number of tracks behind it. -/
theorem Fitting.perform (h : grid.Fitting holds) {call : Call S}
    (hcall : ∀ count, call ≠ .tracks (.edit (.setLen count))) :
    (call.perform.after grid).Fitting holds := by
  have htracks := h.ensures_tracks hsound hperform
  refine Step.ensures_iff_after.mp ?_
  cases call with
  | query query =>
    cases query with
    | totalExtent => exact htracks (.query (.offsetOf _)) nofun
    | offsetOf index => exact htracks (.query (.offsetOf _)) nofun
    | indexAtOffset offset => exact htracks (.query (.indexAtOffset offset)) nofun
    | extentOf index =>
      simp only [Call.perform, ExtentModel.Query.perform, Step.ensures_bind, Step.ensures_get,
        Step.ensures_ofExcept]
      split <;> exact h
    | _ => exact h
  | edit edit =>
    cases edit with
    | setLen len => exact fitting_resizeTracks hperform { grid with len } h.tracks
    | setItemExtent index extent =>
      simp only [Call.perform, ResizableModel.Edit.perform, Step.ensures_bind]
      exact h.setItemExtent hsound hperform index extent
    | clearItemExtent index => exact h.clearItemExtent hsound hperform index
    | fitCrossExtent crossExtent => exact h.setLanes hperform _
    | crossSpan index crossExtent => exact h
  | setLanes lanes lanes_pos => exact h.setLanes hperform lanes_pos
  | tracks call =>
    simp only [Call.perform, Step.ensures_within]
    exact htracks call fun count heq ↦ hcall count (heq ▸ rfl)
  | _ => exact h

end Fitting

/-- The tracks of a grid that its calls made are a strip that its calls made. -/
theorem Built.fitting_built {S : Type} [Scalar S] {grid : Grid (Strip S) S} (h : grid.Built) :
    grid.Fitting Strip.Built := by
  obtain ⟨tracks, itemWidth, laneSpacing, len, calls, htracks, hcalls, rfl⟩ := h
  refine Step.holds_runAll (Fitting Strip.Built) (fun call hmem _ h ↦ ?_) ?_
  · exact h.perform Strip.Built.sound (fun call _ h ↦ h.perform call)
      fun count heq ↦ hcalls count (heq ▸ hmem)
  · exact ⟨htracks.perform (.edit (.setLen _)), rfl⟩

/-- Every call keeps a grid laid out, unless it changes the number of tracks behind it. -/
theorem Laid.perform (h : grid.Laid) {call : Call Rat}
    (hcall : ∀ count, call ≠ .tracks (.edit (.setLen count))) : (call.perform.after grid).Laid := by
  have hfitting : grid.Fitting Strip.Laid := ⟨h.tracks, h.len_eq⟩
  have hafter := hfitting.perform Strip.Laid.sound (fun call _ h ↦ h.perform call) hcall
  exact ⟨hafter.tracks, hafter.len_eq⟩

theorem Built.laid (h : grid.Built) : grid.Laid :=
  ⟨h.fitting_built.tracks.laid, h.fitting_built.len_eq⟩

end Grid

end Windowing
