import Windowing.Proofs.Collection.Faults
import Windowing.Proofs.Table.Faults
import Windowing.Proofs.Table.Viewports
import Windowing.Rehearsal

/-!
# No check of a collection or a table fails

A pass checks the bookkeeping of its views, a grid checks that it has the track of an item, and a
strip relies on a kept start for every item while it has extents of its own. In a run of calls with
finite extents and gaps, none of these checks fails, whatever the source does, and in particular
after calls that the source has cut short. A grid needs a track for every item, so the host is not
to change the number of tracks behind it.

## Main results

* `Strip.passesChecks_of_reached`, `Grid.passesChecks_of_reached` — wherever calls lead from a sound
  strip or a grid with a track for every item, the model passes its checks.
* `faults_of_source_only` — a call of a run ends with a fault only if the source raised it, and the
  models pass their checks at any time.
-/

namespace Windowing

variable {H V S : Type} [Scalar S]

/-! ### Models -/

/-- Wherever calls lead from a sound strip, no check of a query fails. -/
theorem Strip.passesChecks_of_reached {strip : Strip S}
    (h : Step.Reached Call.perform (fun _ ↦ True) Sound strip) : strip.PassesChecks := by
  have hsound : strip.Sound := h.holds (fun _ hstart ↦ hstart) fun call _ _ hs ↦ hs.perform call
  exact hsound.passesChecks

/-- Wherever calls lead from a grid that fits its tracks, without changing their number, no check of
a query fails. -/
theorem Grid.passesChecks_of_reached {grid : Grid (Strip S) S}
    (h : Step.Reached Call.perform (fun call ↦ ∀ count, call ≠ .tracks (.edit (.setLen count)))
      (Fitting Strip.Sound) grid) : grid.PassesChecks := by
  have hfitting : grid.Fitting Strip.Sound := h.holds (fun _ hstart ↦ hstart) fun call hcall _ hs ↦
    hs.perform id (fun call _ hstrip ↦ hstrip.perform call) hcall
  exact hfitting.passesChecks

variable [ViewHandle H V S]

/-! ### Runs -/

/-- Take any run of calls on a list, a grid or a table, over a source that may raise a fault where
it is to build or to fill a view. As long as the extents and gaps that the calls hand over are
finite, and no call changes the number of tracks behind a grid, a call ends with a fault only if the
source raised it: a failed check of the bookkeeping or a missing track is not among the faults.
After the run, every query of the models passes its checks, and so it does after any more calls on
them. So it does on the way, since all that the run does to its models is to make such calls on
them: see `Collection.reached_runAll` and `Table.reached_runAll`. -/
theorem faults_of_source_only (host : H) (mode : SelectionMode) (lookahead : Nat) :
    (∀ (source : ItemSource H V) (strip : Strip S) (axis : Axis)
      (calls : List (Collection.Call (Strip.Call S) H V S)), strip.Built →
      (∀ call ∈ calls, ∀ extent ∈ call.extents Strip.Call.extents,
        Scalar.isFinite extent = true) →
      let run := Step.runAll (Collection.Call.perform Strip.Call.perform source) calls
        ⟨host, Collection.initial strip axis mode lookahead⟩
      (∀ fault, .error fault ∈ run.1 → source.views.Raises fault) ∧
        ∀ more : List (Strip.Call S),
          (Step.runAll Strip.Call.perform more run.2.held.model).2.PassesChecks) ∧
    (∀ (source : ItemSource H V) (grid : Grid (Strip S) S) (axis : Axis)
      (calls : List (Collection.Call (Grid.Call S) H V S)), grid.Built →
      (∀ count, .model (.tracks (.edit (.setLen count))) ∉ calls) →
      (∀ call ∈ calls, ∀ extent ∈ call.extents Grid.Call.extents,
        Scalar.isFinite extent = true) →
      let run := Step.runAll (Collection.Call.perform Grid.Call.perform source) calls
        ⟨host, Collection.initial grid axis mode lookahead⟩
      (∀ fault, .error fault ∈ run.1 → source.views.Raises fault) ∧
        ∀ more : List (Grid.Call S), (∀ count, .tracks (.edit (.setLen count)) ∉ more) →
          (Step.runAll Grid.Call.perform more run.2.held.model).2.PassesChecks) ∧
    ∀ (source : TableSource H V) (rows cols : Strip S) (calls : List (Table.Call H S)),
      rows.Built → cols.Built →
      (∀ call ∈ calls, ∀ extent ∈ call.extents, Scalar.isFinite extent = true) →
      let run := Step.runAll (Table.Call.perform source) calls
        ⟨host, Table.initial rows cols mode lookahead⟩
      (∀ fault, .error fault ∈ run.1 → source.views.Raises fault) ∧
        ∀ more : List (Strip.Call S),
          (Step.runAll Strip.Call.perform more run.2.held.rows.model).2.PassesChecks ∧
          (Step.runAll Strip.Call.perform more run.2.held.cols.model).2.PassesChecks := by
  refine ⟨fun source strip axis calls hbuilt hfinite ↦ ?strip,
    fun source grid axis calls hbuilt htracks hfinite ↦ ?grid,
    fun source rows cols calls hrows hcols hfinite ↦ ?table⟩
  case strip =>
    intro run
    have hedit (e : Strip.Call S) (he : .model e ∈ calls) (model : Strip S) (h : model.Sound) :=
      h.ensures_perform (hfinite (.model e) he)
    have hstart : (Collection.initial strip axis mode lookahead : Collection _ V S).model.Sound :=
      (congrArg Strip.Sound (Collection.model_initial ..)).mpr hbuilt.sound
    have hreached : Step.Reached Strip.Call.perform (fun _ ↦ True) Strip.Sound run.2.held.model :=
      Collection.reached_runAll (Strip.upheld_reached _) source (fun _ _ ↦ trivial) hstart
    refine ⟨fun fault hfault ↦ ?_, fun more ↦ ?_⟩
    · exact Collection.raises_of_mem_runAll Strip.measured_sound hedit hfinite hbuilt.sound hfault
    · exact Strip.passesChecks_of_reached (hreached.runAll fun _ _ ↦ trivial)
  case grid =>
    intro run
    have hedit (e : Grid.Call S) (he : .model e ∈ calls) (model : Grid (Strip S) S)
        (h : model.Fitting Strip.Sound) :=
      h.ensures_perform (fun count heq ↦ htracks count (heq ▸ he)) (hfinite (.model e) he)
    have hstart : (Collection.initial grid axis mode lookahead : Collection _ V S).model.Fitting
        Strip.Sound :=
      (congrArg (Grid.Fitting Strip.Sound) (Collection.model_initial ..)).mpr hbuilt.fitting
    have hreached : Step.Reached Grid.Call.perform
        (fun call ↦ ∀ count, call ≠ .tracks (.edit (.setLen count))) (Grid.Fitting Strip.Sound)
        run.2.held.model :=
      Collection.reached_runAll (Grid.upheld_reached _) source
        (fun _ he count heq ↦ htracks count (heq ▸ he)) hstart
    refine ⟨fun fault hfault ↦ ?_, fun more hmore ↦ ?_⟩
    · exact Collection.raises_of_mem_runAll Grid.measured_fitting hedit hfinite hbuilt.fitting
        hfault
    · exact Grid.passesChecks_of_reached
        (hreached.runAll fun call hcall count heq ↦ hmore count (heq ▸ hcall))
  case table =>
    intro run
    have hstart {strip : Strip S} (h : strip.Built) :
        ((Viewport.ofModel strip Scalar.zero).setLookahead lookahead).model.Sound :=
      (congrArg Strip.Sound (Viewport.setLookahead_steady lookahead _).model_eq).mpr h.sound
    have hreached : run.2.held.ViewportsHave fun viewport ↦
        Step.Reached Strip.Call.perform (fun _ ↦ True) Strip.Sound viewport.model :=
      Table.reached_runAll source calls ⟨hstart hrows, hstart hcols⟩
    refine ⟨fun fault hfault ↦ Table.raises_of_mem_runAll hfinite hfault, fun more ↦ ?_⟩
    exact ⟨Strip.passesChecks_of_reached (hreached.rows.runAll fun _ _ ↦ trivial),
      Strip.passesChecks_of_reached (hreached.cols.runAll fun _ _ ↦ trivial)⟩

/-- A list, a grid and a table each have a long item, and the source cannot fill one of the views. A
pass ends with the fault of the source, and the calls after it end well. -/
theorem faults_of_source_only_rehearsal :
    (let source : ItemSource (Rehearsal Nat Nat) (BlankView Rat) := Rehearsal.items
      let strip : Strip Rat := { Strip.empty with uniform := 10 }
      let calls : List (Collection.Call (Strip.Call Rat) (Rehearsal Nat Nat) (BlankView Rat) Rat) :=
        [.setViewportSize ⟨100, 30⟩, .host ({ · with bindFails := some 1 }), .layout,
          .setItemExtent 1 20, .model (.setSpacing 1), .host ({ · with bindFails := none }),
          .layout]
      let run := Step.runAll (Collection.Call.perform Strip.Call.perform source) calls
        ⟨Rehearsal.ofPoll 5, Collection.initial strip .vertical .multiple 0⟩
      run.1.map Except.isOk = [true, true, false, true, true, true, true] ∧
        (∀ fault, .error fault ∈ run.1 → source.views.Raises fault) ∧
        run.2.held.model.isUniform = false ∧ ∀ more : List (Strip.Call Rat),
          (Step.runAll Strip.Call.perform more run.2.held.model).2.PassesChecks) ∧
    (let source : ItemSource (Rehearsal Nat Nat) (BlankView Rat) := Rehearsal.items
      let strip : Strip Rat := { Strip.empty with uniform := 10 }
      let grid : Grid (Strip Rat) Rat := Grid.ofTracks strip 10 0
      let calls : List (Collection.Call (Grid.Call Rat) (Rehearsal Nat Nat) (BlankView Rat) Rat) :=
        [.setViewportSize ⟨25, 15⟩, .host ({ · with bindFails := some 1 }), .layout,
          .setItemExtent 1 20, .model (.tracks (.setSpacing 1)),
          .host ({ · with bindFails := none }), .layout]
      let run := Step.runAll (Collection.Call.perform Grid.Call.perform source) calls
        ⟨Rehearsal.ofPoll 5, Collection.initial grid .vertical .multiple 0⟩
      run.1.map Except.isOk = [true, true, false, true, true, true, true] ∧
        (∀ fault, .error fault ∈ run.1 → source.views.Raises fault) ∧
        run.2.held.model.tracks.isUniform = false ∧
        ∀ more : List (Grid.Call Rat), (∀ count, .tracks (.edit (.setLen count)) ∉ more) →
          (Step.runAll Grid.Call.perform more run.2.held.model).2.PassesChecks) ∧
    (let source : TableSource (Rehearsal (Nat × Nat) CellId) (BlankView Rat) := Rehearsal.cells
      let strip : Strip Rat := { Strip.empty with uniform := 10 }
      let calls : List (Table.Call (Rehearsal (Nat × Nat) CellId) Rat) :=
        [.setViewportSize ⟨15, 15⟩, .host ({ · with bindFails := some ⟨0, 1⟩ }), .layout,
          .setRowHeight 0 20, .host ({ · with bindFails := none }), .layout]
      let run := Step.runAll (Table.Call.perform source) calls
        ⟨Rehearsal.ofPoll (2, 2), Table.initial strip strip .multiple 0⟩
      run.1.map Except.isOk = [true, true, false, true, true, true] ∧
        (∀ fault, .error fault ∈ run.1 → source.views.Raises fault) ∧
        run.2.held.rows.model.isUniform = false ∧ ∀ more : List (Strip.Call Rat),
          (Step.runAll Strip.Call.perform more run.2.held.rows.model).2.PassesChecks ∧
          (Step.runAll Strip.Call.perform more run.2.held.cols.model).2.PassesChecks) := by
  refine ⟨?list, ?grid, ?table⟩
  case list =>
    intro source strip calls
    obtain ⟨hraises, hpasses⟩ := (faults_of_source_only (Rehearsal.ofPoll 5) .multiple 0).1 source
      strip .vertical calls ⟨0, 10, strip, [], rfl, rfl⟩ fun _ _ _ _ ↦ rfl
    exact ⟨by decide +kernel, hraises, by decide +kernel, hpasses⟩
  case grid =>
    intro source strip grid calls
    have hgrid : grid.Built := ⟨strip, 10, 0, 0, [], ⟨0, 10, strip, [], rfl, rfl⟩, by simp, rfl⟩
    obtain ⟨hraises, hpasses⟩ := (faults_of_source_only (Rehearsal.ofPoll 5) .multiple 0).2.1
      source grid .vertical calls hgrid (by simp [calls]) fun _ _ _ _ ↦ rfl
    exact ⟨by decide +kernel, hraises, by decide +kernel, hpasses⟩
  case table =>
    intro source strip calls
    have hstrip : strip.Built := ⟨0, 10, strip, [], rfl, rfl⟩
    obtain ⟨hraises, hpasses⟩ := (faults_of_source_only (Rehearsal.ofPoll (2, 2)) .multiple 0).2.2
      source strip strip calls hstrip hstrip fun _ _ _ _ ↦ rfl
    exact ⟨by decide +kernel, hraises, by decide +kernel, hpasses⟩

end Windowing
