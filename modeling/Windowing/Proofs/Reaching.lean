import Windowing.Proofs.Collection.Showing
import Windowing.Proofs.Table.Showing
import Windowing.Rehearsal

/-!
# Scroll requests reach what the data gains

An item that a collection is asked to show may not exist yet. The request is kept until the next
pass and made again then, so the pass shows the item if the source has it by now, or the last item
if not, wherever resizes and edits have left the viewport in between. A table does so along both
axes.

Only a viewport without any extent shows nothing, and its window need not have the item.

## Main results

* `reveal_reaches` — for collections and for tables, the pass shows what was asked for.
-/

namespace Windowing

variable {H V : Type} [ViewHandle H V Rat]

/-- After every run of calls, ask a list, a grid or a table to show an item or a cell, and make any
calls that neither scroll nor run a pass. If the pass that follows is completed and polls some
items, then the item, or the last one if there are not as many, is fully visible unless it is longer
than the viewport, and the window has it if both have an extent. The same holds of the rows and of
the columns of a table. The tracks of a grid may be edited in any way. -/
theorem reveal_reaches (host : H) (mode : SelectionMode) (lookahead : Nat) :
    (∀ (source : ItemSource H V) (strip : Strip Rat) (axis : Axis)
      (calls between : List (Collection.Call (Strip.Call Rat) H V Rat)) (index : Nat)
      {pass : Pass IndexRange Nat} {t : Hosted H (Collection (Strip Rat) V Rat)}, strip.Built →
      (∀ call ∈ between, call.leavesRequest = true) →
      let perform := Collection.Call.perform Strip.Call.perform source
      let before :=
        (Step.runAll perform calls ⟨host, Collection.initial strip axis mode lookahead⟩).2
      let s := (Step.runAll perform (.reveal index :: between) before).2
      Collection.layout source s = .ok pass t → 0 < (source.len s.host).1 →
      t.held.viewport.Shows pass.window (min index ((source.len s.host).1 - 1))) ∧
    (∀ (source : ItemSource H V) (grid : Grid (Strip Rat) Rat) (axis : Axis)
      (calls between : List (Collection.Call (Grid.Call Rat) H V Rat)) (index : Nat)
      {pass : Pass IndexRange Nat} {t : Hosted H (Collection (Grid (Strip Rat) Rat) V Rat)},
      grid.tracks.Built →
      (∀ call ∈ between, call.leavesRequest = true) →
      let perform := Collection.Call.perform Grid.Call.perform source
      let before :=
        (Step.runAll perform calls ⟨host, Collection.initial grid axis mode lookahead⟩).2
      let s := (Step.runAll perform (.reveal index :: between) before).2
      Collection.layout source s = .ok pass t → 0 < (source.len s.host).1 →
      t.held.viewport.Shows pass.window (min index ((source.len s.host).1 - 1))) ∧
    ∀ (source : TableSource H V) (rows cols : Strip Rat) (calls between : List (Table.Call H Rat))
      (cell : CellId) {pass : Pass TableWindow CellId} {t : Hosted H (Table V Rat)},
      rows.Built → cols.Built → (∀ call ∈ between, call.leavesRequests = true) →
      let perform := Table.Call.perform source
      let before := (Step.runAll perform calls ⟨host, Table.initial rows cols mode lookahead⟩).2
      let s := (Step.runAll perform (.reveal cell :: between) before).2
      Table.layout source s = .ok pass t →
      t.held.Shows pass.window (source.dimensions s.host).1 cell := by
  refine ⟨fun source strip axis calls between index {pass t} hbuilt hbetween ↦ ?strip,
    fun source grid axis calls between index {pass t} hbuilt hbetween ↦ ?grid,
    fun source rows cols calls between cell {pass t} hrows hcols hbetween ↦ ?cells⟩
  case strip =>
    exact Collection.shows_of_reveal Strip.keepsOrder_laid
      (fun call _ h ↦ Step.ensures_iff_after.mpr (h.perform call)) source host hbuilt.laid axis mode
      lookahead calls index hbetween
  case grid =>
    exact Collection.shows_of_reveal Grid.keepsOrder_tracks
      (fun call _ h ↦ Grid.perform_tracks (fun call _ h ↦ h.perform call) call h) source host
      hbuilt.laid axis mode lookahead calls index hbetween
  case cells =>
    exact Table.shows_of_reveal Strip.keepsOrder_laid source host hrows.laid hcols.laid mode
      lookahead calls cell hbetween

/-- The last of eight items, of which there were three at first, is shown when a later one was asked
for, although the viewport was resized and another item made longer in between. So are an item of a
grid whose tracks had been cut off, and the last column of a table. -/
theorem reveal_reaches_rehearsal :
    (let source : ItemSource (Rehearsal Nat Nat) (BlankView Rat) := Rehearsal.items
      let calls : List (Collection.Call (Strip.Call Rat) (Rehearsal Nat Nat) (BlankView Rat) Rat) :=
        [.setViewportSize ⟨100, 40⟩, .layout]
      let between : List (Collection.Call (Strip.Call Rat) _ _ Rat) :=
        [.setViewportSize ⟨100, 15⟩, .host ({ · with poll := 8 }), .setItemExtent 2 50]
      let perform := Collection.Call.perform Strip.Call.perform source
      let before := (Step.runAll perform calls ⟨Rehearsal.ofPoll 3,
        Collection.initial { Strip.empty with uniform := 10 } .vertical .none 0⟩).2
      let s := (Step.runAll perform (.reveal 9 :: between) before).2
      ∃ pass t, Collection.layout source s = .ok pass t ∧ t.held.viewport.Shows pass.window 7) ∧
    (let source : ItemSource (Rehearsal Nat Nat) (BlankView Rat) := Rehearsal.items
      let calls : List (Collection.Call (Grid.Call Rat) (Rehearsal Nat Nat) (BlankView Rat) Rat) :=
        [.setViewportSize ⟨25, 15⟩, .layout, .model (.tracks (.edit (.setLen 1)))]
      let between : List (Collection.Call (Grid.Call Rat) _ _ Rat) :=
        [.host ({ · with poll := 7 })]
      let strip : Strip Rat := { Strip.empty with uniform := 10 }
      let perform := Collection.Call.perform Grid.Call.perform source
      let before := (Step.runAll perform calls ⟨Rehearsal.ofPoll 4,
        Collection.initial (Grid.ofTracks strip 10 0) .vertical .none 0⟩).2
      let s := (Step.runAll perform (.reveal 3 :: between) before).2
      ∃ pass t, Collection.layout source s = .ok pass t ∧ t.held.viewport.Shows pass.window 3) ∧
    (let source : TableSource (Rehearsal (Nat × Nat) CellId) (BlankView Rat) := Rehearsal.cells
      let calls : List (Table.Call (Rehearsal (Nat × Nat) CellId) Rat) :=
        [.setViewportSize ⟨30, 15⟩, .layout]
      let between : List (Table.Call (Rehearsal (Nat × Nat) CellId) Rat) :=
        [.host ({ · with poll := (4, 5) }), .setColumnWidth 1 60]
      let strip : Strip Rat := { Strip.empty with uniform := 20 }
      let perform := Table.Call.perform source
      let before := (Step.runAll perform calls ⟨Rehearsal.ofPoll (1, 2),
        Table.initial strip strip .none 0⟩).2
      let s := (Step.runAll perform (.reveal ⟨2, 9⟩ :: between) before).2
      ∃ pass t, Table.layout source s = .ok pass t ∧ t.held.cols.Shows pass.window.cols 4) := by
  refine ⟨?strip, ?grid, ?cells⟩
  case strip =>
    intro source calls between perform before s
    obtain ⟨pass, t, hpass⟩ : ∃ pass t, Collection.layout source s = .ok pass t :=
      Step.exists_eq_ok (by decide +kernel)
    have hlen : (source.len s.host).1 = 8 := by decide +kernel
    have hshows := (reveal_reaches (V := BlankView Rat) (Rehearsal.ofPoll 3) .none 0).1 source
      { Strip.empty with uniform := 10 } .vertical calls between 9 ⟨0, 10, _, [], rfl, rfl⟩
      (by simp [between, Collection.Call.leavesRequest]) hpass (by rw [hlen]; norm_num)
    rw [hlen] at hshows
    exact ⟨pass, t, hpass, hshows⟩
  case grid =>
    intro source calls between strip perform before s
    obtain ⟨pass, t, hpass⟩ : ∃ pass t, Collection.layout source s = .ok pass t :=
      Step.exists_eq_ok (by decide +kernel)
    have hlen : (source.len s.host).1 = 7 := by decide +kernel
    have htracks : (Grid.ofTracks strip 10 0).tracks.Built :=
      ⟨0, 10, strip, [.edit (.setLen _)], rfl, rfl⟩
    have hshows := (reveal_reaches (V := BlankView Rat) (Rehearsal.ofPoll 4) .none 0).2.1 source
      (Grid.ofTracks strip 10 0) .vertical calls between 3 htracks
      (by simp [between, Collection.Call.leavesRequest]) hpass (by rw [hlen]; norm_num)
    rw [hlen] at hshows
    exact ⟨pass, t, hpass, hshows⟩
  case cells =>
    intro source calls between strip perform before s
    obtain ⟨pass, t, hpass⟩ : ∃ pass t, Table.layout source s = .ok pass t :=
      Step.exists_eq_ok (by decide +kernel)
    have hdimensions : (source.dimensions s.host).1 = (4, 5) := by decide +kernel
    have hbuilt : strip.Built := ⟨0, 20, strip, [], rfl, rfl⟩
    have hshows := (reveal_reaches (V := BlankView Rat) (Rehearsal.ofPoll (1, 2)) .none 0).2.2
      source strip strip calls between ⟨2, 9⟩ hbuilt hbuilt
      (by simp [between, Table.Call.leavesRequests]) hpass
    rw [hdimensions] at hshows
    exact ⟨pass, t, hpass, hshows.cols (by norm_num)⟩

/-- A viewport without any extent goes to the end of an item that it is asked to show, so its window
has the one behind. -/
theorem reveal_misses_without_extent :
    let source : ItemSource (Rehearsal Nat Nat) (BlankView Rat) := Rehearsal.items
    let strip : Strip Rat := { Strip.empty with uniform := 10 }
    let perform := Collection.Call.perform (E := Strip.Call Rat) Strip.Call.perform source
    let s := (Step.runAll perform [.reveal 1]
      ⟨Rehearsal.ofPoll 3, Collection.initial strip .vertical .none 0⟩).2
    strip.Built ∧ (source.len s.host).1 = 3 ∧ ∃ pass t, Collection.layout source s = .ok pass t ∧
      t.held.model.extentOf 1 = 10 ∧ pass.window.contains 1 = false := by
  intro source strip perform s
  refine ⟨⟨0, 10, strip, [], rfl, rfl⟩, by decide +kernel, ?_⟩
  obtain ⟨pass, t, hpass, htest⟩ := Step.exists_eq_ok_and (Collection.layout source) s
    (fun pass t ↦ decide (t.held.model.extentOf 1 = 10) && !pass.window.contains 1)
    (by decide +kernel)
  rw [Bool.and_eq_true, decide_eq_true_eq, Bool.not_eq_true'] at htest
  exact ⟨pass, t, hpass, htest⟩

end Windowing
