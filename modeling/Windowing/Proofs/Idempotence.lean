import Windowing.Proofs.Collection.Repeating
import Windowing.Proofs.Table.Repeating

/-!
# Layout is idempotent

A completed layout pass discharges every cause of work. While the source answers the same, the pass
that follows finds the same window and leaves the host, the views and the scroll state alone. This
is so however the first one came about, also after passes that were cut short, or when it is part of
a call of another sort.

## Main definitions

* `Pass.idle` — the report of a pass that did nothing.

## Main results

* `layout_idempotent` — for collections and for tables, a pass made again does nothing.
-/

namespace Windowing

/-- The report of a pass that found a window and had nothing to do. -/
def Pass.idle {W K : Type} (window : W) : Pass W K where
  bound := 0
  rebound := 0
  released := 0
  created := 0
  window := window
  unselected := []

variable {H V : Type} [ViewHandle H V Rat]

/-- Every pass that a run of calls completes with a view for each key of its window can be made
again without effect. The host may change in between as long as the source answers the same. The
pass that follows reports the same window and no work, no selection is dropped, nothing is written
into the journal, no view is built, and the live views and those in the pools are the same ones. But
for them the collection or the table is as before, with its offset and its selection; the host was
polled and is otherwise left alone. Of the model of a collection it is only asked that it keeps
count of its items and that settling it changes no extent, as it is with lists and grids. The runs
are recorded to say so, and end where the runs without the record do. -/
theorem layout_idempotent (host : H) (mode : SelectionMode) (lookahead : Nat) :
    (∀ {E M : Type} [ExtentModel M Rat] [ResizableModel M Rat] [CrossPlacement M Rat]
      [LawfulCount M] [LawfulSettle M] (edit : E → Step M (Reply Rat)) (source : ItemSource H V)
      (model : M) (axis : Axis) (calls : List (Collection.Call E H V Rat))
      (call : Collection.Call E H V Rat) (change : H → H) {pass : Pass IndexRange Nat}
      {s t : Hosted (Journal H Nat Rat) (Collection M (Tracked Nat V Rat) Rat)},
      let start := Collection.recorded host model axis mode lookahead
      let before := (Step.runAll (Collection.Call.record edit source) calls start).2
      let between : Hosted (Journal H Nat Rat) (Collection M (Tracked Nat V Rat) Rat) :=
        ⟨{ t.host with host := change t.host.host }, t.held⟩
      call.journaled.lead edit source.journaled before = .ok true s →
      Collection.layout source.journaled s = .ok pass t →
      (∀ index, pass.window.contains index = true →
        (t.held.stock.live.find? index).isSome = true) →
      Collection.answers source.journaled between = Collection.answers source.journaled s →
      (call.record edit source).after before = t ∧
        (call.perform edit source).after (Step.runAll (Collection.Call.perform edit source) calls
          ⟨host, Collection.initial model axis mode lookahead⟩).2 = Collection.plain t ∧
        ∃ stock, Collection.layout source.journaled between = .ok (.idle pass.window)
            ⟨{ t.host with host := (source.len (change t.host.host)).2 },
              { t.held with stock }⟩ ∧
          ViewStock.SameViews t.held.stock stock) ∧
    ∀ (source : TableSource H V) (rows cols : Strip Rat) (calls : List (Table.Call H Rat))
      (call : Table.Call H Rat) (change : H → H) {pass : Pass TableWindow CellId}
      {s t : Hosted (Journal H CellId Rat) (Table (Tracked CellId V Rat) Rat)},
      let start := Table.recorded host rows cols mode lookahead
      let before := (Step.runAll (Table.Call.record source) calls start).2
      let between : Hosted (Journal H CellId Rat) (Table (Tracked CellId V Rat) Rat) :=
        ⟨{ t.host with host := change t.host.host }, t.held⟩
      call.journaled.lead source.journaled before = .ok true s →
      Table.layout source.journaled s = .ok pass t →
      (∀ cell, pass.window.contains cell = true →
        (t.held.stock.live.find? cell).isSome = true) →
      Table.answers source.journaled between = Table.answers source.journaled s →
      (call.record source).after before = t ∧
        (call.perform source).after (Step.runAll (Table.Call.perform source) calls
          ⟨host, Table.initial rows cols mode lookahead⟩).2 = Table.plain t ∧
        ∃ stock, Table.layout source.journaled between = .ok (.idle pass.window)
            ⟨{ t.host with host := (source.dimensions (change t.host.host)).2 },
              { t.held with stock }⟩ ∧
          ViewStock.SameViews t.held.stock stock := by
  refine ⟨fun {E M} _ _ _ _ _ edit source model axis calls call change {pass s t} ↦ ?items,
    fun source rows cols calls call change {pass s t} ↦ ?cells⟩
  case items =>
    intro start before between hlead hpass hlive hanswers
    have hs := Collection.coherent_of_lead
      (Collection.recorded_coherent host model axis mode lookahead) hlead
    obtain ⟨hrests, hplace, hwindow, hkinds⟩ := (Collection.layout_rests source hs).of_ok hpass
    have hafter := Collection.Call.after_perform_of_lead hlead hpass
    have hplain := Collection.after_recorded edit source host model axis mode lookahead calls call
    refine ⟨hafter, hplain.trans (congrArg _ hafter), ?_⟩
    have hasked := hkinds fun index hindex ↦
      hlive index (IndexRange.contains_iff.mpr (IndexRange.mem_toList.mp hindex))
    have hpolled : (source.len s.host.host).1 = (source.len (change t.host.host)).1 :=
      (congrArg Prod.fst hanswers).symm
    rw [hpolled] at hrests
    rw [← hanswers, ← hwindow] at hasked
    rw [← hwindow]
    exact Collection.layout_again hrests hplace hasked
  case cells =>
    intro start before between hlead hpass hlive hanswers
    have hs := Table.coherent_of_lead (Table.recorded_coherent host rows cols mode lookahead) hlead
    obtain ⟨hrests, hplace, hwindow, hkinds⟩ := (Table.layout_rests source hs).of_ok hpass
    have hafter := Table.Call.after_perform_of_lead hlead hpass
    have hplain := Table.after_recorded source host rows cols mode lookahead calls call
    refine ⟨hafter, hplain.trans (congrArg _ hafter), ?_⟩
    have honly := hkinds fun cell hcell ↦ hlive cell (TableWindow.mem_cells_iff.mp hcell)
    rw [← hanswers] at hrests
    rw [← hwindow] at honly ⊢
    exact Table.layout_again hrests hplace honly

/-- After a pass that could not fill a view and another one that did, a third pass does nothing, for
a list and for a table, although the host would build no view any more. -/
theorem layout_idempotent_rehearsal :
    (let source : ItemSource (Rehearsal Nat Nat) (BlankView Rat) := Rehearsal.items
      let host : Rehearsal Nat Nat :=
        { (Rehearsal.ofPoll 3 : Rehearsal Nat Nat) with bindFails := some 1 }
      let change : Rehearsal Nat Nat → Rehearsal Nat Nat := ({ · with createLimit := some 0 })
      let calls : List (Collection.Call (Strip.Call Rat) (Rehearsal Nat Nat) (BlankView Rat) Rat) :=
        [.setViewportSize ⟨100, 15⟩, .layout, .host ({ · with bindFails := none })]
      let s := (Step.runAll (Collection.Call.record Strip.Call.perform source) calls
        (Collection.recorded host { Strip.empty with uniform := 10 } .vertical .none 0)).2
      ∃ pass t u, Collection.layout source.journaled s = .ok pass t ∧
        Collection.layout source.journaled ⟨{ t.host with host := change t.host.host }, t.held⟩ =
          .ok (.idle pass.window) u) ∧
    (let source : TableSource (Rehearsal (Nat × Nat) CellId) (BlankView Rat) := Rehearsal.cells
      let host : Rehearsal (Nat × Nat) CellId :=
        { (Rehearsal.ofPoll (1, 2) : Rehearsal (Nat × Nat) CellId) with bindFails := some ⟨0, 1⟩ }
      let change : Rehearsal (Nat × Nat) CellId → Rehearsal (Nat × Nat) CellId :=
        ({ · with createLimit := some 0 })
      let calls : List (Table.Call (Rehearsal (Nat × Nat) CellId) Rat) :=
        [.setViewportSize ⟨30, 15⟩, .layout, .host ({ · with bindFails := none })]
      let strip : Strip Rat := { Strip.empty with uniform := 20 }
      let s := (Step.runAll (Table.Call.record source) calls
        (Table.recorded host strip strip .none 0)).2
      ∃ pass t u, Table.layout source.journaled s = .ok pass t ∧
        Table.layout source.journaled ⟨{ t.host with host := change t.host.host }, t.held⟩ =
          .ok (.idle pass.window) u) := by
  constructor
  · intro source host change calls s
    obtain ⟨pass, t, hpass, htest⟩ := Step.exists_eq_ok_and (Collection.layout source.journaled) s
      (fun pass t ↦
        (pass.window.toList.all fun index ↦ (t.held.stock.live.find? index).isSome) &&
          decide (Collection.answers source.journaled
            ⟨{ t.host with host := change t.host.host }, t.held⟩ =
              Collection.answers source.journaled s))
      (by decide +kernel)
    rw [Bool.and_eq_true, List.all_eq_true, decide_eq_true_eq] at htest
    obtain ⟨hlive, hanswers⟩ := htest
    have hagain := (layout_idempotent host .none 0).1 Strip.Call.perform source
      { Strip.empty with uniform := 10 } .vertical calls .layout change rfl hpass
      (fun index hindex ↦
        hlive index (IndexRange.mem_toList.mpr (IndexRange.contains_iff.mp hindex)))
      hanswers
    obtain ⟨-, -, stock, hagain, -⟩ := hagain
    exact ⟨pass, t, _, hpass, hagain⟩
  · intro source host change calls strip s
    obtain ⟨pass, t, hpass, htest⟩ := Step.exists_eq_ok_and (Table.layout source.journaled) s
      (fun pass t ↦ (pass.window.cells.all fun cell ↦ (t.held.stock.live.find? cell).isSome) &&
        decide (Table.answers source.journaled
          ⟨{ t.host with host := change t.host.host }, t.held⟩ = Table.answers source.journaled s))
      (by decide +kernel)
    rw [Bool.and_eq_true, List.all_eq_true, decide_eq_true_eq] at htest
    obtain ⟨hlive, hanswers⟩ := htest
    have hagain := (layout_idempotent host .none 0).2 source strip strip calls .layout change rfl
      hpass (fun cell hcell ↦ hlive cell (TableWindow.mem_cells_iff.mpr hcell)) hanswers
    obtain ⟨-, -, stock, hagain, -⟩ := hagain
    exact ⟨pass, t, _, hpass, hagain⟩

end Windowing
