import Windowing.Proofs.Collection.Styling
import Windowing.Proofs.Table.Styling

/-!
# Views look as they are selected

A view is styled when it is given to its key, when the selection of its key changes, and when its
content is refreshed. A selection that ends because the source has lost its key is not told to any
view. No view looks wrong for that, since each pass that finds such a loss has every view filled
again, or gives it up.

## Main results

* `views_styled` — for collections and for tables, live views are styled as they are selected.
-/

namespace Windowing

variable {H V S : Type} [Scalar S] [ViewHandle H V S]

/-- After a run in which no call is cut short, and after every pass that is completed however the
calls before it ended, each live view was last styled as its item or its cell is selected. The
source may give another answer to every poll. The runs are recorded to say so, and go as the runs
without the record do. -/
theorem views_styled (host : H) (mode : SelectionMode) (lookahead : Nat) :
    (∀ {E M : Type} [ExtentModel M S] [ResizableModel M S] [CrossPlacement M S]
      (edit : E → Step M (Reply S)) (source : ItemSource H V) (model : M) (axis : Axis)
      (calls : List (Collection.Call E H V S)),
      let run := Step.runAll (Collection.Call.record edit source) calls
        (Collection.recorded host model axis mode lookahead)
      let bare := Step.runAll (Collection.Call.perform edit source) calls
        ⟨host, Collection.initial model axis mode lookahead⟩
      bare = (run.1, Collection.plain run.2) ∧
        ((∀ outcome ∈ bare.1, outcome.isOk = true) →
          ∀ index slot, run.2.held.stock.live.find? index = some slot →
            slot.view.selected = some (run.2.held.selection.isSelected index)) ∧
        ∀ (call : Collection.Call E H V S) {pass : Pass IndexRange Nat}
          {s t : Hosted (Journal H Nat S) (Collection M (Tracked Nat V S) S)},
          call.journaled.lead edit source.journaled run.2 = .ok true s →
          Collection.layout source.journaled s = .ok pass t →
          (call.record edit source).after run.2 = t ∧
            (call.perform edit source).after bare.2 = Collection.plain t ∧
            ∀ index slot, t.held.stock.live.find? index = some slot →
              slot.view.selected = some (t.held.selection.isSelected index)) ∧
    ∀ (source : TableSource H V) (rows cols : Strip S) (calls : List (Table.Call H S)),
      let run := Step.runAll (Table.Call.record source) calls
        (Table.recorded host rows cols mode lookahead)
      let bare := Step.runAll (Table.Call.perform source) calls
        ⟨host, Table.initial rows cols mode lookahead⟩
      bare = (run.1, Table.plain run.2) ∧
        ((∀ outcome ∈ bare.1, outcome.isOk = true) →
          ∀ cell slot, run.2.held.stock.live.find? cell = some slot →
            slot.view.selected = some (run.2.held.selection.isSelected cell)) ∧
        ∀ (call : Table.Call H S) {pass : Pass TableWindow CellId}
          {s t : Hosted (Journal H CellId S) (Table (Tracked CellId V S) S)},
          call.journaled.lead source.journaled run.2 = .ok true s →
          Table.layout source.journaled s = .ok pass t →
          (call.record source).after run.2 = t ∧
            (call.perform source).after bare.2 = Table.plain t ∧
            ∀ cell slot, t.held.stock.live.find? cell = some slot →
              slot.view.selected = some (t.held.selection.isSelected cell) := by
  refine ⟨fun {E M} _ _ _ edit source model axis calls ↦ ?items,
    fun source rows cols calls ↦ ?cells⟩
  case items =>
    intro run bare
    have hstart := Collection.recorded_coherent (V := V) host model axis mode lookahead
    have hdressed := Collection.recorded_dressed (V := V) host model axis mode lookahead
    have hbare : bare = (run.1, Collection.plain run.2) :=
      Collection.runAll_record edit source calls
        (Collection.recorded host model axis mode lookahead)
    refine ⟨hbare, fun hok index slot hslot ↦ ?whole, fun call pass s t hlead hpass ↦ ?pass⟩
    case whole =>
      rw [hbare] at hok
      exact Collection.styled_runAll edit source calls hstart hdressed ⟨rfl, rfl⟩ hok hslot
    case pass =>
      have hafter := Collection.Call.after_perform_of_lead hlead hpass
      have hplain := Collection.after_recorded edit source host model axis mode lookahead calls call
      have hrun := Collection.dressed_runAll edit source calls hstart hdressed
      have hs := (Collection.lead_dressed edit source call hrun).of_ok hlead
      have hcoherent := Collection.coherent_of_lead hstart hlead
      have hstyled := ((Collection.layout_dressed source hcoherent hs).of_ok hpass).2
      exact ⟨hafter, hplain.trans (congrArg _ hafter), fun _ _ hslot ↦ hstyled hslot⟩
  case cells =>
    intro run bare
    have hstart := Table.recorded_coherent (V := V) host rows cols mode lookahead
    have hdressed := Table.recorded_dressed (V := V) host rows cols mode lookahead
    have hbare : bare = (run.1, Table.plain run.2) :=
      Table.runAll_record source calls (Table.recorded host rows cols mode lookahead)
    refine ⟨hbare, fun hok cell slot hslot ↦ ?whole, fun call pass s t hlead hpass ↦ ?pass⟩
    case whole =>
      rw [hbare] at hok
      exact Table.styled_runAll source calls hstart hdressed ⟨rfl, rfl⟩ hok hslot
    case pass =>
      have hafter := Table.Call.after_perform_of_lead hlead hpass
      have hplain := Table.after_recorded source host rows cols mode lookahead calls call
      have hrun := Table.dressed_runAll source calls hstart hdressed
      have hs := (Table.lead_dressed source call hrun).of_ok hlead
      have hcoherent := Table.coherent_of_lead hstart hlead
      have hstyled := ((Table.layout_dressed source hcoherent hs).of_ok hpass).2
      exact ⟨hafter, hplain.trans (congrArg _ hafter), fun _ _ hslot ↦ hstyled hslot⟩

set_option maxRecDepth 20000 in
/-- A selected item is styled so in a list after a run without faults, and after the pass that
follows one that could not fill its view; and so is a selected cell of a table. -/
theorem views_styled_rehearsal :
    (let source : ItemSource (Rehearsal Nat Nat) (BlankView Rat) := Rehearsal.items
      let strip : Strip Rat := { Strip.empty with uniform := 10 }
      let calls : List (Collection.Call (Strip.Call Rat) (Rehearsal Nat Nat) (BlankView Rat) Rat) :=
        [.setViewportSize ⟨100, 15⟩, .select 1, .host ({ · with bindFails := none })]
      let run (host : Rehearsal Nat Nat) :=
        Step.runAll (Collection.Call.record Strip.Call.perform source) calls
          (Collection.recorded host strip .vertical .single 0)
      (∃ slot, (run (Rehearsal.ofPoll 5)).2.held.stock.live.find? 1 = some slot ∧
        slot.view.selected = some true) ∧
      ∃ pass t slot,
        Collection.layout source.journaled
          (run { (Rehearsal.ofPoll 5 : Rehearsal Nat Nat) with bindFails := some 1 }).2 =
            .ok pass t ∧
        t.held.stock.live.find? 1 = some slot ∧ slot.view.selected = some true) ∧
    (let source : TableSource (Rehearsal (Nat × Nat) CellId) (BlankView Rat) := Rehearsal.cells
      let strip : Strip Rat := { Strip.empty with uniform := 10 }
      let calls : List (Table.Call (Rehearsal (Nat × Nat) CellId) Rat) :=
        [.setViewportSize ⟨15, 15⟩, .select ⟨0, 1⟩, .host ({ · with bindFails := none })]
      let run (host : Rehearsal (Nat × Nat) CellId) :=
        Step.runAll (Table.Call.record source) calls (Table.recorded host strip strip .single 0)
      (∃ slot, (run (Rehearsal.ofPoll (2, 2))).2.held.stock.live.find? ⟨0, 1⟩ = some slot ∧
        slot.view.selected = some true) ∧
      ∃ pass t slot,
        Table.layout source.journaled
          (run { (Rehearsal.ofPoll (2, 2) : Rehearsal (Nat × Nat) CellId) with
            bindFails := some ⟨0, 1⟩ }).2 = .ok pass t ∧
        t.held.stock.live.find? ⟨0, 1⟩ = some slot ∧ slot.view.selected = some true) := by
  constructor
  · intro source strip calls run
    have hitems (host : Rehearsal Nat Nat) :=
      (views_styled host .single 0).1 Strip.Call.perform source strip .vertical calls
    constructor
    · have hlive : ((run (Rehearsal.ofPoll 5)).2.held.stock.live.find? 1).isSome := by cbv
      have hselected : (run (Rehearsal.ofPoll 5)).2.held.selection.isSelected 1 = true := by cbv
      obtain ⟨slot, hslot⟩ := Option.isSome_iff_exists.mp hlive
      have hstyled :=
        (hitems (Rehearsal.ofPoll 5)).2.1 (List.all_eq_true.mp (by cbv)) 1 slot hslot
      exact ⟨slot, hslot, hstyled.trans (congrArg some hselected)⟩
    · obtain ⟨pass, t, hpass, htest⟩ := Step.exists_eq_ok_and (Collection.layout source.journaled)
        (run { (Rehearsal.ofPoll 5 : Rehearsal Nat Nat) with bindFails := some 1 }).2
        (fun _ t ↦ (t.held.stock.live.find? 1).isSome && t.held.selection.isSelected 1)
        (by cbv)
      obtain ⟨hlive, hselected⟩ := Bool.and_eq_true_iff.mp htest
      obtain ⟨slot, hslot⟩ := Option.isSome_iff_exists.mp hlive
      obtain ⟨-, -, hstyled⟩ := (hitems _).2.2 .layout rfl hpass
      exact ⟨pass, t, slot, hpass, hslot, (hstyled 1 slot hslot).trans (congrArg some hselected)⟩
  · intro source strip calls run
    have hcells (host : Rehearsal (Nat × Nat) CellId) :=
      (views_styled host .single 0).2 source strip strip calls
    constructor
    · have hlive : ((run (Rehearsal.ofPoll (2, 2))).2.held.stock.live.find? ⟨0, 1⟩).isSome := by cbv
      have hselected :
          (run (Rehearsal.ofPoll (2, 2))).2.held.selection.isSelected ⟨0, 1⟩ = true := by
        cbv
      obtain ⟨slot, hslot⟩ := Option.isSome_iff_exists.mp hlive
      have hstyled :=
        (hcells (Rehearsal.ofPoll (2, 2))).2.1 (List.all_eq_true.mp (by cbv)) ⟨0, 1⟩ slot hslot
      exact ⟨slot, hslot, hstyled.trans (congrArg some hselected)⟩
    · obtain ⟨pass, t, hpass, htest⟩ := Step.exists_eq_ok_and (Table.layout source.journaled)
        (run { (Rehearsal.ofPoll (2, 2) : Rehearsal (Nat × Nat) CellId) with
          bindFails := some ⟨0, 1⟩ }).2
        (fun _ t ↦ (t.held.stock.live.find? ⟨0, 1⟩).isSome && t.held.selection.isSelected ⟨0, 1⟩)
        (by cbv)
      obtain ⟨hlive, hselected⟩ := Bool.and_eq_true_iff.mp htest
      obtain ⟨slot, hslot⟩ := Option.isSome_iff_exists.mp hlive
      obtain ⟨-, -, hstyled⟩ := (hcells _).2.2 .layout rfl hpass
      exact ⟨pass, t, slot, hpass, hslot,
        (hstyled ⟨0, 1⟩ slot hslot).trans (congrArg some hselected)⟩

end Windowing
