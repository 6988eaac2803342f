import Windowing.Proofs.Following
import Windowing.Proofs.Table.Beside
import Windowing.Proofs.Table.Cells
import Windowing.Proofs.Table.Recording
import Windowing.Rehearsal

/-!
# Views and windows of a table stay coherent

As in a collection, no view is lost between passes; and unless a pass was cut short, every live view
is in the window that is on record and shows its cell. The window of a table is a product of two
ranges, and a pass may change both at once.

## Main definitions

* `Table.Coherent` — what holds between any two calls.
* `Table.refused` — the cells for which the host refuses to build a view in a pass.

## Main results

* `Table.layout_ensures` — what a pass leaves, completed or not.
* `Table.cells_of_completed_pass` — the views after a completed pass of any run.
* `Table.coherent_runAll` — every run of calls keeps a table coherent.
-/

namespace Windowing.Table

variable {H V S : Type} [Scalar S] {base : Nat} {table : Table (Tracked CellId V S) S}
  {s : Hosted (Journal H CellId S) (Table (Tracked CellId V S) S)}

/-- Every live view is in the window on record, and it shows its cell. -/
def Orderly (s : Hosted (Journal H CellId S) (Table (Tracked CellId V S) S)) : Prop :=
  ∀ {cell slot}, s.held.stock.live.find? cell = some slot →
    slot.view.content = .item cell ∧ s.held.window.contains cell = true

/-- What holds between any two calls. No view built since number `base` is lost, the viewports keep
no wrong window, and the views are in order unless a pass was cut short. -/
structure Coherent (base : Nat)
    (s : Hosted (Journal H CellId S) (Table (Tracked CellId V S) S)) : Prop where
  conserved : ViewStock.Conserved base ⟨s.host, s.held.stock⟩
  settled : s.held.Settled
  orderly : s.held.passOpen = false → Orderly s

namespace Coherent

theorem aside (h : Coherent base s) (haside : s.held.Aside table) :
    Coherent base ⟨s.host, table⟩ where
  conserved := haside.stock_eq ▸ h.conserved
  settled := haside.settled h.settled
  orderly hclosed cell slot hslot := by
    rw [haside.passOpen_eq] at hclosed
    rw [haside.stock_eq] at hslot
    have horder := h.orderly hclosed hslot
    exact ⟨horder.1, by rw [haside.window_eq]; exact horder.2⟩

/-- Views and windows do not depend on the selection. -/
theorem withSelection (h : Coherent base s) (selection : Selection CellId) :
    Coherent base ⟨s.host, { s.held with selection }⟩ :=
  ⟨h.conserved, h.settled, h.orderly⟩

/-- A change of the host that builds no view. -/
theorem withHost (h : Coherent base s) {journal : Journal H CellId S}
    (hcreated : journal.created = s.host.created) : Coherent base ⟨journal, s.held⟩ :=
  ⟨⟨h.conserved.sound, h.conserved.complete.congr hcreated⟩, h.settled, h.orderly⟩

/-- Work on live views beside a pass. -/
theorem upkeep (h : Coherent base s)
    {t : Hosted (Journal H CellId S) (ViewStock CellId (Tracked CellId V S) S)}
    (ht : ViewStock.Upkeep base ⟨s.host, s.held.stock⟩ t) :
    Coherent base ⟨t.host, { s.held with stock := t.held }⟩ where
  conserved := ht.conserved
  settled := h.settled
  orderly hclosed cell slot hslot := by
    obtain ⟨old, hold, hcontent⟩ := ht.content_eq hslot
    have horder := h.orderly hclosed hold
    exact ⟨hcontent.elim (·.trans horder.1) id, horder.2⟩

end Coherent

/-! ### A pass -/

variable [ViewHandle H V S]

/-- The cells for which the host refuses to build a view in a pass. -/
def refused (source : TableSource (Journal H CellId S) (Tracked CellId V S))
    (s : Hosted (Journal H CellId S) (Table (Tracked CellId V S) S)) : List CellId :=
  match prepare source s with
  | .error _ _ => []
  | .ok (window, _) t =>
    ViewStock.refusedIn source.views (t.held.layoutFor t.held.due) (t.held.window.leaving window)
      window.cells window.contains ⟨t.host, t.held.stock⟩

omit [ViewHandle H V S] in
/-- Before it works on views, a pass makes sure that views that are not in order are bound again.
The window that it finds lies within the dimensions polled. -/
theorem prepare_ensures (source : TableSource H V) (h : Coherent base s) :
    (prepare source.journaled).Ensures s
      (fun answer t ↦ Coherent base t ∧ t.held.passOpen = true ∧
        (t.held.due.rebind = false → Orderly t) ∧
        answer.1.Within (source.dimensions s.host.host).1)
      (Coherent base) := by
  let opened := s.held.openPass
  let dimensions := source.dimensions s.host.host
  let journal : Journal H CellId S := { s.host with host := dimensions.2 }
  have hpolled : Coherent base ⟨journal, s.held⟩ := h.withHost rfl
  have hopened : Coherent base ⟨journal, opened⟩ := ⟨hpolled.conserved, hpolled.settled, nofun⟩
  have hsync := syncDimensions_aside dimensions.1 opened
  have hsynced :=
    (hopened.withSelection (opened.syncDimensions dimensions.1).1.selection).aside hsync
  -- A pass that was cut short has the next one rebind, so the views are in order if it does not.
  have horderly (hrebind : opened.due.rebind = false) : Orderly s := by
    cases hclosed : s.held.passOpen with
    | false => exact h.orderly hclosed
    | true => simp [opened, openPass, Due.refresh, hclosed] at hrebind
  rw [ensures_prepare]
  refine (approach_ensures dimensions.1 opened).mono (fun answer t ht ↦ ?_)
    fun t ht ↦ hsynced.aside ht
  obtain ⟨haside, hwithin, -⟩ := ht
  refine ⟨hsynced.aside haside, haside.passOpen_eq.trans hsync.passOpen_eq,
    fun hrebind cell slot hslot ↦ ?_, hwithin h.settled⟩
  have hold := Bool.eq_false_iff.mpr fun hdue : opened.due.rebind = true ↦
    Bool.eq_false_iff.mp hrebind (haside.rebind (hsync.rebind hdue))
  rw [haside.stock_eq, hsync.stock_eq] at hslot
  rw [haside.window_eq, hsync.window_eq]
  exact horderly hold hslot

omit [Scalar S] [ViewHandle H V S] in
/-- Views that are in order are tidy for every window that comes next. -/
theorem tidy_of_orderly (h : Orderly s) (window : TableWindow) :
    ViewStock.Tidy (s.held.window.leaving window) window.cells ⟨s.host, s.held.stock⟩ where
  content_eq hslot := (h hslot).1
  mem {cell slot} hslot := by
    rw [TableWindow.mem_leaving_iff, TableWindow.mem_cells_iff]
    cases window.contains cell with
    | true => exact .inl rfl
    | false => exact .inr ⟨(h hslot).2, rfl⟩

/-- The part of a pass that works on views loses none, and if it is completed it leaves exactly the
views of the window. -/
theorem realize_ensures (source : TableSource H V) (window : TableWindow) (h : Coherent base s)
    (hopen : s.held.passOpen = true) (horderly : s.held.due.rebind = false → Orderly s) :
    (realize source.journaled window).Ensures s
      (fun _ t ↦ Coherent base t ∧ t.held.window = window ∧
        ViewStock.Exact source.journaled.views window.cells
          (ViewStock.refusedIn source.journaled.views (s.held.layoutFor s.held.due)
            (s.held.window.leaving window) window.cells window.contains ⟨s.host, s.held.stock⟩)
          ⟨t.host, t.held.stock⟩)
      (Coherent base) := by
  have hsource := source.journals_views (S := S)
  let leaving := s.held.window.leaving window
  let step := ViewStock.follow (source.journaled (S := S)).views (s.held.layoutFor s.held.due)
    leaving window.cells window.contains
  have hconserved : step.Ensures ⟨s.host, s.held.stock⟩ _ _ :=
    ViewStock.follow_conserved hsource leaving window.cells window.contains h.conserved
  have hexact : step.Ensures ⟨s.host, s.held.stock⟩ _ _ :=
    ViewStock.follow_exact hsource window.nodup_cells (fun _ ↦ TableWindow.mem_cells_iff.symm)
      (fun _ ↦ TableWindow.not_mem_cells_of_mem_leaving) h.conserved
      fun hrebind ↦ tidy_of_orderly (horderly hrebind) window
  rw [ensures_realize]
  refine (hconserved.and hexact).mono (fun _ t ht ↦ ?_) fun t ht ↦ ?_
  · obtain ⟨hconserved, hexact⟩ := ht
    refine ⟨⟨hconserved, h.settled, fun _ cell slot hslot ↦ ?_⟩, rfl, hexact⟩
    have hlive := (hexact.live_iff cell).mp (Option.isSome_of_eq_some hslot)
    exact ⟨hexact.content_eq hslot, TableWindow.mem_cells_iff.mp hlive.1⟩
  · exact ⟨ht.1, h.settled, fun hclosed ↦ absurd (hopen.symm.trans hclosed) (by decide)⟩

/-- What a completed pass leaves: the window that it answers is on record and lies within the
dimensions polled, and exactly the cells of the window have a view, but those refused. -/
structure Passed (source : TableSource (Journal H CellId S) (Tracked CellId V S))
    (dimensions : Nat × Nat) (refused : List CellId) (window : TableWindow)
    (t : Hosted (Journal H CellId S) (Table (Tracked CellId V S) S)) : Prop where
  window_eq : t.held.window = window
  within : window.Within dimensions
  exact : ViewStock.Exact source.views window.cells refused ⟨t.host, t.held.stock⟩

/-- What a pass leaves. However it ends, no view is lost; and if it is completed, its views are
exactly those of its window. -/
theorem layout_ensures (source : TableSource H V) (h : Coherent base s) :
    (layout source.journaled).Ensures s
      (fun pass t ↦ Coherent base t ∧ Passed source.journaled (source.dimensions s.host.host).1
        (refused source.journaled s) pass.window t)
      (Coherent base) := by
  rw [ensures_layout]
  refine (prepare_ensures source h).and_eq_ok.mono (fun answer t ht ↦ ?_) fun _ ht ↦ ht
  obtain ⟨⟨hcoherent, hopen, horderly, hwithin⟩, heq⟩ := ht
  refine (realize_ensures source answer.1 hcoherent hopen horderly).mono (fun _ u hu ↦ ?_)
    fun _ hu ↦ hu
  obtain ⟨hcoherent, hwindow, hexact⟩ := hu
  refine ⟨hcoherent, hwindow, hwithin, ?_⟩
  simpa only [refused, heq] using hexact

/-! ### Calls -/

/-- Calls keep a table coherent beside their passes. -/
theorem upheld_coherent (base : Nat) :
    Upheld (Coherent base : Hosted (Journal H CellId S) (Table (Tracked CellId V S) S) → Prop) where
  aside h haside := h.aside haside
  withSelection selection h := h.withSelection selection
  withHost _ h := h.withHost rfl
  style {s cell slot} selected h hlive := by
    have hsame := Slot.style_sameView selected ⟨s.host, slot⟩
    exact h.upkeep (ViewStock.upkeep_put h.conserved hlive hsame (.inl rfl))

theorem cellInvalidated_coherent (source : TableSource H V) (cell : CellId) (h : Coherent base s) :
    (cellInvalidated source.journaled cell).Ensures s (fun _ ↦ Coherent base) (Coherent base) := by
  simp only [cellInvalidated, onStock, Step.ensures_bind, Step.ensures_get, Step.ensures_onPart]
  exact (ViewStock.refill_upkeep source.journals_views cell _ h.conserved).mono
    (fun _ _ ht ↦ h.upkeep ht) fun _ ht ↦ h.upkeep ht

/-- The part of a call before its pass keeps a table coherent, unless it drops all views. -/
theorem lead_coherent (source : TableSource H V) (call : Call H S)
    (hcall : call.isDestroyAll = false) (h : Coherent base s) :
    (call.journaled.lead source.journaled).Ensures s (fun _ ↦ Coherent base) (Coherent base) :=
  lead_upheld (upheld_coherent base) source call hcall h fun cell _ ↦
    cellInvalidated_coherent source cell h

omit [ViewHandle H V S] in
/-- Dropping every view leaves nothing to be lost. -/
theorem destroyAll_coherent (h : Coherent base s) :
    Coherent s.host.created ⟨s.host, s.held.destroyAll.2⟩ where
  conserved := .empty s.host
  settled := h.settled
  orderly _ _ _ hslot := nomatch hslot

/-- Every call keeps a table coherent, however it ends. -/
theorem record_coherent (source : TableSource H V) (call : Call H S) (h : Coherent base s) :
    let t := (call.record source).after s
    Coherent (if call.isDestroyAll then t.host.created else base) t := by
  cases hcall : call.isDestroyAll with
  | true =>
    cases call with
    | destroyAll =>
      have hafter : (Call.destroyAll.record source).after s =
        ⟨s.host, s.held.destroyAll.2⟩ := rfl
      simpa only [if_true, hafter] using destroyAll_coherent h
    | _ => cases hcall
  | false =>
    simp only [Bool.false_eq_true, if_false]
    exact Call.holds_after_perform (lead_coherent source call hcall h) fun _ ht ↦
      (layout_ensures source ht).mono (fun _ _ hu ↦ hu.1) fun _ ↦ id

omit [ViewHandle H V S] in
theorem recorded_coherent (host : H) (rows cols : Strip S) (mode : SelectionMode)
    (lookahead : Nat) :
    Coherent 0 (recorded (V := V) host rows cols mode lookahead) where
  conserved := .empty (Journal.ofHost host)
  settled := by
    have hsettled (strip : Strip S) :
        ((Viewport.ofModel strip Scalar.zero).setLookahead lookahead).Settled :=
      (Viewport.setLookahead_steady lookahead _).settled (Viewport.settled_of_kept_eq_none rfl)
    exact ⟨hsettled rows, hsettled cols⟩
  orderly _ _ _ hslot := nomatch hslot

/-- After any run of calls a table is coherent, and no view built since the last call that dropped
all views is lost. -/
theorem coherent_runAll (source : TableSource H V) (calls : List (Call H S)) (h : Coherent base s) :
    Coherent (Step.lastMark (Call.record source) Call.isDestroyAll (·.host.created) calls s base)
      (Step.runAll (Call.record source) calls s).2 :=
  Step.holds_lastMark Coherent (fun call _ _ hs ↦ record_coherent source call hs) calls base s h

/-- A pass that a call of a run begins, it begins with a coherent table. -/
theorem coherent_of_lead {source : TableSource H V} {calls : List (Call H S)} {call : Call H S}
    (h : Coherent base s) {t : Hosted (Journal H CellId S) (Table (Tracked CellId V S) S)}
    (hlead : call.journaled.lead source.journaled
      (Step.runAll (Call.record source) calls s).2 = .ok true t) :
    Coherent (Step.lastMark (Call.record source) Call.isDestroyAll (·.host.created) calls s base)
      t := by
  have hcall := (Call.isDestroyAll_journaled call).symm.trans (Call.isDestroyAll_of_lead hlead)
  exact (lead_coherent source call hcall (coherent_runAll source calls h)).of_ok hlead

/-! ### The views after a pass -/

/-- After every pass that a run of calls completes, the window lies within the dimensions that the
pass polled, and it has no cells only if one of them is zero. Live are exactly the cells of the
window but those for which the host refused to build a view in this pass, and filling each live view
was last completed for its cell. The run is recorded to say so, and ends where the run without the
record does. -/
theorem cells_of_completed_pass (source : TableSource H V) (host : H) (rows cols : Strip S)
    (mode : SelectionMode) (lookahead : Nat) (calls : List (Call H S)) (call : Call H S)
    {pass : Pass TableWindow CellId}
    {s t : Hosted (Journal H CellId S) (Table (Tracked CellId V S) S)}
    (hlead : call.journaled.lead source.journaled
      (Step.runAll (Call.record source) calls (recorded host rows cols mode lookahead)).2 =
      .ok true s)
    (hpass : layout source.journaled s = .ok pass t) :
    let dimensions := (source.dimensions s.host.host).1
    (call.record source).after
        (Step.runAll (Call.record source) calls (recorded host rows cols mode lookahead)).2 = t ∧
      (call.perform source).after
        (Step.runAll (Call.perform source) calls ⟨host, initial rows cols mode lookahead⟩).2 =
          plain t ∧
      t.held.window = pass.window ∧
      (pass.window.rows.stop ≤ dimensions.1 ∧ pass.window.cols.stop ≤ dimensions.2 ∧
        (pass.window.isEmpty = true ↔ dimensions.1 = 0 ∨ dimensions.2 = 0)) ∧
      (∀ cell, (t.held.stock.live.find? cell).isSome = true ↔
        (pass.window.rows.contains cell.row = true ∧ pass.window.cols.contains cell.col = true) ∧
          cell ∉ refused source.journaled s) ∧
      (∀ cell slot, t.held.stock.live.find? cell = some slot → slot.view.content = .item cell) := by
  have hcall := (Call.isDestroyAll_journaled call).symm.trans (Call.isDestroyAll_of_lead hlead)
  have hbefore := coherent_runAll source calls
    (recorded_coherent (V := V) host rows cols mode lookahead)
  have hs := (lead_coherent source call hcall hbefore).of_ok hlead
  obtain ⟨-, hpassed⟩ := (layout_ensures source hs).of_ok hpass
  have hwithin := hpassed.within
  have hafter := Call.after_perform_of_lead hlead hpass
  refine ⟨hafter, ?plain, hpassed.window_eq,
    ⟨hwithin.rows_le, hwithin.cols_le, hwithin.isEmpty_iff⟩, fun cell ↦ ?live,
    fun cell slot hslot ↦ hpassed.exact.content_eq hslot⟩
  case plain =>
    rw [runAll_recorded, ← hafter]
    exact (Call.record_mirrors source call).after _
  case live =>
    rw [hpassed.exact.live_iff, TableWindow.mem_cells_iff, TableWindow.contains, Bool.and_eq_true]

/-- A cell whose view could not be filled at first is filled by the next pass, which builds no view
for the other one. -/
theorem cells_of_completed_pass_rehearsal :
    let source : TableSource (Rehearsal (Nat × Nat) CellId) (BlankView Rat) := Rehearsal.cells
    let host : Rehearsal (Nat × Nat) CellId :=
      { (Rehearsal.ofPoll (1, 2) : Rehearsal (Nat × Nat) CellId) with
        createLimit := some 1, bindFails := some ⟨0, 0⟩ }
    let calls : List (Call (Rehearsal (Nat × Nat) CellId) Rat) :=
      [.setViewportSize ⟨30, 15⟩, .layout, .host ({ · with bindFails := none })]
    let strip : Strip Rat := { Strip.empty with uniform := 20 }
    let s := (Step.runAll (Call.record source) calls (recorded host strip strip .none 0)).2
    ∃ pass t, layout source.journaled s = .ok pass t ∧ refused source.journaled s = [⟨0, 1⟩] ∧
      ∀ cell, (t.held.stock.live.find? cell).isSome = true ↔
        (pass.window.rows.contains cell.row = true ∧ pass.window.cols.contains cell.col = true) ∧
          cell ∉ [⟨0, 1⟩] := by
  intro source host calls strip s
  have hrefused : refused source.journaled s = [⟨0, 1⟩] := by decide +kernel
  obtain ⟨pass, t, hpass⟩ : ∃ pass t, layout source.journaled s = .ok pass t :=
    Step.exists_eq_ok (by decide +kernel)
  have hcells := cells_of_completed_pass source host strip strip .none 0 calls .layout rfl hpass
  exact ⟨pass, t, hpass, hrefused, hrefused ▸ hcells.2.2.2.2.1⟩

end Windowing.Table
