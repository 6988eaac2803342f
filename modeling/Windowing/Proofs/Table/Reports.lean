import Mathlib
import Windowing.Proofs.Collection.Leads
import Windowing.Proofs.Reports
import Windowing.Proofs.Table.Aside
import Windowing.Proofs.Table.Runs
import Windowing.Proofs.Viewports
import Windowing.Rehearsal

/-!
# What a table reports of its selection

A table changes its selection where a collection does, and every call that may change it hands the
changes back in what it answers, those of its pass included. Selecting a cell polls the source
twice, so up to three lists of changes are put together: the cell itself, what is lost with the
dimensions polled first, and what is lost with those polled by the pass.

Meanwhile no cell is selected that the models do not have: a cell is selected if the source has it,
and whenever the models come to have other dimensions the selection is cut to them. So the pass
leaves cells that it polled, also where it finds nothing to take over.

## Main definitions

* `Table.Answer.reports` — the changes of the selection that an answer reports.
* `Table.Selects` — the selection is sound, and every selected cell is one of the models.
* `Table.Leads` — changes lead from a selection to that of a table.

## Main results

* `Table.perform_leads` — what a call reports leads to the selection that it leaves.
* `Table.reported_in_bounds` — the reports of a run play back to the selection, and passes cut it to
  the dimensions that they poll.
-/

namespace Windowing

namespace Table

open Selection (Change)

variable {H V S : Type}

/-- The changes of the selection that an answer reports. -/
def Answer.reports : Answer → List (Change CellId)
  | pass result => result.unselected
  | changes made => made
  | _ => []

/-- The changes that a run of calls reports, the earliest first. -/
def reports (answers : List (Except Fault Answer)) : List (Change CellId) :=
  answers.flatMap fun
    | .ok answer => answer.reports
    | .error _ => []

variable {table after : Table V S} {before : Selection CellId} {changes : List (Change CellId)}

/-! ### Selected cells -/

/-- The selection of the table is sound, and every selected cell is one of the models. -/
structure Selects (table : Table V S) : Prop where
  sound : table.selection.Sound
  inside : ∀ cell ∈ table.selection.order, Bounded.inBounds table.dimensions cell = true

/-- The changes lead from a selection to that of a table, in which every selected cell is one of the
models. -/
structure Leads (before : Selection CellId) (changes : List (Change CellId)) (table : Table V S) :
    Prop extends Selects table where
  moves : before.Moves changes table.selection

theorem Selects.leads (h : table.Selects) : Leads table.selection [] table :=
  ⟨h, h.sound.refl_moves⟩

theorem Leads.trans {more : List (Change CellId)} (h : Leads before changes table)
    (hmore : Leads table.selection more after) : Leads before (changes ++ more) after :=
  ⟨hmore.toSelects, h.moves.trans hmore.moves⟩

/-! ### Scrolling and edits -/

variable [Scalar S]

/-- The second state is one that a table comes to from the first by scrolling and by changes of
heights and widths. -/
structure Rolls (before after : Table V S) : Prop extends before.Aside after where
  dimensions_eq : after.dimensions = before.dimensions

theorem Rolls.refl (table : Table V S) : table.Rolls table :=
  ⟨.refl table, rfl⟩

theorem Rolls.trans {other : Table V S} (h : table.Rolls after) (hother : after.Rolls other) :
    table.Rolls other :=
  ⟨h.toAside.trans hother.toAside, hother.dimensions_eq.trans h.dimensions_eq⟩

/-- Scrolling leaves the selection, and the cells that there are. -/
theorem Leads.rolls (h : Leads before changes table) (hrolls : table.Rolls after) :
    Leads before changes after where
  sound := hrolls.selection_eq ▸ h.sound
  inside := by
    rw [hrolls.selection_eq, hrolls.dimensions_eq]
    exact h.inside
  moves := hrolls.selection_eq ▸ h.moves

theorem rolls_of_ensures {α : Type} {step : Step (Table V S) α}
    (haside : step.Ensures table (fun _ ↦ table.Aside) table.Aside)
    (hdimensions : step.Ensures table (fun _ t ↦ t.dimensions = table.dimensions)
      fun t ↦ t.dimensions = table.dimensions) :
    step.Ensures table (fun _ ↦ table.Rolls) table.Rolls :=
  (haside.and hdimensions).mono (fun _ _ h ↦ ⟨h.1, h.2⟩) fun _ h ↦ ⟨h.1, h.2⟩

theorem scrollRows_rolls (request : ScrollRequest S) (table : Table V S) :
    (scrollRows request).Ensures table (fun _ ↦ table.Rolls) table.Rolls := by
  refine rolls_of_ensures (scrollRows_ensures request table) ?_
  simp only [scrollRows, Step.ensures_bind, Step.ensures_modify, Step.ensures_get,
    Step.ensures_ofExcept]
  cases hmoved : request.apply table.rows with
  | error fault => rfl
  | ok moved => exact Prod.ext (congrArg Strip.len (Viewport.apply_steady hmoved).model_eq) rfl

theorem scrollCols_rolls (request : ScrollRequest S) (table : Table V S) :
    (scrollCols request).Ensures table (fun _ ↦ table.Rolls) table.Rolls := by
  refine rolls_of_ensures (scrollCols_ensures request table) ?_
  simp only [scrollCols, Step.ensures_bind, Step.ensures_modify, Step.ensures_get,
    Step.ensures_ofExcept]
  cases hmoved : request.apply table.cols with
  | error fault => rfl
  | ok moved => exact Prod.ext rfl (congrArg Strip.len (Viewport.apply_steady hmoved).model_eq)

theorem scrollBoth_rolls (rowRequest colRequest : ScrollRequest S) (table : Table V S) :
    (scrollBoth rowRequest colRequest).Ensures table (fun _ ↦ table.Rolls) table.Rolls := by
  simp only [scrollBoth, Step.ensures_bind, Step.ensures_pure]
  refine (scrollRows_rolls rowRequest table).mono (fun _ t ht ↦ ?_) fun _ ht ↦ ht
  exact (scrollCols_rolls colRequest t).mono (fun _ _ ↦ ht.trans) fun _ ↦ ht.trans

theorem setViewportSize_rolls (size : Size S) (table : Table V S) :
    table.Rolls (table.setViewportSize size).1 := by
  refine ⟨setViewportSize_aside size table, ?_⟩
  simp only [setViewportSize]
  split
  · exact Prod.ext (congrArg Strip.len (Viewport.resize_steady size.height table.rows).model_eq)
      (congrArg Strip.len (Viewport.resize_steady size.width table.cols).model_eq)
  · rfl

/-- The extent of an item changes no number of items. -/
theorem len_clampIf_setOverride (index : Nat) (extent : S) (viewport : Viewport (Strip S) S) :
    (Viewport.onModel (Strip.setOverride index extent)).Ensures viewport
      (fun applied edited ↦ (edited.clampIf applied).model.len = viewport.model.len)
      fun edited ↦ edited.model.len = viewport.model.len := by
  have hclamp (applied : Bool) (edited : Viewport (Strip S) S) :
      (edited.clampIf applied).model = edited.model := by
    cases applied with
    | false => rfl
    | true => exact (Viewport.clamp_steady edited).model_eq
  have hopened : viewport.model.openStarts.len = viewport.model.len := by
    rw [Strip.openStarts]
    split <;> rfl
  simp only [hclamp, Viewport.onModel, Step.ensures_within, Strip.setOverride, Step.ensures_bind,
    Step.ensures_get, Step.ensures_ite, Step.ensures_pure, Step.ensures_set,
    Step.ensures_ofExcept, Step.ensures_modify]
  split
  · rfl
  · cases checkedExtent extent with
    | error fault => exact hopened
    | ok checked => exact hopened

theorem setRowHeight_rolls (row : Nat) (height : S) (table : Table V S) :
    (setRowHeight row height).Ensures table (fun _ ↦ table.Rolls) table.Rolls := by
  refine rolls_of_ensures (setRowHeight_ensures row height table) ?_
  simp only [setRowHeight, Step.ensures_bind, Step.ensures_within]
  refine (len_clampIf_setOverride row height table.rows).mono (fun applied rows hrows ↦ ?_)
    fun _ hrows ↦ Prod.ext hrows rfl
  cases applied with
  | false => exact Prod.ext hrows rfl
  | true => exact Prod.ext hrows rfl

theorem setColumnWidth_rolls (col : Nat) (width : S) (table : Table V S) :
    (setColumnWidth col width).Ensures table (fun _ ↦ table.Rolls) table.Rolls := by
  refine rolls_of_ensures (setColumnWidth_ensures col width table) ?_
  simp only [setColumnWidth, Step.ensures_bind, Step.ensures_within]
  refine (len_clampIf_setOverride col width table.cols).mono (fun applied cols hcols ↦ ?_)
    fun _ hcols ↦ Prod.ext rfl hcols
  cases applied with
  | false => exact Prod.ext rfl hcols
  | true => exact Prod.ext rfl hcols

/-! ### A pass -/

theorem adoptDimensions_leads (dimensions : Nat × Nat) (h : table.selection.Sound) :
    Leads table.selection (table.adoptDimensions dimensions).2
      (table.adoptDimensions dimensions).1 where
  sound := (Selection.retain_moves _ h).sound
  inside cell hcell := by
    rw [dimensions_adoptDimensions]
    exact (List.mem_filter.mp hcell).2
  moves := Selection.retain_moves _ h

/-- Dimensions that are not taken over are those of the models already. -/
theorem syncDimensions_leads (dimensions : Nat × Nat) (h : table.Selects) :
    Leads table.selection (table.syncDimensions dimensions).2
      (table.syncDimensions dimensions).1 := by
  rw [syncDimensions]
  split
  · exact adoptDimensions_leads dimensions h.sound
  · exact h.leads

/-- Once the dimensions are taken over, the part of a pass before the work on views only scrolls. -/
theorem approach_rolls (dimensions : Nat × Nat) (table : Table V S) :
    (approach dimensions).Ensures table
      (fun answer t ↦ (table.syncDimensions dimensions).1.Rolls t ∧
        answer.2 = (table.syncDimensions dimensions).2)
      fun _ ↦ True := by
  have hdimensions : (approach dimensions).Ensures table
      (fun _ t ↦ t.dimensions = (table.syncDimensions dimensions).1.dimensions) fun _ ↦ True := by
    have hlen (viewport : Viewport (Strip S) S) :
        viewport.clamp.1.window.2.model.len = viewport.model.len := by
      rw [← (Viewport.clamp_steady viewport).model_eq, Viewport.window]
      split
      · rfl
      · exact LawfulCount.len_settleAll viewport.clamp.1.model
    simp only [approach, Step.ensures_bind, Step.ensures_modify, Step.ensures_modifyGet]
    refine (applyPendingRows_spec _).mono ?_ fun _ _ ↦ trivial
    rintro _ _ ⟨rows, hrows, rfl⟩
    refine (applyPendingCols_spec _).mono ?_ fun _ _ ↦ trivial
    rintro _ _ ⟨cols, hcols, rfl⟩
    exact Prod.ext ((hlen rows).trans (congrArg Strip.len hrows.model_eq))
      ((hlen cols).trans (congrArg Strip.len hcols.model_eq))
  exact ((approach_ensures dimensions table).and hdimensions).mono
    (fun _ _ ht ↦ ⟨⟨ht.1.1, ht.2⟩, ht.1.2.2⟩) fun _ _ ↦ trivial

variable [ViewHandle H V S] {s : Hosted H (Table V S)}

/-- A completed pass reports the selected cells that it drops, and leaves the dimensions that it
polled. -/
theorem layout_leads (source : TableSource H V) (h : s.held.Selects) :
    (layout source).Ensures s
      (fun pass t ↦ Leads s.held.selection pass.unselected t.held ∧
        t.held.dimensions = (source.dimensions s.host).1)
      fun _ ↦ True := by
  have hopened : s.held.openPass.Selects := ⟨h.sound, h.inside⟩
  have hleads := syncDimensions_leads (source.dimensions s.host).1 hopened
  have hdimensions := dimensions_syncDimensions (source.dimensions s.host).1 s.held.openPass
  refine layout_of_prepare (ensures_prepare.mpr ?_)
  refine (approach_rolls _ _).mono (fun answer t ht ↦
    ⟨fun _ host stock ↦ ?_, fun _ _ ↦ trivial⟩) fun _ _ ↦ trivial
  obtain ⟨hrolls, hdropped⟩ := ht
  have hlaid := hleads.rolls hrolls
  rw [← hdropped] at hlaid
  exact ⟨⟨⟨hlaid.sound, hlaid.inside⟩, hlaid.moves⟩, hrolls.dimensions_eq.trans hdimensions⟩

/-! ### Calls -/

/-- A step that leaves the selection alone, or changes it and reports what it does. -/
def Reporting {α : Type} (step : Step (Hosted H (Table V S)) α)
    (reported : α → List (Change CellId)) (s : Hosted H (Table V S)) : Prop :=
  step.Ensures s (fun a t ↦ Leads s.held.selection (reported a) t.held) fun _ ↦ True

theorem layout_reporting (source : TableSource H V) (h : s.held.Selects) :
    Reporting (layout source) Pass.unselected s :=
  (layout_leads source h).mono (fun _ _ ht ↦ ht.1) fun _ _ ↦ trivial

theorem refreshAll_reporting (source : TableSource H V) (h : s.held.Selects) :
    Reporting (refreshAll source) Pass.unselected s := by
  simp only [Reporting, refreshAll, Step.ensures_bind, Step.ensures_onHeld, Step.ensures_modify]
  have hannounced : s.held.announceRefresh.Selects := ⟨h.sound, h.inside⟩
  exact layout_reporting source (s := ⟨s.host, _⟩) hannounced

theorem dimensionsChanged_reporting (source : TableSource H V) (h : s.held.Selects) :
    Reporting (dimensionsChanged source) Pass.unselected s := by
  simp only [Reporting, dimensionsChanged, Step.ensures_bind, Step.ensures_onHeld,
    Step.ensures_modify]
  have hannounced : s.held.announceDimensions.Selects := ⟨h.sound, h.inside⟩
  exact layout_reporting source (s := ⟨s.host, _⟩) hannounced

omit [Scalar S] in
/-- A change of the selection is not cut short, and touches nothing else but the views. -/
theorem changeSelection_spec
    (change : Selection CellId → Selection CellId × List (Change CellId)) :
    (changeSelection change).Ensures s
      (fun changes t ↦ changes = (change s.held.selection).2 ∧ ∃ stock,
        t.held = { s.held with selection := (change s.held.selection).1, stock })
      fun _ ↦ False := by
  simp only [changeSelection, onStock, Step.ensures_bind, Step.ensures_onHeld,
    Step.ensures_modifyGet, Step.ensures_onPart, Step.ensures_pure]
  exact (ViewStock.restyle_answers _ _).mono (fun _ views _ ↦ ⟨trivial, views.held, rfl⟩)
    fun _ h ↦ h

omit [Scalar S] in
/-- A call that selects nothing new leaves cells that there are. -/
theorem changeSelection_reporting (call : Selection.Call CellId) (h : s.held.Selects)
    (hnarrows : call.Narrows)
    (hmoves : s.held.selection.Moves (call.perform s.held.selection).2
      (call.perform s.held.selection).1) :
    Reporting (changeSelection call.perform) id s := by
  refine (changeSelection_spec call.perform).mono (fun changes t hchanged ↦ ?_) fun _ ↦ False.elim
  obtain ⟨hchanges, stock, ht⟩ := hchanged
  rw [ht, hchanges]
  exact ⟨⟨hmoves.sound, fun cell hcell ↦ h.inside cell (hnarrows _ cell hcell)⟩, hmoves⟩

/-- Selecting a cell reports the changes made before the pass. The cell is one of those polled, and
the models have these dimensions already or take them over. -/
theorem aim_reporting (source : TableSource H V) (cell : CellId) (h : s.held.Selects) :
    Reporting (aim source cell) Prod.fst s := by
  simp only [Reporting, aim, pollDimensions, Step.ensures_bind, Step.ensures_onHost,
    Step.ensures_modifyGet]
  let polled := (source.dimensions s.host).1
  have hmoves := Selection.select_moves (Bounded.inBounds polled) cell h.sound
  refine (changeSelection_spec _).mono (fun changes t hchanged ↦ ?_) fun _ ↦ False.elim
  obtain ⟨hchanges, stock, ht⟩ := hchanged
  rw [← hchanges] at hmoves
  have hselection : t.held.selection =
      (s.held.selection.select (Bounded.inBounds polled) cell).1 := by rw [ht]
  rw [← hselection] at hmoves
  simp only [Step.ensures_ite, Step.ensures_pure, Step.ensures_bind, Step.ensures_onHeld,
    Step.ensures_modifyGet, reveal]
  split
  · next hnone =>
    have hignored := Selection.select_eq_self (hchanges.symm.trans (List.isEmpty_iff.mp hnone))
    refine ⟨⟨hmoves.sound, ?_⟩, hmoves⟩
    rw [hselection, hignored, ht]
    exact h.inside
  · split
    · have hadopted := adoptDimensions_leads polled hmoves.sound
      have hleads : Leads s.held.selection (changes ++ (t.held.adoptDimensions polled).2)
          (t.held.adoptDimensions polled).1 := ⟨hadopted.toSelects, hmoves.trans hadopted.moves⟩
      exact (scrollBoth_rolls _ _ _).mono (fun _ _ ↦ hleads.rolls) fun _ _ ↦ trivial
    · next hsame =>
      have hpolled : polled = t.held.dimensions := by simpa using hsame
      have hleads : Leads s.held.selection (changes ++ []) t.held := by
        rw [List.append_nil]
        refine ⟨⟨hmoves.sound, fun key hkey ↦ ?_⟩, hmoves⟩
        rw [hselection] at hkey
        rcases Selection.mem_order_select hkey with hold | ⟨rfl, hnew⟩
        · have hinside := h.inside key hold
          rw [ht]
          exact hinside
        · exact hpolled ▸ hnew
      exact (scrollBoth_rolls _ _ _).mono (fun _ _ ↦ hleads.rolls) fun _ _ ↦ trivial

theorem select_reporting (source : TableSource H V) (cell : CellId) (h : s.held.Selects) :
    Reporting (select source cell) id s := by
  simp only [Reporting, select, Step.ensures_bind]
  refine (aim_reporting source cell h).mono (fun answer t ht ↦ ?_) fun _ _ ↦ trivial
  obtain ⟨changes, follows⟩ := answer
  cases follows with
  | false => exact ht
  | true =>
    simp only [if_true, Step.ensures_bind, Step.ensures_pure]
    exact (layout_reporting source ht.toSelects).mono (fun _ _ ↦ ht.trans) fun _ _ ↦ trivial

omit [ViewHandle H V S] in
/-- A step of the table alone that only scrolls leaves the selection. -/
theorem flagged_reporting {step : Step (Table V S) Bool} (h : s.held.Selects)
    (hstep : step.Ensures s.held (fun _ ↦ s.held.Rolls) s.held.Rolls) :
    Reporting (flagged (H := H) step) Answer.reports s := by
  rw [Reporting, flagged, Step.ensures_bind, Step.ensures_onHeld]
  exact hstep.mono (fun _ _ ↦ h.leads.rolls) fun _ _ ↦ trivial

/-- What a call reports leads to the selection that it leaves, unless it is cut short. -/
theorem perform_leads (source : TableSource H V) (call : Call H S) (h : s.held.Selects) :
    Reporting (call.perform source) Answer.reports s := by
  have hrows (request : ScrollRequest S) :=
    flagged_reporting (H := H) h (scrollRows_rolls request s.held)
  have hcols (request : ScrollRequest S) :=
    flagged_reporting (H := H) h (scrollCols_rolls request s.held)
  have hboth (rowRequest colRequest : ScrollRequest S) :=
    flagged_reporting (H := H) h (scrollBoth_rolls rowRequest colRequest s.held)
  cases call
  case setViewportSize size => exact flagged_reporting h (setViewportSize_rolls size s.held)
  case scrollTo offset => exact hboth _ _
  case reveal cell => exact hboth _ _
  case scrollToTop => exact hrows _
  case scrollToBottom => exact hrows _
  case scrollToLeading => exact hcols _
  case scrollToTrailing => exact hcols _
  case setRowHeight row height => exact flagged_reporting h (setRowHeight_rolls row height s.held)
  case setColumnWidth col width => exact flagged_reporting h (setColumnWidth_rolls col width s.held)
  all_goals simp only [Reporting, Call.perform, Step.ensures_bind, Step.ensures_pure]
  case layout => exact layout_reporting source h
  case refreshAll => exact refreshAll_reporting source h
  case dimensionsChanged => exact dimensionsChanged_reporting source h
  case cellInvalidated cell =>
    simp only [cellInvalidated, onStock, Step.ensures_bind, Step.ensures_get, Step.ensures_onPart]
    have hviews (stock : ViewStock CellId V S) :
        Leads s.held.selection [] { s.held with stock } := ⟨⟨h.sound, h.inside⟩, h.leads.moves⟩
    exact Step.ensures_of_forall (fun _ _ ↦ hviews _) fun _ ↦ trivial
  case select cell => exact select_reporting source cell h
  case unselect cell =>
    exact changeSelection_reporting (.unselect cell) h (Selection.narrows_unselect cell)
      (Selection.unselect_moves cell h.sound)
  case unselectAll =>
    exact changeSelection_reporting .unselectAll h Selection.narrows_unselectAll
      (Selection.unselectAll_moves _)
  case isSelected cell => exact h.leads
  case destroyAll => exact ⟨⟨h.sound, h.inside⟩, h.leads.moves⟩
  case host change => exact h.leads

/-- Before its pass a call leaves a selection of cells that the models have. -/
theorem lead_selects (source : TableSource H V) (call : Call H S) (h : s.held.Selects) :
    (call.lead source).Ensures s (fun follows t ↦ follows = true → t.held.Selects)
      fun _ ↦ True := by
  cases call
  case layout => exact fun _ ↦ h
  case refreshAll => exact fun _ ↦ ⟨h.sound, h.inside⟩
  case dimensionsChanged => exact fun _ ↦ ⟨h.sound, h.inside⟩
  case select cell =>
    simp only [Call.lead, Step.ensures_bind, Step.ensures_pure]
    exact (aim_reporting source cell h).mono (fun _ _ ht _ ↦ ht.toSelects) fun _ _ ↦ trivial
  all_goals simp only [Call.lead, Step.ensures_bind, Step.ensures_pure]
  all_goals
    refine Step.ensures_of_forall (fun _ _ ↦ ?_) fun _ ↦ trivial
    exact fun hends ↦ absurd hends Bool.false_ne_true

/-! ### Runs -/

theorem selects_initial (rows cols : Strip S) (mode : SelectionMode) (lookahead : Nat) :
    (initial rows cols mode lookahead : Table V S).Selects :=
  ⟨Selection.sound_ofMode mode, nofun⟩

/-- In a run without faults, the reports lead from the selection before to the one after. -/
theorem runAll_leads (source : TableSource H V) (calls : List (Call H S)) {s : Hosted H (Table V S)}
    (h : s.held.Selects)
    (hok : ∀ answer ∈ (Step.runAll (Call.perform source) calls s).1, answer.isOk = true) :
    let run := Step.runAll (Call.perform source) calls s
    Leads s.held.selection (reports run.1) run.2.held := by
  induction calls generalizing s with
  | nil => exact h.leads
  | cons call rest ih =>
    obtain ⟨hcall, hrest⟩ := List.forall_mem_cons.mp hok
    obtain ⟨answer, t, hr⟩ := Step.exists_eq_ok hcall
    have hleads := (perform_leads source call h).of_ok hr
    have houtcome : (call.perform source).outcome s = .ok answer := by rw [Step.outcome, hr]
    rw [Step.after_of_eq_ok hr] at hrest
    rw [Step.runAll, Step.after_of_eq_ok hr, houtcome]
    exact hleads.trans (ih hleads.toSelects hrest)

/-- In every run of calls without a fault, the host can keep the list of selected cells by playing
the reports back, with no report out of place; and each pass that such a run goes on with leaves
cells selected only that are inside the dimensions that it polled. The source may give another
answer to every poll. -/
theorem reported_in_bounds (source : TableSource H V) (host : H) (rows cols : Strip S)
    (mode : SelectionMode) (lookahead : Nat) (calls : List (Call H S))
    (hok : ∀ answer ∈ (Step.runAll (Call.perform source) calls
      ⟨host, initial rows cols mode lookahead⟩).1, answer.isOk = true) :
    let run := Step.runAll (Call.perform source) calls ⟨host, initial rows cols mode lookahead⟩
    Change.playback [] (reports run.1) = some run.2.held.selection.order ∧
      ∀ (call : Call H S) {pass : Pass TableWindow CellId} {s t : Hosted H (Table V S)},
        call.lead source run.2 = .ok true s → layout source s = .ok pass t →
        (call.perform source).after run.2 = t ∧
          ∀ cell ∈ t.held.selection.order,
            cell.row < (source.dimensions s.host).1.1 ∧
              cell.col < (source.dimensions s.host).1.2 := by
  intro run
  have hleads : Leads _ _ run.2.held := runAll_leads source calls
    (selects_initial rows cols mode lookahead) hok
  refine ⟨hleads.moves.playback_eq, fun call {pass s t} hlead hpass ↦
    ⟨Call.after_perform_of_lead hlead hpass, fun cell hcell ↦ ?_⟩⟩
  have hselects := (lead_selects source call hleads.toSelects).of_ok hlead rfl
  obtain ⟨hlaid, hdimensions⟩ := (layout_leads source hselects).of_ok hpass
  have hinside := hlaid.inside cell hcell
  rw [hdimensions] at hinside
  simpa [Bounded.inBounds] using hinside

set_option maxRecDepth 20000 in
/-- A table of three rows and columns in which two cells are selected. The pass that selecting the
second one runs finds two rows only, and the next pass one. -/
theorem reported_in_bounds_rehearsal :
    let source : TableSource (Rehearsal (Nat × Nat) CellId) (BlankView Rat) := Rehearsal.cells
    let host : Rehearsal (Nat × Nat) CellId :=
      { (Rehearsal.ofPoll (3, 3) : Rehearsal (Nat × Nat) CellId) with
        polls := [(3, 3), (3, 3), (2, 3), (1, 3)] }
    let strip : Strip Rat := { Strip.empty with uniform := 10 }
    let calls : List (Call (Rehearsal (Nat × Nat) CellId) Rat) :=
      [.select ⟨0, 1⟩, .select ⟨2, 2⟩]
    let run := Step.runAll (Call.perform source) calls ⟨host, initial strip strip .multiple 0⟩
    (∀ answer ∈ run.1, answer.isOk = true) ∧ (reports run.1).length = 3 ∧
      Change.playback [] (reports run.1) = some [⟨0, 1⟩] ∧
      ∃ pass t, layout source run.2 = .ok pass t ∧ (source.dimensions run.2.host).1 = (1, 3) ∧
        ∀ cell ∈ t.held.selection.order, cell.row < 1 ∧ cell.col < 3 := by
  intro source host strip calls run
  -- `cbv` computes with hash sets by equations that stand in many places of the library.
  have hrun : (run.1.all Except.isOk, (reports run.1).length, run.2.held.selection.order,
      (source.dimensions run.2.host).1) = (true, 3, [⟨0, 1⟩], (1, 3)) := by cbv
  obtain ⟨pass, t, hpass, -⟩ := Step.exists_eq_ok_and (layout source) run.2 (fun _ _ ↦ true)
    (by cbv)
  simp only [Prod.mk.injEq] at hrun
  obtain ⟨hall, hcount, horder, hpolled⟩ := hrun
  have hok : ∀ answer ∈ run.1, answer.isOk = true := List.all_eq_true.mp hall
  have hreported := reported_in_bounds source host strip strip .multiple 0 calls hok
  have hplays : Change.playback [] (reports run.1) = some run.2.held.selection.order :=
    hreported.1
  have hinside : ∀ cell ∈ t.held.selection.order,
      cell.row < (source.dimensions run.2.host).1.1 ∧
        cell.col < (source.dimensions run.2.host).1.2 := (hreported.2 .layout rfl hpass).2
  clear_value run
  rw [horder] at hplays
  rw [hpolled] at hinside
  exact ⟨hok, hcount, hplays, pass, t, hpass, hpolled, hinside⟩

end Table

end Windowing
