import Mathlib
import Windowing.Extent.Call
import Windowing.Proofs.Collection.Aside
import Windowing.Proofs.Collection.Runs
import Windowing.Proofs.Reports
import Windowing.Rehearsal

/-!
# What a collection reports of its selection

A collection changes its selection in several places. Most calls hand the changes back in what they
answer, those of their pass included. A call that invalidates an item may run a pass as well, and
answers a flag only, so the selections that this pass drops are not reported.

## Main definitions

* `Collection.Answer.reports` — the changes of the selection that an answer reports.
* `Collection.Call.Silent` — the call drops selections and does not report them.

## Main results

* `Collection.perform_reports` — a call reports what it does to the selection unless it is silent.
* `Collection.reports_play_back_iff` — the reports of a run play back to the selection exactly
  when no call of the run is silent.
-/

namespace Windowing.Collection

open Selection (Change)

variable {E H M V S : Type}

/-- The changes of the selection that an answer reports. -/
def Answer.reports : Answer S → List (Change Nat)
  | pass result => result.unselected
  | changes made => made
  | _ => []

/-- The changes that a run of calls reports, the earliest first. -/
def reports (answers : List (Except Fault (Answer S))) : List (Change Nat) :=
  answers.flatMap fun
    | .ok answer => answer.reports
    | .error _ => []

/-- The call invalidates an item that needs a view of another kind, when the source has lost items
that are selected. The pass that it runs drops these selections. -/
def Call.Silent [ExtentModel M S] (source : ItemSource H V) (s : Hosted H (Collection M V S)) :
    Call E H V S → Prop
  | itemInvalidated index =>
    (∃ kind ∈ s.held.stock.kindOf? index, kind ≠ source.kind s.host index) ∧
      (s.held.due.length = true ∨ (source.len s.host).1 ≠ ExtentModel.len s.held.model) ∧
      ∃ key ∈ s.held.selection.order, (source.len s.host).1 ≤ key
  | _ => False

variable [Scalar S] [ExtentModel M S] [ResizableModel M S]

/-! ### A pass -/

theorem adoptLength_moves (len : Nat) {items : Collection M V S} (h : items.selection.Sound) :
    items.selection.Moves (items.adoptLength len).2 (items.adoptLength len).1.selection :=
  Selection.retain_moves _ h

theorem syncLength_moves (len : Nat) {items : Collection M V S} (h : items.selection.Sound) :
    items.selection.Moves (items.syncLength len).2 (items.syncLength len).1.selection := by
  rw [syncLength]
  split
  · exact adoptLength_moves len h
  · exact h.refl_moves

/-- Taking over a length leaves the selection exactly when nothing is taken over or no selected item
is lost. -/
theorem order_syncLength_iff (len : Nat) (items : Collection M V S) :
    (items.syncLength len).1.selection.order = items.selection.order ↔
      ¬((items.due.length = true ∨ len ≠ ExtentModel.len items.model) ∧
        ∃ key ∈ items.selection.order, len ≤ key) := by
  have hfilter : items.selection.order.filter (Bounded.inBounds len) = items.selection.order ↔
      ¬∃ key ∈ items.selection.order, len ≤ key := by
    simp [List.filter_eq_self, Bounded.inBounds]
  by_cases hchanged : items.due.length = true ∨ len ≠ ExtentModel.len items.model
  · have hsync : items.syncLength len = items.adoptLength len := if_pos (by simpa using hchanged)
    rw [hsync, and_iff_right hchanged]
    exact hfilter
  · have hsync : items.syncLength len = (items, []) := if_neg (by simpa using hchanged)
    rw [hsync]
    exact iff_of_true rfl fun h ↦ hchanged h.1

variable [CrossPlacement M S] [ViewHandle H V S] {s : Hosted H (Collection M V S)}

/-- A completed pass cuts the selection to the length polled, and reports what it dropped. -/
theorem layout_selection (source : ItemSource H V) (s : Hosted H (Collection M V S)) :
    (layout source).Ensures s
      (fun pass t ↦
        t.held.selection = (s.held.openPass.syncLength (source.len s.host).1).1.selection ∧
          pass.unselected = (s.held.openPass.syncLength (source.len s.host).1).2)
      fun _ ↦ True := by
  refine layout_of_prepare (ensures_prepare.mpr ?_)
  exact (approach_ensures _ _).mono
    (fun _ _ ht ↦ ⟨fun _ _ _ ↦ ⟨ht.1.selection_eq, ht.2.2⟩, fun _ _ ↦ trivial⟩) fun _ _ ↦ trivial

theorem layout_moves (source : ItemSource H V) (h : s.held.selection.Sound) :
    (layout source).Ensures s
      (fun pass t ↦ s.held.selection.Moves pass.unselected t.held.selection) fun _ ↦ True := by
  refine (layout_selection source s).mono (fun pass t ht ↦ ?_) fun _ _ ↦ trivial
  have hopened : s.held.openPass.selection.Sound := h
  rw [ht.1, ht.2]
  exact syncLength_moves _ hopened

/-! ### Calls -/

/-- A step that leaves the selection alone, or changes it and reports what it does. -/
def Reporting {α : Type} (step : Step (Hosted H (Collection M V S)) α)
    (reported : α → List (Change Nat)) (s : Hosted H (Collection M V S)) : Prop :=
  step.Ensures s (fun a t ↦ s.held.selection.Moves (reported a) t.held.selection) fun _ ↦ True

theorem refreshAll_reporting (source : ItemSource H V) (h : s.held.selection.Sound) :
    Reporting (refreshAll source) Pass.unselected s := by
  simp only [Reporting, refreshAll, Step.ensures_bind, Step.ensures_onHeld, Step.ensures_modify]
  exact layout_moves source h

theorem lengthChanged_reporting (source : ItemSource H V) (h : s.held.selection.Sound) :
    Reporting (lengthChanged source) Pass.unselected s := by
  simp only [Reporting, lengthChanged, Step.ensures_bind, Step.ensures_onHeld, Step.ensures_modify]
  exact layout_moves source h

omit [Scalar S] [ExtentModel M S] [ResizableModel M S] [CrossPlacement M S] in
theorem changeSelection_reporting
    {change : Selection Nat → Selection Nat × List (Change Nat)}
    (hchange : s.held.selection.Moves (change s.held.selection).2 (change s.held.selection).1) :
    Reporting (changeSelection change) id s := by
  simp only [Reporting, changeSelection, onStock, Step.ensures_bind, Step.ensures_onHeld,
    Step.ensures_modifyGet, Step.ensures_onPart, Step.ensures_pure]
  exact Step.ensures_of_forall (fun _ _ ↦ hchange) fun _ ↦ trivial

omit [CrossPlacement M S] in
/-- Selecting an item reports the changes made before the pass. -/
theorem aim_reporting (source : ItemSource H V) (index : Nat) (h : s.held.selection.Sound) :
    Reporting (aim source index) Prod.fst s := by
  simp only [Reporting, aim, pollLength, Step.ensures_bind, Step.ensures_onHost,
    Step.ensures_modifyGet]
  let polled : Hosted H (Collection M V S) := ⟨(source.len s.host).2, s.held⟩
  have hselected : Reporting (changeSelection
      (Selection.select (Bounded.inBounds (source.len s.host).1) index)) id polled :=
    changeSelection_reporting (Selection.select_moves _ index h)
  refine hselected.mono (fun changes t ht ↦ ?_) fun _ _ ↦ trivial
  simp only [id, Step.ensures_ite, Step.ensures_pure, Step.ensures_bind, Step.ensures_onHeld,
    Step.ensures_modifyGet] at ht ⊢
  split
  · exact ht
  · split
    · have hadopted := ht.trans (adoptLength_moves (source.len s.host).1 ht.sound)
      refine (requestScroll_ensures _ _).mono (fun _ u hu ↦ ?_) fun _ _ ↦ trivial
      rw [hu.selection_eq]
      exact hadopted
    · refine (requestScroll_ensures _ _).mono (fun _ u hu ↦ ?_) fun _ _ ↦ trivial
      rw [hu.selection_eq, List.append_nil]
      exact ht

theorem select_reporting (source : ItemSource H V) (index : Nat) (h : s.held.selection.Sound) :
    Reporting (select source index) id s := by
  simp only [Reporting, select, Step.ensures_bind]
  refine (aim_reporting source index h).mono (fun answer t ht ↦ ?_) fun _ _ ↦ trivial
  obtain ⟨changes, follows⟩ := answer
  cases follows with
  | false => exact ht
  | true =>
    simp only [if_true, Step.ensures_bind, Step.ensures_pure]
    exact (layout_moves source ht.sound).mono (fun _ _ hu ↦ ht.trans hu) fun _ _ ↦ trivial

omit [Scalar S] [ResizableModel M S] [CrossPlacement M S] [ViewHandle H V S] in
/-- A step of the collection alone that only scrolls leaves the selection. -/
theorem onHeld_reporting {α : Type} {step : Step (Collection M V S) α} (h : s.held.selection.Sound)
    (hstep : step.Ensures s.held (fun _ ↦ s.held.Aside) s.held.Aside) :
    Reporting (Hosted.onHeld (H := H) step) (fun _ ↦ []) s := by
  rw [Reporting, Step.ensures_onHeld]
  refine hstep.mono (fun _ items hitems ↦ ?_) fun _ _ ↦ trivial
  rw [hitems.selection_eq]
  exact h.refl_moves

/-- Invalidating an item reports nothing, and it leaves the selection alone unless its pass drops
some of it. -/
theorem itemInvalidated_selection (source : ItemSource H V) (index : Nat)
    (h : s.held.selection.Sound) :
    (itemInvalidated source index).Ensures s
      (fun _ t ↦ t.held.selection.Sound ∧ (t.held.selection.order = s.held.selection.order ↔
        ¬(Call.itemInvalidated index : Call E H V S).Silent source s))
      fun _ ↦ True := by
  simp only [itemInvalidated, revise, Call.Silent, Step.ensures_bind, Step.ensures_get]
  cases hlive : s.held.stock.kindOf? index with
  | none => exact ⟨h, by simp⟩
  | some live =>
    simp only [Step.ensures_ite, Step.ensures_bind, Step.ensures_get, Step.ensures_pure, onStock,
      Step.ensures_onPart]
    by_cases hkind : live = source.kind s.host index
    · simp only [if_pos hkind]
      exact Step.ensures_of_forall (fun _ _ ↦ ⟨h, by simp [hkind]⟩) fun _ ↦ trivial
    · simp only [if_neg hkind, if_true]
      refine ((layout_selection source s).and (layout_moves source h)).mono (fun pass t ht ↦ ?_)
        fun _ _ ↦ trivial
      refine ⟨ht.2.sound, ?_⟩
      have hsync := order_syncLength_iff (source.len s.host).1 s.held.openPass
      rw [length_due_openPass] at hsync
      rw [ht.1.1, and_iff_right ⟨live, rfl, hkind⟩]
      exact hsync

/-- A call leaves a sound selection, and its reports lead to it from the selection before exactly
when it is not silent. -/
theorem perform_reports (edit : E → Step M (Reply S)) (source : ItemSource H V)
    (call : Call E H V S) (h : s.held.selection.Sound) :
    (call.perform edit source).Ensures s
      (fun answer t ↦ t.held.selection.Sound ∧
        (Change.playback s.held.selection.order answer.reports = some t.held.selection.order ↔
          ¬call.Silent source s))
      fun _ ↦ True := by
  have hspoken {α : Type} {step : Step (Hosted H (Collection M V S)) α}
      {reported : α → List (Change Nat)} (hstep : Reporting step reported s) :
      step.Ensures s (fun a t ↦ t.held.selection.Sound ∧
        (Change.playback s.held.selection.order (reported a) = some t.held.selection.order ↔
          ¬False)) fun _ ↦ True :=
    hstep.mono (fun _ _ ht ↦ ⟨ht.sound, iff_of_true ht.playback_eq not_false⟩) fun _ _ ↦ trivial
  have hscroll {α : Type} {step : Step (Collection M V S) α}
      (hstep : step.Ensures s.held (fun _ ↦ s.held.Aside) s.held.Aside) :=
    hspoken (onHeld_reporting (H := H) h hstep)
  have hquiet {t : Hosted H (Collection M V S)} (ht : t.held.selection = s.held.selection) :
      t.held.selection.Sound ∧
        (Change.playback s.held.selection.order [] = some t.held.selection.order ↔ ¬False) := by
    rw [ht]
    exact ⟨h, iff_of_true rfl not_false⟩
  cases call
  all_goals
    simp only [Call.perform, Call.Silent, flagged, scrolling, Step.ensures_bind, Step.ensures_pure,
      Answer.reports]
  case layout => exact hspoken (layout_moves source h)
  case refreshAll => exact hspoken (refreshAll_reporting source h)
  case lengthChanged => exact hspoken (lengthChanged_reporting source h)
  case itemInvalidated index =>
    refine (itemInvalidated_selection (E := E) source index h).mono (fun _ t ht ↦ ⟨ht.1, ?_⟩)
      fun _ _ ↦ trivial
    rw [Change.playback, Option.some.injEq, eq_comm]
    exact ht.2
  case select index => exact hspoken (select_reporting source index h)
  case unselect index =>
    exact hspoken (changeSelection_reporting (Selection.unselect_moves index h))
  case unselectAll => exact hspoken (changeSelection_reporting (Selection.unselectAll_moves _))
  case setSelectionMode mode =>
    exact hspoken (changeSelection_reporting (Selection.setMode_moves mode h))
  case isSelected index => exact hquiet rfl
  case setViewportSize size => exact hquiet (setViewportSize_aside size s.held).selection_eq
  case scrollTo offset => exact hscroll (requestScroll_ensures _ s.held)
  case scrollBy delta => exact hscroll (scrollBy_ensures delta s.held)
  case reveal index => exact hscroll (requestScroll_ensures _ s.held)
  case bring index align => exact hscroll (requestScroll_ensures _ s.held)
  case scrollToStart => exact hscroll (requestScroll_ensures _ s.held)
  case scrollToEnd => exact hscroll (requestScroll_ensures _ s.held)
  case isFullyVisible index =>
    simp only [Step.ensures_get, Step.ensures_ofExcept]
    split
    · exact hquiet rfl
    · trivial
  case setItemExtent index extent => exact hscroll (setItemExtent_ensures index extent s.held)
  case clearItemExtent index => exact hquiet (clearItemExtent_aside index s.held).selection_eq
  case model call => exact hscroll (onModel_ensures (edit call) s.held)
  case destroyAll => exact hquiet rfl
  case editView index change =>
    simp only [onStock, Step.ensures_onPart]
    exact Step.ensures_of_forall (fun _ _ ↦ hquiet rfl) fun _ ↦ trivial
  case host change => exact hquiet rfl

/-! ### Runs -/

omit [Scalar S] [ExtentModel M S] [ResizableModel M S] [CrossPlacement M S] [ViewHandle H V S] in
/-- A call that does not end in a fault, followed by other calls. -/
theorem runAll_cons_of_eq_ok
    {perform : Call E H V S → Step (Hosted H (Collection M V S)) (Answer S)}
    {call : Call E H V S} {answer : Answer S} {t : Hosted H (Collection M V S)}
    (hcall : perform call s = .ok answer t) (rest : List (Call E H V S)) :
    reports (Step.runAll perform (call :: rest) s).1 =
        answer.reports ++ reports (Step.runAll perform rest t).1 ∧
      (Step.runAll perform (call :: rest) s).2 = (Step.runAll perform rest t).2 := by
  have hafter : (perform call).after s = t := Step.after_of_eq_ok hcall
  have houtcome : (perform call).outcome s = .ok answer := by rw [Step.outcome, hcall]
  rw [Step.runAll, hafter, houtcome]
  exact ⟨rfl, rfl⟩

/-- What holds of every prefix of a list holds of the empty one, and of every longer one. -/
theorem forall_prefix_cons_iff {α : Type} {first : α} {rest : List α} {holds : List α → Prop} :
    (∀ front back, first :: rest = front ++ back → holds front) ↔
      holds [] ∧ ∀ front back, rest = front ++ back → holds (first :: front) := by
  constructor
  · intro h
    exact ⟨h [] _ rfl, fun front back heq ↦ h (first :: front) back (congrArg (first :: ·) heq)⟩
  · rintro ⟨hnil, hcons⟩ (_ | ⟨_, front⟩) back heq
    · exact hnil
    · obtain ⟨rfl, htail⟩ := List.cons.inj heq
      exact hcons front back htail

/-- What holds of every element of a list and those before it holds of the first element, and of
every later one. -/
theorem forall_split_cons_iff {α : Type} {first : α} {rest : List α} {holds : List α → α → Prop} :
    (∀ front a back, first :: rest = front ++ a :: back → holds front a) ↔
      holds [] first ∧ ∀ front a back, rest = front ++ a :: back → holds (first :: front) a := by
  constructor
  · intro h
    exact ⟨h [] first rest rfl,
      fun front a back heq ↦ h (first :: front) a back (congrArg (first :: ·) heq)⟩
  · rintro ⟨hnil, hcons⟩ (_ | ⟨_, front⟩) a back heq
    · obtain ⟨rfl, -⟩ := List.cons.inj heq
      exact hnil
    · obtain ⟨rfl, htail⟩ := List.cons.inj heq
      exact hcons front a back htail

/-- In a run without faults from a sound selection, the reports play back to the selection after
every call exactly when no call is silent. -/
theorem playback_runAll_iff (edit : E → Step M (Reply S)) (source : ItemSource H V)
    (calls : List (Call E H V S)) {s : Hosted H (Collection M V S)} (h : s.held.selection.Sound)
    (hok : ∀ answer ∈ (Step.runAll (Call.perform edit source) calls s).1, answer.isOk = true) :
    (∀ first rest, calls = first ++ rest →
      let run := Step.runAll (Call.perform edit source) first s
      Change.playback s.held.selection.order (reports run.1) = some run.2.held.selection.order) ↔
    ∀ first call rest, calls = first ++ call :: rest →
      ¬call.Silent source (Step.runAll (Call.perform edit source) first s).2 := by
  induction calls generalizing s with
  | nil =>
    refine iff_of_true (fun first rest heq ↦ ?_) fun first call rest heq ↦ ?_
    · obtain ⟨rfl, -⟩ := List.append_eq_nil_iff.mp heq.symm
      rfl
    · exact absurd heq (by simp)
  | cons call calls ih =>
    obtain ⟨answer, t, hcall⟩ : ∃ answer t, call.perform edit source s = .ok answer t :=
      Step.exists_eq_ok (hok _ List.mem_cons_self)
    have hrun := runAll_cons_of_eq_ok hcall
    obtain ⟨hsound, hplays⟩ := (perform_reports edit source call h).of_ok hcall
    have hrest : ∀ other ∈ (Step.runAll (Call.perform edit source) calls t).1,
        other.isOk = true := by
      intro other hother
      refine hok other ?_
      rw [Step.runAll, Step.after_of_eq_ok hcall]
      exact List.mem_cons_of_mem _ hother
    rw [forall_prefix_cons_iff, forall_split_cons_iff]
    refine (and_iff_right rfl).trans ?_
    simp only [(hrun _).1, (hrun _).2, Change.playback_append]
    by_cases hsilent : call.Silent source s
    · -- The list that is kept stays as it is, and the selection does not.
      refine iff_of_false (fun hall ↦ hplays.mp ?_ hsilent) fun hnone ↦ hnone.1 hsilent
      obtain ⟨order, horder, hend⟩ := Option.bind_eq_some_iff.mp (hall [] calls rfl)
      exact horder.trans hend
    · rw [hplays.mpr hsilent]
      exact (ih hsound hrest).trans (and_iff_right hsilent).symm

/-- In every run of calls without a fault, the host can keep the list of selected items by playing
the reports back, with no report out of place, exactly when no call of the run is silent. -/
theorem reports_play_back_iff (edit : E → Step M (Reply S)) (source : ItemSource H V) (host : H)
    (model : M) (axis : Axis) (mode : SelectionMode) (lookahead : Nat)
    (calls : List (Call E H V S))
    (hok : ∀ answer ∈ (Step.runAll (Call.perform edit source) calls
      ⟨host, initial model axis mode lookahead⟩).1, answer.isOk = true) :
    (∀ first rest, calls = first ++ rest →
      let run := Step.runAll (Call.perform edit source) first
        ⟨host, initial model axis mode lookahead⟩
      Change.playback [] (reports run.1) = some run.2.held.selection.order) ↔
    ∀ first call rest, calls = first ++ call :: rest →
      ¬call.Silent source (Step.runAll (Call.perform edit source) first
        ⟨host, initial model axis mode lookahead⟩).2 :=
  playback_runAll_iff edit source calls (Selection.sound_ofMode mode) hok

/-- Three items, any of which may be selected, and no viewport yet. -/
def threeItems : Hosted (Rehearsal Nat Nat) (Collection (Strip Rat) (BlankView Rat) Rat) :=
  ⟨.ofPoll 3, initial { Strip.empty with uniform := 10 } .vertical .multiple 0⟩

/-- The last item is selected, and then it is lost while the others come to need views of another
kind. -/
def loseSelected : List (Call (Strip.Call Rat) (Rehearsal Nat Nat) (BlankView Rat) Rat) :=
  [.setViewportSize ⟨100, 15⟩, .layout, .select 2, .host ({ · with poll := 2, kinds := #[⟨1⟩] })]

set_option maxRecDepth 20000 in
/-- The host that now invalidates another item is not told of the loss, and its list is wrong from
then on. -/
theorem reports_play_back_iff_loseSelected :
    let perform := Call.perform Strip.Call.perform Rehearsal.items
    (∀ answer ∈ (Step.runAll perform (loseSelected ++ [.itemInvalidated 1]) threeItems).1,
        answer.isOk = true) ∧
      ¬∀ first rest, loseSelected ++ [.itemInvalidated 1] = first ++ rest →
        let run := Step.runAll perform first threeItems
        Change.playback [] (reports run.1) = some run.2.held.selection.order := by
  -- `cbv` computes with hash sets by equations that stand in many places of the library.
  have hok : (Step.runAll (Call.perform Strip.Call.perform Rehearsal.items)
      (loseSelected ++ [.itemInvalidated 1]) threeItems).1.all Except.isOk = true := by cbv
  have hok' := List.all_eq_true.mp hok
  refine ⟨hok', fun hall ↦ ?_⟩
  have hnone := (reports_play_back_iff (S := Rat) Strip.Call.perform Rehearsal.items (.ofPoll 3)
    { Strip.empty with uniform := 10 } .vertical .multiple 0 _ hok').mp hall
  have hspeaks := hnone loseSelected (.itemInvalidated 1) [] rfl
  -- The state before the last call is named, so that only what the call looks at is computed.
  obtain ⟨s, hrun⟩ : ∃ s, (Step.runAll (Call.perform Strip.Call.perform Rehearsal.items)
      loseSelected threeItems).2 = s := ⟨_, rfl⟩
  have hs : (s.held.stock.kindOf? 1, Rehearsal.kindOf s.host 1, s.host.poll,
      ExtentModel.len s.held.model, s.held.selection.order) = (some ⟨0⟩, ⟨1⟩, 2, 3, [2]) := by
    rw [← hrun]
    cbv
  simp only [Prod.mk.injEq] at hs
  obtain ⟨hlive, hkind, hlen, hcount, horder⟩ := hs
  have hpolled : ((Rehearsal.items (S := Rat)).len s.host).1 = 2 := hlen
  have hother : (Rehearsal.items (S := Rat)).kind s.host 1 ≠ ⟨0⟩ := by
    change Rehearsal.kindOf s.host 1 ≠ ⟨0⟩
    rw [hkind]
    decide
  have hsilent :
      (Call.itemInvalidated 1 : Call (Strip.Call Rat) _ _ Rat).Silent Rehearsal.items s := by
    refine ⟨⟨⟨0⟩, hlive, hother.symm⟩, .inr ?_, 2, ?_, ?_⟩
    · rw [hpolled, hcount]
      decide
    · rw [horder]
      exact List.mem_singleton_self 2
    · exact Nat.le_of_eq hpolled
  exact hspeaks (hrun ▸ hsilent)

end Windowing.Collection
