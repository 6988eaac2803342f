import Windowing.Extent.Call
import Windowing.Proofs.Collection.Beside
import Windowing.Proofs.Collection.Recording
import Windowing.Proofs.Following

/-!
# Views and windows of a collection stay coherent

Between passes the live views of a collection may fall behind its data, but never so far that the
next pass could not repair it. No view is lost; and unless a pass was cut short, every live view
is in the window that is on record and shows its item. A pass that follows the difference of two
windows relies on this, and a pass that a fault cut short is followed by one that does not.

## Main definitions

* `Collection.Coherent` — what holds between any two calls.
* `Collection.refused` — the items for which the host refuses to build a view in a pass.

## Main results

* `Collection.layout_ensures` — what a pass leaves, completed or not.
* `Collection.views_of_completed_pass` — the views after a completed pass of any run.
* `Collection.coherent_runAll` — every run of calls keeps a collection coherent.
-/

namespace Windowing.Collection

variable {E H M V S : Type}

/-- Every live view is in the window on record, and it shows its item. -/
def Orderly (s : Hosted (Journal H Nat S) (Collection M (Tracked Nat V S) S)) : Prop :=
  ∀ {index slot}, s.held.stock.live.find? index = some slot →
    slot.view.content = .item index ∧ s.held.window.contains index = true

/-- What holds between any two calls. No view built since number `base` is lost, the viewport keeps
no wrong window, and the views are in order unless a pass was cut short. -/
structure Coherent [ExtentModel M S] (base : Nat)
    (s : Hosted (Journal H Nat S) (Collection M (Tracked Nat V S) S)) : Prop where
  conserved : ViewStock.Conserved base ⟨s.host, s.held.stock⟩
  settled : s.held.viewport.Settled
  orderly : s.held.passOpen = false → Orderly s

namespace Coherent

variable [ExtentModel M S] {base : Nat} {items : Collection M (Tracked Nat V S) S}
  {s : Hosted (Journal H Nat S) (Collection M (Tracked Nat V S) S)}

theorem aside (h : Coherent base s) (haside : s.held.Aside items) :
    Coherent base ⟨s.host, items⟩ where
  conserved := haside.stock_eq ▸ h.conserved
  settled := haside.settled h.settled
  orderly hclosed index slot hslot := by
    rw [haside.passOpen_eq] at hclosed
    rw [haside.stock_eq] at hslot
    have horder := h.orderly hclosed hslot
    exact ⟨horder.1, by rw [haside.window_eq]; exact horder.2⟩

/-- Views and windows do not depend on the selection. -/
theorem withSelection (h : Coherent base s) (selection : Selection Nat) :
    Coherent base ⟨s.host, { s.held with selection }⟩ :=
  ⟨h.conserved, h.settled, h.orderly⟩

/-- A change of the host that builds no view. -/
theorem withHost (h : Coherent base s) {journal : Journal H Nat S}
    (hcreated : journal.created = s.host.created) : Coherent base ⟨journal, s.held⟩ :=
  ⟨⟨h.conserved.sound, h.conserved.complete.congr hcreated⟩, h.settled, h.orderly⟩

/-- Work on live views beside a pass. -/
theorem upkeep (h : Coherent base s)
    {t : Hosted (Journal H Nat S) (ViewStock Nat (Tracked Nat V S) S)}
    (ht : ViewStock.Upkeep base ⟨s.host, s.held.stock⟩ t) :
    Coherent base ⟨t.host, { s.held with stock := t.held }⟩ where
  conserved := ht.conserved
  settled := h.settled
  orderly hclosed index slot hslot := by
    obtain ⟨old, hold, hcontent⟩ := ht.content_eq hslot
    have horder := h.orderly hclosed hold
    exact ⟨hcontent.elim (·.trans horder.1) id, horder.2⟩

end Coherent

/-! ### A pass -/

variable [Scalar S] [ExtentModel M S] [ResizableModel M S] [CrossPlacement M S] [ViewHandle H V S]
  {base : Nat} {s : Hosted (Journal H Nat S) (Collection M (Tracked Nat V S) S)}

/-- The items for which the host refuses to build a view in a pass. -/
def refused (source : ItemSource (Journal H Nat S) (Tracked Nat V S))
    (s : Hosted (Journal H Nat S) (Collection M (Tracked Nat V S) S)) : List Nat :=
  match prepare source s with
  | .error _ _ => []
  | .ok (window, _) t =>
    ViewStock.refusedIn source.views (t.held.layoutFor t.held.due)
      (IndexRange.leaving t.held.window.toIndexRange window.toIndexRange) window.toList
      window.contains ⟨t.host, t.held.stock⟩

omit [CrossPlacement M S] [ViewHandle H V S] in
/-- Before it works on views, a pass makes sure that views that are not in order are bound again.
The window that it finds lies within the items polled, if the model keeps count of them. -/
theorem prepare_ensures (source : ItemSource H V) (h : Coherent base s) :
    (prepare source.journaled).Ensures s
      (fun answer t ↦ Coherent base t ∧ t.held.passOpen = true ∧
        (t.held.due.rebind = false → Orderly t) ∧
        (LawfulCount M → answer.1.toIndexRange.Within (source.len s.host.host).1))
      (Coherent base) := by
  let opened := s.held.openPass
  let len := source.len s.host.host
  let journal : Journal H Nat S := { s.host with host := len.2 }
  have hpolled : Coherent base ⟨journal, s.held⟩ := h.withHost rfl
  have hopened : Coherent base ⟨journal, opened⟩ := ⟨hpolled.conserved, hpolled.settled, nofun⟩
  have hsync := syncLength_aside len.1 opened
  have hsynced := (hopened.withSelection (opened.syncLength len.1).1.selection).aside hsync
  -- A pass that was cut short has the next one rebind, so the views are in order if it does not.
  have horderly (hrebind : opened.due.rebind = false) : Orderly s := by
    cases hclosed : s.held.passOpen with
    | false => exact h.orderly hclosed
    | true => simp [opened, openPass, Due.refresh, hclosed] at hrebind
  rw [ensures_prepare]
  refine (approach_ensures len.1 opened).mono (fun answer t ht ↦ ?_)
    fun t ht ↦ hsynced.aside ht
  obtain ⟨haside, hwithin, -⟩ := ht
  refine ⟨hsynced.aside haside, haside.passOpen_eq.trans hsync.passOpen_eq,
    fun hrebind index slot hslot ↦ ?_, hwithin h.settled⟩
  have hold := Bool.eq_false_iff.mpr fun hdue : opened.due.rebind = true ↦
    Bool.eq_false_iff.mp hrebind (haside.rebind (hsync.rebind hdue))
  rw [haside.stock_eq, hsync.stock_eq] at hslot
  rw [haside.window_eq, hsync.window_eq]
  exact horderly hold hslot

/-- What a completed pass leaves: the window that it answers is on record and lies within the items
polled, and exactly the items of the window have a view, but those refused. -/
structure Passed (source : ItemSource (Journal H Nat S) (Tracked Nat V S)) (len : Nat)
    (refused : List Nat) (window : IndexRange)
    (t : Hosted (Journal H Nat S) (Collection M (Tracked Nat V S) S)) : Prop where
  window_eq : t.held.window.toIndexRange = window
  within : LawfulCount M → window.Within len
  exact : ViewStock.Exact source.views window.toList refused ⟨t.host, t.held.stock⟩

omit [Scalar S] [ExtentModel M S] [ResizableModel M S] [CrossPlacement M S] [ViewHandle H V S] in
/-- Views that are in order are tidy for every window that comes next. -/
theorem tidy_of_orderly (h : Orderly s) (window : VisibleWindow S) :
    ViewStock.Tidy (IndexRange.leaving s.held.window.toIndexRange window.toIndexRange)
      window.toList ⟨s.host, s.held.stock⟩ where
  content_eq hslot := (h hslot).1
  mem {index slot} hslot := by
    rw [IndexRange.mem_leaving, ← IndexRange.contains_iff_mem_toList]
    cases window.contains index with
    | true => exact .inl rfl
    | false => exact .inr ⟨(h hslot).2, rfl⟩

omit [ResizableModel M S] in
/-- The part of a pass that works on views loses none, and if it is completed it leaves exactly the
views of the window. -/
theorem realize_ensures (source : ItemSource H V) (window : VisibleWindow S) (h : Coherent base s)
    (hopen : s.held.passOpen = true) (horderly : s.held.due.rebind = false → Orderly s) :
    (realize source.journaled window).Ensures s
      (fun _ t ↦ Coherent base t ∧ t.held.window = window ∧
        ViewStock.Exact source.journaled.views window.toList
          (ViewStock.refusedIn source.journaled.views (s.held.layoutFor s.held.due)
            (IndexRange.leaving s.held.window.toIndexRange window.toIndexRange) window.toList
            window.contains ⟨s.host, s.held.stock⟩)
          ⟨t.host, t.held.stock⟩)
      (Coherent base) := by
  have hsource := source.journals_views (S := S)
  let leaving := IndexRange.leaving s.held.window.toIndexRange window.toIndexRange
  let step := ViewStock.follow (source.journaled (S := S)).views (s.held.layoutFor s.held.due)
    leaving window.toList window.contains
  have hconserved : step.Ensures ⟨s.host, s.held.stock⟩ _ _ :=
    ViewStock.follow_conserved hsource leaving window.toList window.contains h.conserved
  have hexact : step.Ensures ⟨s.host, s.held.stock⟩ _ _ :=
    ViewStock.follow_exact hsource (List.nodup_range' ..)
      (fun _ ↦ IndexRange.contains_iff_mem_toList)
      (fun _ ↦ IndexRange.not_mem_toList_of_mem_leaving) h.conserved
      fun hrebind ↦ tidy_of_orderly (horderly hrebind) window
  rw [ensures_realize]
  refine (hconserved.and hexact).mono (fun _ t ht ↦ ?_) fun t ht ↦ ?_
  · obtain ⟨hconserved, hexact⟩ := ht
    refine ⟨⟨hconserved, h.settled, fun _ index slot hslot ↦ ?_⟩, rfl, hexact⟩
    have hlive := (hexact.live_iff index).mp (Option.isSome_of_eq_some hslot)
    exact ⟨hexact.content_eq hslot, IndexRange.contains_iff_mem_toList.mpr hlive.1⟩
  · exact ⟨ht.1, h.settled, fun hclosed ↦ absurd (hopen.symm.trans hclosed) (by decide)⟩

/-- What a pass leaves. However it ends, no view is lost; and if it is completed, its views are
exactly those of its window. -/
theorem layout_ensures (source : ItemSource H V) (h : Coherent base s) :
    (layout source.journaled).Ensures s
      (fun pass t ↦ Coherent base t ∧ Passed source.journaled (source.len s.host.host).1
        (refused source.journaled s) pass.window t)
      (Coherent base) := by
  rw [ensures_layout]
  refine (prepare_ensures source h).and_eq_ok.mono (fun answer t ht ↦ ?_) fun _ ht ↦ ht
  obtain ⟨⟨hcoherent, hopen, horderly, hwithin⟩, heq⟩ := ht
  refine (realize_ensures source answer.1 hcoherent hopen horderly).mono (fun _ u hu ↦ ?_)
    fun _ hu ↦ hu
  obtain ⟨hcoherent, hwindow, hexact⟩ := hu
  refine ⟨hcoherent, congrArg VisibleWindow.toIndexRange hwindow, hwithin, ?_⟩
  simpa only [refused, heq] using hexact

/-! ### Calls -/

omit [Scalar S] [ResizableModel M S] [CrossPlacement M S] in
/-- Calls keep a collection coherent beside their passes. -/
theorem upheld_coherent (base : Nat) :
    Upheld (Coherent base : Hosted (Journal H Nat S) (Collection M (Tracked Nat V S) S) → Prop)
    where
  aside h haside := h.aside haside
  withSelection selection h := h.withSelection selection
  withHost _ h := h.withHost rfl
  style {s index slot} selected h hlive := by
    have hsame := Slot.style_sameView selected ⟨s.host, slot⟩
    exact h.upkeep (ViewStock.upkeep_put h.conserved hlive hsame (.inl rfl))
  editView {s index slot} change h hlive := by
    have hsame := Slot.edit_sameView change ⟨s.host, slot⟩
    exact h.upkeep (ViewStock.upkeep_put h.conserved hlive hsame (.inl rfl))

omit [Scalar S] [ResizableModel M S] [CrossPlacement M S] in
theorem revise_coherent (source : ItemSource H V) (index : Nat) (h : Coherent base s) :
    (revise source.journaled index).Ensures s (fun _ ↦ Coherent base) (Coherent base) := by
  simp only [revise, Step.ensures_bind, Step.ensures_get]
  cases s.held.stock.kindOf? index with
  | none => exact h
  | some live =>
    simp only [Step.ensures_ite, Step.ensures_bind, Step.ensures_get, Step.ensures_pure, onStock,
      Step.ensures_onPart]
    split
    · exact (ViewStock.refill_upkeep source.journals_views index _ h.conserved).mono
        (fun _ _ ht ↦ h.upkeep ht) fun _ ht ↦ h.upkeep ht
    · exact h

/-- The part of a call before its pass keeps a collection coherent, unless it drops all views. -/
theorem lead_coherent (edit : E → Step M (Reply S)) (source : ItemSource H V) (call : Call E H V S)
    (hcall : call.isDestroyAll = false) (h : Coherent base s) :
    (call.journaled.lead edit source.journaled).Ensures s (fun _ ↦ Coherent base)
      (Coherent base) :=
  lead_upheld (upheld_coherent base) edit source call hcall h fun index _ ↦
    revise_coherent source index h

omit [ResizableModel M S] [CrossPlacement M S] [ViewHandle H V S] in
/-- Dropping every view leaves nothing to be lost. -/
theorem destroyAll_coherent (h : Coherent base s) :
    Coherent s.host.created ⟨s.host, s.held.destroyAll.2⟩ where
  conserved := .empty s.host
  settled := h.settled
  orderly _ _ _ hslot := nomatch hslot

/-- Every call keeps a collection coherent, however it ends. -/
theorem record_coherent (edit : E → Step M (Reply S)) (source : ItemSource H V)
    (call : Call E H V S) (h : Coherent base s) :
    let t := (call.record edit source).after s
    Coherent (if call.isDestroyAll then t.host.created else base) t := by
  cases hcall : call.isDestroyAll with
  | true =>
    cases call with
    | destroyAll =>
      have hafter : (Call.destroyAll.record edit source).after s =
        ⟨s.host, s.held.destroyAll.2⟩ := rfl
      simpa only [if_true, hafter] using destroyAll_coherent h
    | _ => cases hcall
  | false =>
    simp only [Bool.false_eq_true, if_false]
    exact Call.holds_after_perform (lead_coherent edit source call hcall h) fun _ ht ↦
      (layout_ensures source ht).mono (fun _ _ hu ↦ hu.1) fun _ ↦ id

omit [ResizableModel M S] [CrossPlacement M S] [ViewHandle H V S] in
theorem recorded_coherent (host : H) (model : M) (axis : Axis) (mode : SelectionMode)
    (lookahead : Nat) :
    Coherent 0 (recorded (V := V) host model axis mode lookahead) where
  conserved := .empty (Journal.ofHost host)
  settled :=
    (Viewport.setLookahead_steady lookahead _).settled (Viewport.settled_of_kept_eq_none rfl)
  orderly _ _ _ hslot := nomatch hslot

/-- After any run of calls a collection is coherent, and no view built since the last call that
dropped all views is lost. -/
theorem coherent_runAll (edit : E → Step M (Reply S)) (source : ItemSource H V)
    (calls : List (Call E H V S)) (h : Coherent base s) :
    Coherent
      (Step.lastMark (Call.record edit source) Call.isDestroyAll (·.host.created) calls s base)
      (Step.runAll (Call.record edit source) calls s).2 :=
  Step.holds_lastMark Coherent (fun call _ _ hs ↦ record_coherent edit source call hs)
    calls base s h

/-- A pass that a call of a run begins, it begins with a coherent collection. -/
theorem coherent_of_lead {edit : E → Step M (Reply S)} {source : ItemSource H V}
    {calls : List (Call E H V S)} {call : Call E H V S} (h : Coherent base s)
    {t : Hosted (Journal H Nat S) (Collection M (Tracked Nat V S) S)}
    (hlead : call.journaled.lead edit source.journaled
      (Step.runAll (Call.record edit source) calls s).2 = .ok true t) :
    Coherent
      (Step.lastMark (Call.record edit source) Call.isDestroyAll (·.host.created) calls s base)
      t := by
  have hcall := (Call.isDestroyAll_journaled call).symm.trans (Call.isDestroyAll_of_lead hlead)
  exact (lead_coherent edit source call hcall (coherent_runAll edit source calls h)).of_ok hlead

/-! ### The views that a collection answers -/

omit [ExtentModel M S] [ResizableModel M S] [CrossPlacement M S] [Scalar S] in
/-- The views are answered in the order of their items, no item twice. -/
theorem pairwise_views (items : Collection M V S) : items.views.Pairwise (·.1 < ·.1) := by
  refine (List.pairwise_lt_range' ..).filterMap _ fun i j hij first hfirst second hsecond ↦ ?_
  obtain ⟨_, _, rfl⟩ := Option.map_eq_some_iff.mp hfirst
  obtain ⟨_, _, rfl⟩ := Option.map_eq_some_iff.mp hsecond
  exact hij

omit [ExtentModel M S] [ResizableModel M S] [CrossPlacement M S] [Scalar S] in
theorem mem_views_iff {items : Collection M V S} {index : Nat} {view : V} :
    (index, view) ∈ items.views ↔ items.window.contains index = true ∧
      ∃ slot, items.stock.live.find? index = some slot ∧ slot.view = view := by
  simp only [views, List.mem_filterMap, Option.map_eq_some_iff, ViewStock.view?, Prod.mk.injEq,
    IndexRange.mem_toList, IndexRange.contains_iff]
  constructor
  · rintro ⟨other, hother, _, ⟨slot, hslot, rfl⟩, rfl, rfl⟩
    exact ⟨hother, slot, hslot, rfl⟩
  · rintro ⟨hindex, slot, hslot, rfl⟩
    exact ⟨index, hindex, slot.view, ⟨slot, hslot, rfl⟩, rfl, rfl⟩

/-! ### The views after a pass -/

/-- After every pass that a run of calls completes, the window lies within the items that the pass
polled, and it is empty only if there are none. Live are exactly the items of the window but those
for which the host refused to build a view in this pass. Each live view is of the kind of its item,
and filling it was last completed for this item. The views that the collection answers are the live
ones, each once, in the order of their items. The run is recorded to say so, and ends where the run
without the record does. -/
theorem views_of_completed_pass [LawfulCount M] (edit : E → Step M (Reply S))
    (source : ItemSource H V) (hkinds : source.views.KindsFixed) (host : H) (model : M)
    (axis : Axis) (mode : SelectionMode) (lookahead : Nat) (calls : List (Call E H V S))
    (call : Call E H V S) {pass : Pass IndexRange Nat}
    {s t : Hosted (Journal H Nat S) (Collection M (Tracked Nat V S) S)}
    (hlead : call.journaled.lead edit source.journaled
      (Step.runAll (Call.record edit source) calls (recorded host model axis mode lookahead)).2 =
      .ok true s)
    (hpass : layout source.journaled s = .ok pass t) :
    (call.record edit source).after
        (Step.runAll (Call.record edit source) calls (recorded host model axis mode lookahead)).2 =
          t ∧
      (call.perform edit source).after
        (Step.runAll (Call.perform edit source) calls ⟨host, initial model axis mode lookahead⟩).2 =
          plain t ∧
      t.held.window.toIndexRange = pass.window ∧
      (pass.window.stop ≤ (source.len s.host.host).1 ∧
        (pass.window.isEmpty = true ↔ (source.len s.host.host).1 = 0)) ∧
      (∀ index, (t.held.stock.live.find? index).isSome = true ↔
        pass.window.contains index = true ∧ index ∉ refused source.journaled s) ∧
      (∀ index slot, t.held.stock.live.find? index = some slot →
        slot.view.kind = source.kind t.host.host index ∧ slot.view.content = .item index) ∧
      t.held.views.Pairwise (·.1 < ·.1) ∧
      (∀ index view, (index, view) ∈ t.held.views ↔
        ∃ slot, t.held.stock.live.find? index = some slot ∧ slot.view = view) := by
  have hcall := (Call.isDestroyAll_journaled call).symm.trans (Call.isDestroyAll_of_lead hlead)
  have hbefore := coherent_runAll edit source calls
    (recorded_coherent (V := V) host model axis mode lookahead)
  have hs := (lead_coherent edit source call hcall hbefore).of_ok hlead
  obtain ⟨ht, hpassed⟩ := (layout_ensures source hs).of_ok hpass
  have hwindow (index : Nat) : pass.window.contains index = true ↔ index ∈ pass.window.toList := by
    rw [IndexRange.contains_iff, IndexRange.mem_toList]
  have hwithin := hpassed.within ‹_›
  have hafter := Call.after_perform_of_lead hlead hpass
  refine ⟨hafter, ?plain, hpassed.window_eq, ⟨hwithin.stop_le, hwithin.isEmpty_iff⟩,
    fun index ↦ ?live, fun index slot hslot ↦ ⟨?kind, hpassed.exact.content_eq hslot⟩,
    pairwise_views t.held, fun index view ↦ ?views⟩
  case plain =>
    rw [runAll_recorded, ← hafter]
    exact (Call.record_mirrors edit source call).after _
  case live => rw [hwindow, hpassed.exact.live_iff]
  case kind =>
    have hkind := ht.conserved.complete.kind_eq slot (ViewStock.mem_slots_of_live hslot)
    exact hkind.trans (hpassed.exact.kind_eq (ItemSource.kindsFixed_journaled hkinds) hslot)
  case views =>
    rw [mem_views_iff, hpassed.window_eq, and_iff_right_iff_imp]
    rintro ⟨slot, hslot, -⟩
    exact (hwindow index).mpr ((hpassed.exact.live_iff index).mp (Option.isSome_of_eq_some hslot)).1

/-- An item whose view could not be filled at first is filled by the next pass, which builds no view
for the other one. -/
theorem views_of_completed_pass_rehearsal :
    let source : ItemSource (Rehearsal Nat Nat) (BlankView Rat) := Rehearsal.items
    let host : Rehearsal Nat Nat :=
      { (Rehearsal.ofPoll 3 : Rehearsal Nat Nat) with createLimit := some 1, bindFails := some 0 }
    let calls : List (Call (Strip.Call Rat) (Rehearsal Nat Nat) (BlankView Rat) Rat) :=
      [.setViewportSize ⟨100, 15⟩, .layout, .host ({ · with bindFails := none })]
    let s := (Step.runAll (Call.record Strip.Call.perform source) calls
      (recorded host { Strip.empty with uniform := 10 } .vertical .none 0)).2
    ∃ pass t, layout source.journaled s = .ok pass t ∧ refused source.journaled s = [1] ∧
      ∀ index, (t.held.stock.live.find? index).isSome = true ↔
        pass.window.contains index = true ∧ index ∉ [1] := by
  intro source host calls s
  have hrefused : refused source.journaled s = [1] := by decide +kernel
  obtain ⟨pass, t, hpass⟩ : ∃ pass t, layout source.journaled s = .ok pass t :=
    Step.exists_eq_ok (by decide +kernel)
  have hviews := views_of_completed_pass Strip.Call.perform source Rehearsal.kindsFixed_items host
    { Strip.empty with uniform := 10 } .vertical .none 0 calls .layout rfl hpass
  exact ⟨pass, t, hpass, hrefused, hrefused ▸ hviews.2.2.2.2.1⟩

end Windowing.Collection
