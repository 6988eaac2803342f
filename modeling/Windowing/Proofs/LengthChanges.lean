import Mathlib
import Windowing.Proofs.Collection.Coherence
import Windowing.Proofs.Collection.Lengths
import Windowing.Proofs.Collection.Recording
import Windowing.Proofs.Collection.Selections
import Windowing.Proofs.Rebinding
import Windowing.Rehearsal

/-!
# Passes that poll another length

When a pass polls another length than the last completed pass did, an index may stand for another
item than before. The pass then drops what is selected past the end and the extents of items or
tracks that are gone, and it fills all views again. It does so also where the length was taken over
before, by a pass that was cut short or by a call that selected an item.

A collection does not keep the length that it polled last, though, and compares with the length of
its model instead. Where the host itself has given the model the length that is polled next, the
pass finds nothing to take over.

## Main definitions

* `Collection.Renewed` — what a pass leaves that takes over a length.

## Main results

* `changed_length_renews` — a completed pass that polls another length renews a list or a grid,
  unless the host has set the length of the model since the last completed pass.
-/

namespace Windowing

variable {E H M V S : Type} [Scalar S] [ViewHandle H V S]

namespace Collection

/-! ### One pass -/

section Pass

variable [ExtentModel M S] [ResizableModel M S] [CrossPlacement M S] {base : Nat}
  {s t : Hosted (Journal H Nat S) (Collection M (Tracked Nat V S) S)}

/-- A completed pass that is to bind all views again does so. -/
theorem layout_rebinds (source : ItemSource H V) (h : Coherent base s)
    (hrebind : (prepare source.journaled).Ensures s (fun _ t ↦ t.held.due.rebind = true)
      fun _ ↦ True) :
    (layout source.journaled).Ensures s
      (fun _ t ↦ ∀ index slot, t.held.stock.live.find? index = some slot →
        Journal.Binds index slot.view.number s.host.entries t.host.entries)
      fun _ ↦ True := by
  rw [ensures_layout]
  refine (((prepare_ensures source h).and hrebind).and (prepare_aside source.journaled s)).mono
    (fun answer t ht ↦ ?_) fun _ _ ↦ trivial
  obtain ⟨⟨⟨hcoherent, -⟩, hrebind⟩, hhost, -⟩ := ht
  have hentries : t.host.entries = s.host.entries := by
    rw [hhost]
    rfl
  rw [ensures_realize]
  exact hentries ▸ ViewStock.follow_rebinds source.journals_views hrebind (List.nodup_range' ..)
    (fun _ ↦ IndexRange.contains_iff_mem_toList)
    (fun _ ↦ IndexRange.not_mem_toList_of_mem_leaving) hcoherent.conserved

/-- What a pass leaves that takes over a length, or follows one that did: no item past the end is
selected, and every live view was filled in the pass for the item that it shows. -/
structure Renewed (len : Nat)
    (before after : Hosted (Journal H Nat S) (Collection M (Tracked Nat V S) S)) : Prop where
  len_eq : ExtentModel.len after.held.model = len
  unselected : ∀ index, len ≤ index →
    index ∉ after.held.selection.order ∧ after.held.selection.isSelected index = false
  rebound : ∀ index slot, after.held.stock.live.find? index = some slot →
    Journal.Binds index slot.view.number before.host.entries after.host.entries

variable [LawfulCount M] {sound trim : M → Prop} {last : Nat}

theorem layout_renewed (htrims : ExtentModel.Trims sound trim) (source : ItemSource H V)
    (h : Coherent base s) (hsound : sound s.held.model) (hselection : s.held.selection.Sound)
    (hnotices : Notices sound trim last (source.len s.host.host).1 s.held) :
    (layout source.journaled).Ensures s
      (fun _ t ↦ Renewed (source.len s.host.host).1 s t ∧ trim t.held.model) fun _ ↦ True := by
  have hprepare := prepare_takenOver htrims source.journaled hsound hnotices
  have hrebinds := layout_rebinds source h (hprepare.mono (fun _ _ ht ↦ ht.2.2) fun _ _ ↦ trivial)
  have htakes := layout_takenOver htrims source.journaled hsound hnotices
  have hselects := layout_selectionHas Selection.upheld_sound source.journaled hselection
  refine ((hrebinds.and htakes).and hselects).mono (fun _ t ht ↦ ?_) fun _ _ ↦ trivial
  obtain ⟨⟨hrebound, htrim, hlen, hcut⟩, hselection⟩ := ht
  refine ⟨⟨hlen, fun index hindex ↦ ?_, hrebound⟩, htrim⟩
  have hnot : index ∉ t.held.selection.order := fun h ↦ Nat.not_lt.mpr hindex (hcut index h)
  exact ⟨hnot, Bool.eq_false_iff.mpr fun h ↦ hnot ((hselection.isSelected_iff index).mp h)⟩

end Pass

/-! ### After a run -/

section Run

variable [ExtentModel M S] [ResizableModel M S] [CrossPlacement M S] [LawfulCount M]
  {sound trim : M → Prop} {last : Nat} {edit : E → Step M (Reply S)}
  {s t : Hosted (Journal H Nat S) (Collection M (Tracked Nat V S) S)}

omit [Scalar S] [ViewHandle H V S] [ResizableModel M S] [CrossPlacement M S] [LawfulCount M] in
/-- What was polled does not depend on a record. -/
theorem sincePoll_of_plain (h : SincePoll sound trim last (plain s).held) :
    SincePoll sound trim last s.held :=
  ⟨h.sound, h.followed.imp id fun htaken ↦ ⟨htaken.trim, htaken.lt_len, htaken.stale⟩⟩

/-- After any run, a pass that polls another length than the last completed one renews the
collection if it is completed, unless the host has set the length of the model since. -/
theorem renewed_of_lead (htrims : ExtentModel.Trims sound trim)
    (hkeeps : ∀ e model, sound model → (edit e).Ensures model (fun _ ↦ sound) sound)
    (source : ItemSource H V) (host : H) {model : M} (hmodel : sound model) (axis : Axis)
    (mode : SelectionMode) (lookahead : Nat) (calls : List (Call E H V S)) {call : Call E H V S}
    {since : List (Call E H V S)}
    (hpoll : lastPoll edit source calls ⟨host, initial model axis mode lookahead⟩ =
      some (last, since))
    (hlead : call.journaled.lead edit source.journaled
      (Step.runAll (Call.record edit source) calls (recorded host model axis mode lookahead)).2 =
        .ok true s)
    (hlast : (source.len s.host.host).1 ≠ last)
    (hset : s.held.due.length = true ∨ (source.len s.host.host).1 ≠ ExtentModel.len s.held.model ∨
      ∀ e, .model e ∈ since → ∀ model, sound model → (edit e).Ensures model
        (fun _ ↦ ExtentModel.SameCount sound trim model) (ExtentModel.SameCount sound trim model)) :
    (layout source.journaled).Ensures s
      (fun _ t ↦ Renewed (source.len s.host.host).1 s t ∧ trim t.held.model) fun _ ↦ True := by
  let before := (Step.runAll (Call.record edit source) calls
    (recorded host model axis mode lookahead)).2
  let ended := (Step.runAll (Call.perform edit source) calls
    ⟨host, initial model axis mode lookahead⟩).2
  have hplain : ended = plain before :=
    runAll_recorded edit source host model axis mode lookahead calls
  have hstart : sound (initial model axis mode lookahead : Collection M V S).model := by
    rw [model_initial]
    exact hmodel
  have hmodel : ModelHas sound ended :=
    modelHas_runAll htrims.toUpheld source (fun e _ ↦ hkeeps e) hstart
  have hselection : SelectionHas Selection.Sound ended :=
    selection_sound edit source host model axis mode lookahead calls
  rw [hplain] at hmodel hselection
  have hs := (lead_viewport htrims.toUpheld.viewport.tended source.journaled call.journaled
    (fun e _ _ hmodel ↦ hkeeps e _ hmodel) (s := before) hmodel).of_ok hlead
  have hselected := (lead_selectionHas Selection.upheld_sound edit source.journaled call.journaled
    (s := before) hselection).of_ok hlead
  have hcoherent := coherent_of_lead (recorded_coherent host model axis mode lookahead) hlead
  refine layout_renewed htrims source hcoherent hs hselected
    (hset.imp id (Or.imp id fun hedit ↦ ⟨hlast, ?_⟩))
  have hsince : SincePoll sound trim last ended.held :=
    sincePoll_runAll htrims hkeeps hedit hstart hpoll
  rw [hplain] at hsince
  exact (lead_sincePoll htrims source.journaled call.journaled
    (fun e he ↦ absurd he (Call.ne_model_of_lead hlead e)) (sincePoll_of_plain hsince)).of_ok hlead

end Run

/-! ### Lists and grids -/

/-- After every run of calls on a list or a grid, also where calls are cut short, take a pass that
is completed and polls another length than the last completed one did, which was `last`; the calls
made since then are `since`. The pass renews the collection: no item past the end is selected, no
item of a list and no track of a grid past the end has an extent of its own, and every live view was
filled in the pass for the item that it shows. So it is where a change of the length is announced,
where the model has another length than the one polled, and where the host has not set the length of
the model since the last completed pass. The runs are recorded to say so, and end where the runs
without the record do. -/
theorem changed_length_renews (host : H) (axis : Axis) (mode : SelectionMode) (lookahead : Nat) :
    (∀ (source : ItemSource H V) (strip : Strip S) (calls : List (Call (Strip.Call S) H V S))
      (call : Call (Strip.Call S) H V S) {last : Nat} {since : List (Call (Strip.Call S) H V S)}
      {pass : Pass IndexRange Nat}
      {s t : Hosted (Journal H Nat S) (Collection (Strip S) (Tracked Nat V S) S)}, strip.Built →
      let start : Hosted H (Collection (Strip S) V S) :=
        ⟨host, initial strip axis mode lookahead⟩
      let before := (Step.runAll (Call.record Strip.Call.perform source) calls
        (recorded host strip axis mode lookahead)).2
      lastPoll Strip.Call.perform source calls start = some (last, since) →
      call.journaled.lead Strip.Call.perform source.journaled before = .ok true s →
      layout source.journaled s = .ok pass t →
      let len := (source.len s.host.host).1
      len ≠ last →
      (s.held.due.length = true ∨ len ≠ s.held.model.len ∨
        ∀ count, .model (.edit (.setLen count)) ∉ since) →
      (call.perform Strip.Call.perform source).after
          (Step.runAll (Call.perform Strip.Call.perform source) calls start).2 = plain t ∧
        Renewed len s t ∧ ∀ index, len ≤ index → t.held.model.overrideOf index = none) ∧
    ∀ (source : ItemSource H V) (grid : Grid (Strip S) S) (calls : List (Call (Grid.Call S) H V S))
      (call : Call (Grid.Call S) H V S) {last : Nat} {since : List (Call (Grid.Call S) H V S)}
      {pass : Pass IndexRange Nat}
      {s t : Hosted (Journal H Nat S) (Collection (Grid (Strip S) S) (Tracked Nat V S) S)},
      grid.tracks.Built →
      let start : Hosted H (Collection (Grid (Strip S) S) V S) :=
        ⟨host, initial grid axis mode lookahead⟩
      let before := (Step.runAll (Call.record Grid.Call.perform source) calls
        (recorded host grid axis mode lookahead)).2
      lastPoll Grid.Call.perform source calls start = some (last, since) →
      call.journaled.lead Grid.Call.perform source.journaled before = .ok true s →
      layout source.journaled s = .ok pass t →
      let len := (source.len s.host.host).1
      len ≠ last →
      (s.held.due.length = true ∨ len ≠ s.held.model.len ∨
        ∀ count, .model (.edit (.setLen count)) ∉ since ∧
          .model (.tracks (.edit (.setLen count))) ∉ since) →
      (call.perform Grid.Call.perform source).after
          (Step.runAll (Call.perform Grid.Call.perform source) calls start).2 = plain t ∧
        Renewed len s t ∧
        ∀ track, t.held.model.trackCount ≤ track → t.held.model.tracks.overrideOf track = none := by
  refine ⟨fun source strip calls call {last since pass s t} hbuilt ↦ ?strip,
    fun source grid calls call {last since pass s t} hbuilt ↦ ?grid⟩
  case strip =>
    intro start before hpoll hlead hpass len hlast hset
    have hplain := after_recorded Strip.Call.perform source host strip axis mode lookahead calls
      call
    have hafter := Call.after_perform_of_lead hlead hpass
    have hpass := (renewed_of_lead Strip.trims_sound
      (fun e _ h ↦ Step.ensures_iff_after.mpr (h.perform e)) source host hbuilt.sound axis mode
      lookahead calls hpoll hlead hlast ?_).of_ok hpass
    · obtain ⟨hrenewed, hsound⟩ := hpass
      exact ⟨hplain.trans (congrArg plain hafter), hrenewed, fun index hindex ↦
        Strip.overrideOf_eq_none hsound (hrenewed.len_eq.trans_le hindex)⟩
    · refine hset.imp id (Or.imp id fun hcalls e he model h ↦ ?_)
      exact Step.ensures_iff_after.mpr (Strip.sameCount_after
        (fun count heq ↦ hcalls count (heq ▸ he)) (.refl h))
  case grid =>
    intro start before hpoll hlead hpass len hlast hset
    have hplain := after_recorded Grid.Call.perform source host grid axis mode lookahead calls call
    have hafter := Call.after_perform_of_lead hlead hpass
    have hpass := (renewed_of_lead Grid.trims_fitting
      (fun e _ h ↦ Grid.perform_tracks (fun call _ h ↦ h.perform call) e h) source host hbuilt.sound
      axis mode lookahead calls hpoll hlead hlast ?_).of_ok hpass
    · obtain ⟨hrenewed, hfitting⟩ := hpass
      exact ⟨hplain.trans (congrArg plain hafter), hrenewed, fun track htrack ↦
        Strip.overrideOf_eq_none hfitting.tracks (hfitting.len_eq.trans_le htrack)⟩
    · refine hset.imp id (Or.imp id fun hcalls e he model h ↦ ?_)
      exact Step.ensures_iff_after.mpr (Grid.sameCount_after
        (fun count heq ↦ (hcalls count).1 (heq ▸ he)) (fun count heq ↦ (hcalls count).2 (heq ▸ he))
        (.refl h))

set_option maxRecDepth 20000 in
/-- Of five items, the last one is selected and made longer, and then only three are left. The pass
that notices is cut short, and the next one finds a model of three items; it leaves no trace of the
last item, and fills the view of the first one. So does the pass of a grid that loses tracks. -/
theorem changed_length_renews_rehearsal :
    (let source : ItemSource (Rehearsal Nat Nat) (BlankView Rat) := Rehearsal.items
      let calls : List (Call (Strip.Call Rat) (Rehearsal Nat Nat) (BlankView Rat) Rat) :=
        [.setViewportSize ⟨100, 30⟩, .layout, .select 4, .model (.edit (.setItemExtent 4 20)),
          .host ({ · with poll := 3, bindFails := some 0 }), .layout,
          .host ({ · with bindFails := none })]
      let strip : Strip Rat := { Strip.empty with uniform := 10 }
      let s := (Step.runAll (Call.record Strip.Call.perform source) calls
        (recorded (Rehearsal.ofPoll 5) strip .vertical .multiple 0)).2
      s.held.model.len = 3 ∧ ∃ pass t slot, layout source.journaled s = .ok pass t ∧
        4 ∉ t.held.selection.order ∧ t.held.model.overrideOf 4 = none ∧
        t.held.stock.live.find? 0 = some slot ∧
        Journal.Binds 0 slot.view.number s.host.entries t.host.entries) ∧
    (let source : ItemSource (Rehearsal Nat Nat) (BlankView Rat) := Rehearsal.items
      let calls : List (Call (Grid.Call Rat) (Rehearsal Nat Nat) (BlankView Rat) Rat) :=
        [.setViewportSize ⟨25, 15⟩, .layout, .setItemExtent 5 40, .host ({ · with poll := 4 })]
      let strip : Strip Rat := { Strip.empty with uniform := 10 }
      let s := (Step.runAll (Call.record Grid.Call.perform source) calls
        (recorded (Rehearsal.ofPoll 6) (Grid.ofTracks strip 10 0) .vertical .none 0)).2
      (s.held.model.tracks.overrideOf 2).isSome = true ∧
        ∃ pass t slot, layout source.journaled s = .ok pass t ∧
          t.held.model.tracks.overrideOf 2 = none ∧ t.held.stock.live.find? 0 = some slot ∧
          Journal.Binds 0 slot.view.number s.host.entries t.host.entries) := by
  refine ⟨?strip, ?grid⟩
  case strip =>
    intro source calls strip s
    -- `cbv` computes with hash sets by equations that stand in many places of the library.
    obtain ⟨pass, t, hpass, htest⟩ := Step.exists_eq_ok_and (layout source.journaled) s
      (fun _ t ↦ (t.held.stock.live.find? 0).isSome) (by cbv)
    obtain ⟨slot, hslot⟩ := Option.isSome_iff_exists.mp htest
    have hpolled : (lastPoll Strip.Call.perform source calls ⟨Rehearsal.ofPoll 5,
        initial strip .vertical .multiple 0⟩).map Prod.fst = some 5 := by
      cbv
    obtain ⟨⟨last, since⟩, hpoll, hfive⟩ := Option.map_eq_some_iff.mp hpolled
    obtain rfl : last = 5 := hfive
    have hlen : (source.len s.host.host).1 = 3 := by cbv
    obtain ⟨-, hrenewed, hnone⟩ := (changed_length_renews (Rehearsal.ofPoll 5) .vertical .multiple
      0).1 source strip calls .layout ⟨0, 10, strip, [], rfl, rfl⟩ hpoll rfl hpass
      (by rw [hlen]; decide) (.inr (.inr fun count hcall ↦ by
        simpa [calls] using (lastPoll_suffix hpoll).subset hcall))
    rw [hlen] at hrenewed hnone
    exact ⟨by cbv, pass, t, slot, hpass, (hrenewed.unselected 4 (by decide)).1,
      hnone 4 (by decide), hslot, hrenewed.rebound 0 slot hslot⟩
  case grid =>
    intro source calls strip s
    obtain ⟨pass, t, hpass, htest⟩ := Step.exists_eq_ok_and (layout source.journaled) s
      (fun _ t ↦ (t.held.stock.live.find? 0).isSome && decide (t.held.model.trackCount = 2))
      (by decide +kernel)
    rw [Bool.and_eq_true, decide_eq_true_eq] at htest
    obtain ⟨slot, hslot⟩ := Option.isSome_iff_exists.mp htest.1
    have hpolled : (lastPoll Grid.Call.perform source calls ⟨Rehearsal.ofPoll 6,
        initial (Grid.ofTracks strip 10 0) .vertical .none 0⟩).map Prod.fst = some 6 := by
      decide +kernel
    obtain ⟨⟨last, since⟩, hpoll, hsix⟩ := Option.map_eq_some_iff.mp hpolled
    obtain rfl : last = 6 := hsix
    have hlen : (source.len s.host.host).1 = 4 := by decide +kernel
    have htracks : (Grid.ofTracks strip 10 0).tracks.Built :=
      ⟨0, 10, strip, [.edit (.setLen _)], rfl, rfl⟩
    obtain ⟨-, hrenewed, hnone⟩ := (changed_length_renews (Rehearsal.ofPoll 6) .vertical .none
      0).2 source (Grid.ofTracks strip 10 0) calls .layout htracks hpoll rfl hpass
      (by rw [hlen]; decide) (.inr (.inl (by rw [hlen]; decide +kernel)))
    exact ⟨by decide +kernel, pass, t, slot, hpass, hnone 2 (htest.2.trans_le (by decide)), hslot,
      hrenewed.rebound 0 slot hslot⟩

set_option maxRecDepth 20000 in
/-- Where the host itself has given the model the length that is polled next, an item past the end
stays selected. -/
example :
    let source : ItemSource (Rehearsal Nat Nat) (BlankView Rat) := Rehearsal.items
    let calls : List (Call (Strip.Call Rat) (Rehearsal Nat Nat) (BlankView Rat) Rat) :=
      [.setViewportSize ⟨100, 30⟩, .layout, .select 4, .model (.edit (.setLen 3)),
        .host ({ · with poll := 3 }), .layout]
    let t := (Step.runAll (Call.perform Strip.Call.perform source) calls ⟨Rehearsal.ofPoll 5,
      initial { Strip.empty with uniform := 10 } .vertical .multiple 0⟩).2
    t.held.model.len = 3 ∧ t.held.selection.order = [4] := by cbv

end Collection

end Windowing
