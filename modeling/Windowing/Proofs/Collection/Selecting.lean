import Windowing.Proofs.Collection.Faults
import Windowing.Proofs.Collection.Showing
import Windowing.Proofs.Collection.Styling
import Windowing.Proofs.Serving

/-!
# Selecting an item from end to end

A call that selects an item does several things in turn. It polls the source, changes the selection
and styles the views that the change is about; where the model has another length than the source it
takes over the length; it scrolls to the item, and runs a pass, which polls, takes over and scrolls
once more. Selections may be dropped on the way, and all changes are answered together. If a source
serves throughout the call, then the call is completed, the item is selected, and if there is
anything of it to see, a view shows it as selected.

An item that cannot be selected is ignored: nothing happens but the first poll.

## Main definitions

* `Selection.Ignores`, `Selection.Picks` — a key that selecting leaves out, or takes in.
* `Collection.InView` — an item is in the window, with a view that shows it as selected.
* `Collection.Selects` — what selecting an item leaves.
* `Collection.AnswersSelect` — selecting an item is ignored, or else done.

## Main results

* `Collection.select_ignored` — what is ignored changes nothing.
* `Collection.layout_served` — a pass that a source serves is completed.
* `Collection.select_end_to_end` — after every run of calls an item is selected as said.
-/

namespace Windowing

/-! ### Selections that take a key in -/

namespace Selection

variable {K : Type} [BEq K] [Hashable K] {selection : Selection K} {inBounds : K → Bool} {key : K}

/-- Selecting the key is ignored: it cannot be selected, or it is selected already. -/
def Ignores (selection : Selection K) (inBounds : K → Bool) (key : K) : Prop :=
  selection.mode = .none ∨ inBounds key = false ∨ selection.isSelected key = true

/-- The key is selected, and no other one is if it is to be alone. -/
structure Picks (selection : Selection K) (key : K) (alone : Prop) : Prop where
  mem : key ∈ selection.order
  order_eq : alone → selection.order = [key]

theorem select_of_ignores (h : selection.Ignores inBounds key) :
    selection.select inBounds key = (selection, []) :=
  if_pos h

theorem snd_select_ne_nil (h : ¬selection.Ignores inBounds key) :
    (selection.select inBounds key).2 ≠ [] := by
  rw [Ignores] at h
  rw [select, if_neg h]
  simp

theorem select_picks (h : ¬selection.Ignores inBounds key) :
    (selection.select inBounds key).1.Picks key (selection.mode = .single) := by
  rw [Ignores] at h
  rw [select, if_neg h]
  refine ⟨List.mem_append_right _ (List.mem_singleton.mpr rfl), fun hsingle ↦ ?_⟩
  have hnone : (selection.dropOldest selection.size).1.order = [] := List.drop_length
  simp only [if_pos hsingle, hnone, List.nil_append]

/-- A key that is in bounds stays picked when others are dropped. -/
theorem Picks.retain {alone : Prop} (h : selection.Picks key alone) (hkey : inBounds key = true) :
    (selection.retain inBounds).1.Picks key alone where
  mem := List.mem_filter.mpr ⟨h.mem, hkey⟩
  order_eq halone := by
    change selection.order.filter inBounds = [key]
    rw [h.order_eq halone, List.filter_cons_of_pos hkey, List.filter_nil]

end Selection

namespace Collection

/-! ### Before the pass -/

section Lead

variable {H M V S : Type} [Scalar S] [ExtentModel M S] [ResizableModel M S] [ViewHandle H V S]
  {source : ItemSource H V} {index len : Nat} {ready : H → Prop} {s : Hosted H (Collection M V S)}
  {items : Collection M V S}

/-- Where selecting an item is ignored, nothing happens but a poll. -/
theorem select_ignored [CrossPlacement M S]
    (h : s.held.selection.Ignores (Bounded.inBounds (source.len s.host).1) index) :
    select source index s = .ok [] ⟨(source.len s.host).2, s.held⟩ := by
  rw [Step.eq_ok_iff]
  simp [select, aim, pollLength, changeSelection, onStock, Selection.select_of_ignores h,
    ViewStock.restyle]

omit [ResizableModel M S] [Scalar S] [ExtentModel M S] in
theorem changeSelection_served (hserves : source.Serves len ready)
    (change : Selection Nat → Selection Nat × List (Selection.Change Nat)) (hready : ready s.host) :
    (changeSelection change).Ensures s (fun _ t ↦ ready t.host) fun _ ↦ False := by
  simp only [changeSelection, onStock, Step.ensures_bind, Step.ensures_onHeld,
    Step.ensures_modifyGet, Step.ensures_onPart, Step.ensures_pure]
  exact ViewStock.restyle_served (s := ⟨s.host, s.held.stock⟩) hserves.toServes _ hready

omit [ViewHandle H V S] in
theorem syncLength_picks {alone : Prop} (hindex : index < len)
    (h : items.selection.Picks index alone) :
    (items.syncLength len).1.selection.Picks index alone := by
  rw [syncLength]
  split
  · exact h.retain (decide_eq_true hindex)
  · exact h

/-- Selecting an item that is not ignored asks for it, and a pass is to follow. -/
theorem aim_picks (hserves : source.Serves len ready) (hready : ready s.host)
    (hindex : index < len) (hpicked : ¬s.held.selection.Ignores (Bounded.inBounds len) index) :
    (aim source index).Ensures s
      (fun answer t ↦ answer.2 = true ∧ ready t.host ∧
        t.held.selection.Picks index (s.held.selection.mode = .single) ∧
        t.held.pending = some (.item index .nearest))
      fun _ ↦ True := by
  have hpicks := Selection.select_picks hpicked
  simp only [aim, pollLength, Step.ensures_bind, Step.ensures_onHost, Step.ensures_modifyGet]
  rw [hserves.len_eq hready]
  refine ((changeSelection_spec _).and (changeSelection_served hserves _
    (hserves.polled hready))).mono (fun changes t hchanged ↦ ?_) fun _ _ ↦ trivial
  obtain ⟨⟨hchanges, stock, ht⟩, hready⟩ := hchanged
  have hsome : changes.isEmpty = false := by
    rw [hchanges]
    exact List.isEmpty_eq_false_iff.mpr (Selection.snd_select_ne_nil hpicked)
  have hselected : t.held.selection.Picks index (s.held.selection.mode = .single) := by
    rw [ht]
    exact hpicks
  have hscroll {items : Collection M V S}
      (h : items.selection.Picks index (s.held.selection.mode = .single)) :
      (requestScroll (.item index .nearest)).Ensures items
        (fun _ u ↦ u.selection.Picks index (s.held.selection.mode = .single) ∧
          u.pending = some (.item index .nearest))
        fun _ ↦ True := by
    refine (requestScroll_spec _ items).mono (fun _ u hrequested ↦ ?_) fun _ _ ↦ trivial
    obtain ⟨viewport, -, hu⟩ := hrequested
    rw [hu]
    exact ⟨h, rfl⟩
  simp only [hsome, Bool.false_eq_true, if_false, Step.ensures_bind, Step.ensures_onHeld,
    Step.ensures_modifyGet, Step.ensures_pure, true_and]
  split
  · have hadopted : (t.held.adoptLength len).1.selection.Picks index _ :=
      hselected.retain (decide_eq_true hindex)
    exact (hscroll hadopted).mono (fun _ _ hu ↦ ⟨hready, hu⟩) fun _ ↦ id
  · exact (hscroll hselected).mono (fun _ _ hu ↦ ⟨hready, hu⟩) fun _ ↦ id

end Lead

/-! ### The pass -/

section Pass

variable {H M V S : Type} [Scalar S] [ExtentModel M S] [ResizableModel M S] [CrossPlacement M S]
  [ViewHandle H V S] {source : ItemSource H V} {len base : Nat} {ready : H → Prop}
  {holds : M → Prop} {s : Hosted (Journal H Nat S) (Collection M (Tracked Nat V S) S)}

/-- A pass that a source serves is completed, and the host refuses no view in it. -/
theorem layout_served [LawfulCount M] (hserves : source.Serves len ready)
    (hmeasured : ExtentModel.Measured holds) (hcoherent : Coherent base s)
    (h : ModelHas holds s) (hready : ready s.host.host) :
    (layout source.journaled).Ensures s (fun _ _ ↦ True) (fun _ ↦ False) ∧
      refused source.journaled s = [] := by
  obtain ⟨answer, t, hprepare, -⟩ := (prepare_answers hmeasured source.journaled h).exists_eq_ok
  obtain ⟨ht, -, horderly, hwithin⟩ := (prepare_ensures source hcoherent).of_ok hprepare
  have hmodel := (prepare_viewport hmeasured.toUpheld.viewport.passKeeps source.journaled h).of_ok
    hprepare
  have hwanted (index : Nat) (hindex : index ∈ answer.1.toList) : index < len := by
    rw [← hserves.len_eq hready]
    exact (IndexRange.mem_toList.mp hindex).2.trans_le (hwithin ‹_›).stop_le
  have hhost : ready t.host.host := by
    rw [((prepare_aside source.journaled s).of_ok hprepare).1]
    exact hserves.polled hready
  have hturns : (ViewStock.realizeAll source.journaled.views (t.held.layoutFor t.held.due)
      answer.1.toList).Ensures (cleared answer.1 t) _ _ ∧ _ :=
    ViewStock.realizeAll_served source.journals_views hserves.journaled.toServes hwanted
      (fun index _ ↦ placement_ok (hmeasured.extentOf_ok hmodel) index)
      (ht.conserved.foldl_released _) hhost
  obtain ⟨hanswers, hnone⟩ := hturns
  have hrealized := (realize_faultsOnly ht horderly hanswers.faultsOnly).ensures
  refine ⟨?answers, ?refused⟩
  case answers =>
    rw [ensures_layout, Step.ensures_of_eq_ok hprepare]
    exact hrealized
  case refused =>
    simp only [refused, hprepare]
    rw [ViewStock.refusedIn_eq ht.conserved.sound]
    exact hnone

end Pass

/-! ### The whole call -/

section Call

variable {E H M V : Type} [ExtentModel M Rat] [ResizableModel M Rat] [CrossPlacement M Rat]
  [ViewHandle H V Rat]

/-- The item is in the window, and has a live view that shows it and was last styled as
selected. -/
structure InView (index : Nat)
    (t : Hosted (Journal H Nat Rat) (Collection M (Tracked Nat V Rat) Rat)) : Prop where
  contains : t.held.window.contains index = true
  live : ∃ slot, t.held.stock.live.find? index = some slot ∧ slot.view.content = .item index ∧
    slot.view.selected = some true

/-- A pass in which the host refused no view has a selected item of its window in view. -/
theorem inView_of_layout {source : ItemSource H V} {base index : Nat}
    {pass : Pass IndexRange Nat}
    {s t : Hosted (Journal H Nat Rat) (Collection M (Tracked Nat V Rat) Rat)}
    (hcoherent : Coherent base s) (hdressed : Dressed s)
    (hlayout : layout source.journaled s = .ok pass t) (hnone : refused source.journaled s = [])
    (hcontains : t.held.window.contains index = true)
    (hselected : t.held.selection.isSelected index = true) : InView index t := by
  have hpassed := ((layout_ensures source hcoherent).of_ok hlayout).2
  have hstyled := ((layout_dressed source hcoherent hdressed).of_ok hlayout).2
  have hlive : (t.held.stock.live.find? index).isSome = true := by
    refine (hpassed.exact.live_iff index).mpr ⟨?_, by simp [hnone]⟩
    rw [← hpassed.window_eq]
    exact IndexRange.contains_iff_mem_toList.mp hcontains
  obtain ⟨slot, hslot⟩ := Option.isSome_iff_exists.mp hlive
  exact ⟨hcontains, slot, hslot, hpassed.exact.content_eq hslot,
    (hstyled hslot).trans (congrArg some hselected)⟩

/-- What selecting an item leaves. The item is selected, and in single mode no other one is. The
changes that are answered play back to the new selection from the old one. If there is anything of
the item and of the viewport, which is as long as before, the item is in view, and if the viewport
is long enough the item is fully visible. -/
structure Selects (index : Nat)
    (s : Hosted (Journal H Nat Rat) (Collection M (Tracked Nat V Rat) Rat))
    (changes : List (Selection.Change Nat))
    (t : Hosted (Journal H Nat Rat) (Collection M (Tracked Nat V Rat) Rat)) : Prop where
  isSelected : t.held.selection.isSelected index = true
  alone : s.held.selection.mode = .single → t.held.selection.order = [index]
  playback_eq : Selection.Change.playback s.held.selection.order changes =
    some t.held.selection.order
  extent_eq : t.held.viewport.extent = s.held.viewport.extent
  shows : ∃ extent, ExtentModel.extentOf t.held.model index = .ok extent ∧
    (extent ≤ t.held.viewport.extent → t.held.viewport.isFullyVisible index = .ok true) ∧
    (0 < extent → 0 < t.held.viewport.extent → InView index t)

omit [ResizableModel M Rat] [CrossPlacement M Rat] [ViewHandle H V Rat] in
/-- An item that there is something of, and that fits the viewport, is in view as a whole. -/
theorem Selects.inView {index : Nat}
    {s t : Hosted (Journal H Nat Rat) (Collection M (Tracked Nat V Rat) Rat)}
    {changes : List (Selection.Change Nat)} (h : Selects index s changes t) {extent : Rat}
    (hextent : ExtentModel.extentOf t.held.model index = .ok extent) (hpos : 0 < extent)
    (hfits : extent ≤ s.held.viewport.extent) :
    InView index t ∧ t.held.viewport.isFullyVisible index = .ok true := by
  obtain ⟨own, hown, hvisible, hinView⟩ := h.shows
  obtain rfl : extent = own := Except.ok.inj (hextent.symm.trans hown)
  rw [h.extent_eq] at hvisible hinView
  exact ⟨hinView hpos (hpos.trans_le hfits), hvisible hfits⟩

/-- How selecting an item is answered where there are `len` items. It is ignored if it cannot be
selected or is selected already: then nothing changes, and the source is polled only. Otherwise the
call is completed and leaves the item selected. The call is recorded to say so, and does without the
record what it does with it. -/
structure AnswersSelect (source : ItemSource H V) (len index : Nat)
    (s : Hosted (Journal H Nat Rat) (Collection M (Tracked Nat V Rat) Rat)) : Prop where
  ignored : (s.held.selection.mode = .none ∨ len ≤ index ∨
      s.held.selection.isSelected index = true) →
    select source index (plain s) = .ok [] ⟨(source.len s.host.host).2, (plain s).held⟩
  selects : ¬(s.held.selection.mode = .none ∨ len ≤ index ∨
      s.held.selection.isSelected index = true) →
    ∃ changes t, select source.journaled index s = .ok changes t ∧
      select source index (plain s) = .ok changes (plain t) ∧ Selects index s changes t

variable [LawfulCount M] {holds : M → Prop} (hkeeps : ExtentModel.KeepsOrder holds)
  (hmeasured : ExtentModel.Measured holds) {source : ItemSource H V} {len base index : Nat}
  {ready : H → Prop} (hserves : source.Serves len ready)
  {s : Hosted (Journal H Nat Rat) (Collection M (Tracked Nat V Rat) Rat)}

include hkeeps hmeasured hserves

/-- An item that is not ignored is selected and shown. -/
theorem select_selects (hcoherent : Coherent base s) (hdressed : Dressed s)
    (h : s.held.viewport.Fresh ∧ holds s.held.model) (hready : ready s.host.host)
    (hindex : index < len) (hpicked : ¬s.held.selection.Ignores (Bounded.inBounds len) index) :
    ∃ changes t, select source.journaled index s = .ok changes t ∧ Selects index s changes t := by
  have hserved := hserves.journaled (S := Rat)
  have hviewport := (Viewport.upheld_fresh.and hkeeps.toUpheld.viewport).passKeeps
  have hresized := Viewport.passKeeps_extent (M := M) s.held.viewport.extent
  obtain ⟨⟨changes, follows⟩, t, haim, -⟩ :=
    (aim_answers hmeasured source.journaled index h.2).exists_eq_ok
  obtain ⟨hfollows, htready, hpicks, hpending⟩ :=
    (aim_picks hserved hready hindex hpicked).of_ok haim
  obtain rfl : follows = true := hfollows
  have ht := (aim_upheld (upheld_coherent base) source index hcoherent).of_ok haim
  have htdressed := (aim_dressed source index hdressed).of_ok haim
  have htviewport := (aim_viewport hviewport source.journaled index h).of_ok haim
  have htextent := (aim_viewport hresized source.journaled index rfl).of_ok haim
  have hpolled : (source.journaled.len t.host).1 = len := hserved.len_eq htready
  obtain ⟨hanswers, hnone⟩ := layout_served hserves hmeasured ht htviewport.2 htready
  obtain ⟨pass, u, hlayout, -⟩ := hanswers.exists_eq_ok
  have hwindow := ((layout_ensures source ht).of_ok hlayout).2.window_eq
  have hselect : select source.journaled index s = .ok (changes ++ pass.unselected) u := by
    rw [Step.eq_ok_iff]
    simp [select, Step.ensures_of_eq_ok haim, Step.ensures_of_eq_ok hlayout]
  have hmoves := (select_reporting source.journaled index hdressed.sound).of_ok hselect
  have hupicks : u.held.selection.Picks index (s.held.selection.mode = .single) := by
    rw [((layout_selection source.journaled t).of_ok hlayout).1, hpolled]
    exact syncLength_picks hindex hpicks
  have hselected := (hmoves.sound.isSelected_iff index).mpr hupicks.mem
  refine ⟨_, u, hselect, hselected, hupicks.order_eq, hmoves.playback_eq,
    (layout_viewport hresized source.journaled htextent).of_ok hlayout, ?_⟩
  have hlen : 0 < (source.journaled.len t.host).1 := hpolled ▸ Nat.zero_lt_of_lt hindex
  have hshows := (layout_shows hkeeps source.journaled htviewport hpending hlen).of_ok hlayout
  rw [hpolled, Nat.min_eq_left (Nat.le_sub_one_of_lt hindex), ← hwindow] at hshows
  obtain ⟨extent, hextent, hfits, hcontains⟩ := hshows
  exact ⟨extent, hextent, hfits, fun hpos hviewport ↦
    inView_of_layout ht htdressed hlayout hnone (hcontains hpos hviewport) hselected⟩

/-- Selecting an item is ignored, or else done, as said. -/
theorem answersSelect (hcoherent : Coherent base s) (hdressed : Dressed s)
    (h : s.held.viewport.Fresh ∧ holds s.held.model) (hready : ready s.host.host) (index : Nat) :
    AnswersSelect source len index s := by
  have hignores : s.held.selection.Ignores (Bounded.inBounds len) index ↔
      s.held.selection.mode = .none ∨ len ≤ index ∨ s.held.selection.isSelected index = true := by
    simp [Selection.Ignores, Bounded.inBounds]
  refine ⟨fun hignored ↦ ?ignored, fun hpicked ↦ ?selects⟩
  case ignored =>
    refine select_ignored (s := plain s) ?_
    have hlen : (source.len (plain s).host).1 = len := hserves.len_eq hready
    rw [hlen]
    exact hignores.mpr hignored
  case selects =>
    have hindex : index < len := Nat.lt_of_not_le fun hpast ↦ hpicked (.inr (.inl hpast))
    obtain ⟨changes, t, hselect, hselects⟩ := select_selects hkeeps hmeasured hserves hcoherent
      hdressed h hready hindex (mt hignores.mp hpicked)
    have hplain := select_mirrors (M := M) (S := Rat) source index s
    rw [hselect] at hplain
    exact ⟨changes, t, hselect, hplain, hselects⟩

/-- After every run of calls from a collection as it is built, selecting an item is answered as
said. -/
theorem answersSelect_runAll {edit : E → Step M (Reply Rat)} {calls : List (Call E H V Rat)}
    (hedit : ∀ e, .model e ∈ calls → ∀ model, holds model →
      (edit e).Ensures model (fun _ ↦ holds) holds)
    {host : H} {model : M} {axis : Axis} {mode : SelectionMode} {lookahead : Nat}
    (hmodel : holds model) :
    let s := (Step.runAll (Call.record edit source) calls
      (recorded host model axis mode lookahead)).2
    ready s.host.host → ∀ index, AnswersSelect source len index s := by
  intro s hready
  have hstart := recorded_coherent (V := V) host model axis mode lookahead
  have hviewport := fresh_runAll hkeeps.toUpheld source calls hedit
    (s := ⟨host, initial model axis mode lookahead⟩) (fresh_initial hmodel axis mode lookahead)
  rw [runAll_recorded] at hviewport
  exact answersSelect hkeeps hmeasured hserves (coherent_runAll edit source calls hstart)
    (dressed_runAll edit source calls hstart (recorded_dressed host model axis mode lookahead))
    hviewport hready

end Call

/-! ### Lists and grids -/

/-- After every run of calls on a list or a grid, however the calls of the run ended and whatever
the source answered meanwhile: if the source serves from now on, with `len` items, then selecting an
item is ignored if no item may be selected, the item does not exist or is selected already, and is
done otherwise. The calls on a grid must not change the number of tracks behind it. The runs are
recorded to say so, and end where the runs without the record do. -/
theorem select_end_to_end {H V : Type} [ViewHandle H V Rat] {source : ItemSource H V} {len : Nat}
    {ready : H → Prop} (hserves : source.Serves len ready) (host : H) (axis : Axis)
    (mode : SelectionMode) (lookahead index : Nat) :
    (∀ (strip : Strip Rat) (calls : List (Call (Strip.Call Rat) H V Rat)), strip.Built →
      let s := (Step.runAll (Call.record Strip.Call.perform source) calls
        (recorded host strip axis mode lookahead)).2
      let bare := (Step.runAll (Call.perform Strip.Call.perform source) calls
        ⟨host, initial strip axis mode lookahead⟩).2
      bare = plain s ∧ (ready bare.host → AnswersSelect source len index s)) ∧
    ∀ (grid : Grid (Strip Rat) Rat) (calls : List (Call (Grid.Call Rat) H V Rat)), grid.Built →
      (∀ count, .model (.tracks (.edit (.setLen count))) ∉ calls) →
      let s := (Step.runAll (Call.record Grid.Call.perform source) calls
        (recorded host grid axis mode lookahead)).2
      let bare := (Step.runAll (Call.perform Grid.Call.perform source) calls
        ⟨host, initial grid axis mode lookahead⟩).2
      bare = plain s ∧ (ready bare.host → AnswersSelect source len index s) := by
  refine ⟨fun strip calls hbuilt ↦ ?strip, fun grid calls hbuilt hcalls ↦ ?grid⟩
  case strip =>
    intro s bare
    have hbare : bare = plain s := runAll_recorded _ source host strip axis mode lookahead calls
    refine ⟨hbare, fun hready ↦ ?_⟩
    rw [hbare] at hready
    exact answersSelect_runAll Strip.keepsOrder_laid
      (Strip.measured_sound.of_imp Strip.upheld_laid Strip.Laid.sound) hserves
      (fun e _ model h ↦ Step.ensures_iff_after.mpr (h.perform e)) hbuilt.laid hready index
  case grid =>
    intro s bare
    have hbare : bare = plain s := runAll_recorded _ source host grid axis mode lookahead calls
    refine ⟨hbare, fun hready ↦ ?_⟩
    rw [hbare] at hready
    exact answersSelect_runAll (Grid.keepsOrder_tracks.of_imp Grid.upheld_laid Grid.Laid.tracks)
      (Grid.measured_fitting.of_imp Grid.upheld_laid fun h ↦ ⟨h.tracks.sound, h.len_eq⟩) hserves
      (fun e he model h ↦ Step.ensures_iff_after.mpr
        (h.perform fun count heq ↦ hcalls count (heq ▸ he))) hbuilt.laid hready index

set_option maxRecDepth 20000 in
/-- A list of 3 items has grown to 20 since its last pass; the item that is selected gives way to
one of the new ones, and selecting it once more would have been ignored. A grid of 20 items has
shrunk to 9; an item that is left is selected, and one that was selected and is gone is dropped. -/
theorem select_end_to_end_rehearsal :
    let source : ItemSource (Rehearsal Nat Nat) (BlankView Rat) := Rehearsal.items
    let strip : Strip Rat := { Strip.empty with uniform := 10 }
    let grid := (Grid.ofTracks strip 10 0).withLaneSpacing 0
    (let calls : List (Call (Strip.Call Rat) (Rehearsal Nat Nat) (BlankView Rat) Rat) :=
        [.setViewportSize ⟨100, 25⟩, .select 1, .host ({ · with poll := 20 })]
      let s := (Step.runAll (Call.record Strip.Call.perform source) calls
        (recorded (Rehearsal.ofPoll 3) strip .vertical .single 0)).2
      let bare := (Step.runAll (Call.perform Strip.Call.perform source) calls
        ⟨Rehearsal.ofPoll 3, initial strip .vertical .single 0⟩).2
      bare.held.model.len = 3 ∧
      select source 1 bare = .ok [] ⟨(source.len bare.host).2, bare.held⟩ ∧
      ∃ changes t, select source 15 bare = .ok changes (plain t) ∧
        t.held.selection.order = [15] ∧ Selects 15 s changes t ∧ InView 15 t ∧
        t.held.viewport.isFullyVisible 15 = .ok true) ∧
    (let calls : List (Call (Grid.Call Rat) (Rehearsal Nat Nat) (BlankView Rat) Rat) :=
        [.setViewportSize ⟨20, 25⟩, .select 15, .host ({ · with poll := 9 })]
      let s := (Step.runAll (Call.record Grid.Call.perform source) calls
        (recorded (Rehearsal.ofPoll 20) grid .vertical .multiple 0)).2
      let bare := (Step.runAll (Call.perform Grid.Call.perform source) calls
        ⟨Rehearsal.ofPoll 20, initial grid .vertical .multiple 0⟩).2
      bare.held.model.len = 20 ∧ bare.held.model.lanes = 2 ∧ bare.held.selection.order = [15] ∧
      ∃ changes t, select source 4 bare = .ok changes (plain t) ∧
        t.held.selection.order = [4] ∧ Selects 4 s changes t ∧ InView 4 t ∧
        t.held.viewport.isFullyVisible 4 = .ok true) := by
  intro source strip grid
  have hstrip : strip.Built := ⟨0, 10, strip, [], rfl, rfl⟩
  have hgrid : grid.Built := ⟨strip, 10, 0, 0, [], hstrip, by simp, rfl⟩
  constructor
  · intro calls s bare
    have hend (index : Nat) :=
      (select_end_to_end (Rehearsal.serves_items 20) (Rehearsal.ofPoll 3) .vertical .single 0
        index).1 strip calls hstrip
    have hbare : bare = plain s := (hend 0).1
    obtain ⟨hhost, hlen, hmode, hold, hnew, hviewport⟩ :
        bare.host = { (.ofPoll 20 : Rehearsal Nat Nat) with created := 3 } ∧
          bare.held.model.len = 3 ∧ s.held.selection.mode = .single ∧
          s.held.selection.isSelected 1 = true ∧ s.held.selection.isSelected 15 = false ∧
          s.held.viewport.extent = 25 := by cbv
    have hready : Rehearsal.Willing 20 bare.host := ⟨#[], 3, hhost⟩
    have hpicked : ¬(s.held.selection.mode = .none ∨ 20 ≤ 15 ∨
        s.held.selection.isSelected 15 = true) := by simp [hmode, hnew]
    obtain ⟨changes, t, hselect, hplain, hselects⟩ := ((hend 15).2 hready).selects hpicked
    obtain ⟨_, _, htested, htest⟩ := Step.exists_eq_ok_and (select source.journaled 15) s
      (fun _ t ↦ t.held.model.extentOf 15 = 10) (by cbv)
    obtain ⟨rfl, rfl⟩ := EStateM.Result.ok.inj (hselect.symm.trans htested)
    have hextent : ExtentModel.extentOf t.held.model 15 = .ok 10 :=
      congrArg Except.ok (of_decide_eq_true htest)
    have hignored := ((hend 1).2 hready).ignored (.inr (.inr hold))
    have hinView := hselects.inView hextent (by norm_num) (by rw [hviewport]; norm_num)
    refine ⟨hlen, ?ignored, changes, t, ?selected, hselects.alone hmode, hselects, hinView⟩
    case ignored =>
      rw [hbare]
      exact hignored
    case selected =>
      rw [hbare]
      exact hplain
  · intro calls s bare
    have hend := (select_end_to_end (Rehearsal.serves_items 9) (Rehearsal.ofPoll 20) .vertical
      .multiple 0 4).2 grid calls hgrid (by simp [calls])
    have hbare : bare = plain s := hend.1
    obtain ⟨hhost, hlen, hlanes, hmode, horder, hnew, hviewport⟩ :
        bare.host = { (.ofPoll 9 : Rehearsal Nat Nat) with created := 6 } ∧
          bare.held.model.len = 20 ∧ bare.held.model.lanes = 2 ∧ s.held.selection.mode = .multiple ∧
          bare.held.selection.order = [15] ∧ s.held.selection.isSelected 4 = false ∧
          s.held.viewport.extent = 25 := by cbv
    have hready : Rehearsal.Willing 9 bare.host := ⟨#[], 6, hhost⟩
    have hpicked : ¬(s.held.selection.mode = .none ∨ 9 ≤ 4 ∨
        s.held.selection.isSelected 4 = true) := by simp [hmode, hnew]
    obtain ⟨changes, t, hselect, hplain, hselects⟩ := (hend.2 hready).selects hpicked
    obtain ⟨_, _, htested, htest⟩ := Step.exists_eq_ok_and (select source.journaled 4) s
      (fun _ t ↦ t.held.selection.order = [4] ∧ t.held.model.extentOf 4 = .ok 10) (by cbv)
    obtain ⟨rfl, rfl⟩ := EStateM.Result.ok.inj (hselect.symm.trans htested)
    obtain ⟨hnewOrder, hextent⟩ := of_decide_eq_true htest
    have hinView := hselects.inView hextent (by norm_num) (by rw [hviewport]; norm_num)
    refine ⟨hlen, hlanes, horder, changes, t, ?_, hnewOrder, hselects, hinView⟩
    rw [hbare]
    exact hplain

end Collection

end Windowing
