import Windowing.Proofs.Collection.CallOrder
import Windowing.Proofs.Collection.Coherence
import Windowing.Proofs.Collection.Rebinding
import Windowing.Proofs.Tallies

/-!
# A pass does the work that it answers

What a completed pass of a collection answers is what it did. Its counts are those of the calls in
the journal and of the views in use and out of use, the views that it fills are those that had to be
filled, and it asks the host for views only where it has none of their kind. Whether it binds all
views again follows from the calls made so far and from what the source answers.

## Main definitions

* `Collection.Works` — what a completed pass does between two states.

## Main results

* `Collection.layout_works` — every completed pass of a coherent collection does it.
* `Collection.work_of_completed_pass` — so does every pass that a run of calls completes.
-/

namespace Windowing

/-- The place of an index in a range. -/
theorem IndexRange.getElem?_toList {range : IndexRange} {index : Nat}
    (h : range.contains index = true) : range.toList[index - range.start]? = some index := by
  obtain ⟨hstart, hstop⟩ := IndexRange.contains_iff.mp h
  have hsize : index - range.start < range.size := by
    rw [IndexRange.size]
    omega
  rw [IndexRange.toList, List.getElem?_range' hsize]
  congr 1
  omega

namespace Collection

variable {E H M V S : Type} [Scalar S] [ExtentModel M S] [ResizableModel M S]
  [CrossPlacement M S] [ViewHandle H V S]

open Journal (Entry bindCalls)
open ViewStock (Booked Swept mem_newlyBound_iff newlyBound turns)

variable {base : Nat} {source : ItemSource H V} {pass : Pass IndexRange Nat}
  {s t : Hosted (Journal H Nat S) (Collection M (Tracked Nat V S) S)}

/-! ### Recorded calls -/

namespace Call

variable {call : Call E H V S}

omit [Scalar S] [ViewHandle H V S]

theorem journaled_eq_lengthChanged_iff :
    call.journaled = .lengthChanged ↔ call = .lengthChanged := by
  cases call <;> simp [journaled]

theorem journaled_eq_refreshAll_iff : call.journaled = .refreshAll ↔ call = .refreshAll := by
  cases call <;> simp [journaled]

theorem journaled_eq_select_iff {index : Nat} :
    call.journaled = .select index ↔ call = .select index := by
  cases call <;> simp [journaled]

end Call

/-! ### One pass -/

/-- What a completed pass does: its counts agree with the calls that it makes, the view of each item
is of the kind that the item had when its turn came, and the host is asked for a view of a kind only
between two states in which the pool of this kind is empty. -/
structure Works (source : ItemSource H V) (pass : Pass IndexRange Nat)
    (s t : Hosted (Journal H Nat S) (Collection M (Tracked Nat V S) S)) : Prop where
  booked : Booked pass.toTally
    (pass.window.toList.filterMap
      (newlyBound (rebinds source.journaled s) s.held.stock t.held.stock))
    ⟨s.host, s.held.stock⟩ ⟨t.host, t.held.stock⟩
  kind_eq : ∀ index slot, t.held.stock.live.find? index = some slot →
    pass.window.contains index = true → ∃ stage,
      (passStages source.journaled s)[index - pass.window.start]? = some stage ∧
        slot.kind = source.kind stage.host.host index
  asks : ∀ entry past kind, entry :: past <:+ t.host.entries → s.host.entries <:+ past →
    entry.createCall? = some kind → ∃ stage next,
      [stage, next] <:+: passStages source.journaled s ∧ stage.host.entries <:+ past ∧
        entry :: past <:+ next.host.entries ∧ (stage.held.stock.pool kind).free = [] ∧
        (next.held.stock.pool kind).free = []

/-- A pass that is completed does the work that it answers. -/
theorem layout_works (source : ItemSource H V) (h : Coherent base s) :
    (layout source.journaled).Ensures s (fun pass ↦ Works source pass s) fun _ ↦ True := by
  let synced := (s.held.openPass.syncLength (source.len s.host.host).1).1
  have hsynced : synced.stock = s.held.stock := (syncLength_aside _ s.held.openPass).stock_eq
  rw [ensures_layout]
  refine ((prepare_ensures source h).and (prepare_aside source.journaled s)).and_eq_ok.mono
    (fun answer mid hmid ↦ ?_) fun _ _ ↦ trivial
  obtain ⟨⟨⟨hcoherent, -, horderly, -⟩, hhost, haside⟩, hprepare⟩ := hmid
  obtain ⟨window, unselected⟩ := answer
  let layout := mid.held.layoutFor mid.held.due
  let leaving := IndexRange.leaving mid.held.window.toIndexRange window.toIndexRange
  let vacated : Hosted _ _ :=
    ⟨mid.host, (ViewStock.vacate layout.rebind leaving window.contains).after mid.held.stock⟩
  have hstock : mid.held.stock = s.held.stock := haside.stock_eq.trans hsynced
  have hentries : mid.host.entries = s.host.entries := by rw [hhost]; rfl
  have hcreated : mid.host.created = s.host.created := by rw [hhost]; rfl
  have hrebinds : rebinds source.journaled s = layout.rebind := by rw [rebinds, hprepare]; rfl
  have hswept : (ViewStock.follow source.journaled.views layout leaving window.toList
      window.contains).Ensures ⟨mid.host, mid.held.stock⟩ _ _ :=
    ViewStock.follow_swept source.journals_views (List.nodup_range' ..)
      (fun _ ↦ IndexRange.contains_iff_mem_toList)
      (fun _ ↦ IndexRange.not_mem_toList_of_mem_leaving) hcoherent.conserved
      fun hrebind ↦ tidy_of_orderly (horderly hrebind) window
  have hstages : passStages source.journaled s =
      (vacated :: turns source.journaled.views layout window.toList vacated).map fun views ↦
        ⟨views.host, { mid.held with due := {}, stock := views.held }⟩ := by
    rw [passStages, hprepare]
  rw [ensures_realize]
  refine hswept.mono (fun tally left hleft ↦ ?_) fun _ _ ↦ trivial
  obtain ⟨hbooked, swept, hswept⟩ := hleft
  refine ⟨?booked, fun index slot hslot hindex ↦ ?kind,
    fun entry past kind hentry hpast hcall ↦ ?asks⟩
  case booked =>
    rw [hstock] at hbooked
    rw [hrebinds]
    exact ⟨hentries ▸ hbooked.bindCalls_eq, hbooked.binds_eq, hcreated ▸ hbooked.created_eq,
      hbooked.liveCount_eq⟩
  case kind =>
    obtain ⟨views, hviews, hkind⟩ :=
      hswept.kind_eq _ index slot (IndexRange.getElem?_toList hindex) hslot
    rw [hstages, List.getElem?_map, hviews]
    exact ⟨_, rfl, hkind⟩
  case asks =>
    have hfirst : ∀ views ∈ (vacated :: turns source.journaled.views layout window.toList
        vacated).head?, views.host.entries <:+ past := by
      rintro _ ⟨⟩
      exact hentries ▸ hpast
    obtain ⟨before, after, hinfix, hbefore, hafter, hpools⟩ :=
      Journal.exists_stage hswept.asks hswept.last hentry hfirst
    rw [hstages]
    exact ⟨_, _, hinfix.map _, hbefore, hafter, hpools kind hcall⟩

omit [Scalar S] in
/-- The views of a window are filled in the order of their items. -/
theorem pairwise_newlyBound {rebind : Bool} {before after : ViewStock Nat (Tracked Nat V S) S}
    (range : IndexRange) :
    (range.toList.filterMap (newlyBound rebind before after)).Pairwise (·.1 < ·.1) := by
  have hkey {index : Nat} {call : Nat × Nat}
      (h : newlyBound rebind before after index = some call) : call.1 = index := by
    obtain ⟨slot, -, rfl⟩ := Option.map_eq_some_iff.mp h
    rfl
  refine (List.pairwise_lt_range' ..).filterMap _ fun i j hij first hfirst second hsecond ↦ ?_
  rw [hkey hfirst, hkey hsecond]
  exact hij

/-! ### Every pass of a run -/

/-- Every pass that a run of calls completes does the work that it answers. It binds all views again
for one of six reasons: it is the first pass, its call announces a change of the length or of all
items, the source has another number of items than the model when the pass begins or when the item
that its call selects is looked up, or the last pass was cut short. A pass that does so fills the
view of every item that has one afterwards, each once; any other pass fills those of the items that
had no view of their kind before, the kind being the one that the item had when its turn came. The
views are filled in the order of their items. The counts are those of the calls that fill a view and
of the views that the host built, and account for the views in use and out of use. The host is asked
for a view of a kind only while the pool of this kind is empty. The run is recorded to say so, and
its pass answers and does what the pass without the record does. -/
theorem work_of_completed_pass [LawfulExtents M] (edit : E → Step M (Reply S))
    (source : ItemSource H V) (host : H) (model : M) (axis : Axis) (mode : SelectionMode)
    (lookahead : Nat) (calls : List (Call E H V S)) (call : Call E H V S)
    {pass : Pass IndexRange Nat}
    {s t : Hosted (Journal H Nat S) (Collection M (Tracked Nat V S) S)}
    (hlead : call.journaled.lead edit source.journaled
      (Step.runAll (Call.record edit source) calls (recorded host model axis mode lookahead)).2 =
      .ok true s)
    (hpass : layout source.journaled s = .ok pass t) :
    let start : Hosted H (Collection M V S) := ⟨host, initial model axis mode lookahead⟩
    let before := (Step.runAll (Call.perform edit source) calls start).2
    let last := lastPass edit source calls start
    let rebinding := rebinds source.journaled s
    layout source (plain s) = .ok pass (plain t) ∧
      (call.perform edit source).after before = plain t ∧
      (rebinding = true ↔ last = none ∨ call = .lengthChanged ∨
        (source.len s.host.host).1 ≠ ExtentModel.len s.held.model ∨
        (∃ index, call = .select index ∧
          (source.len before.host).1 ≠ ExtentModel.len before.held.model) ∨
        call = .refreshAll ∨ last = some false) ∧
      (∃ binds, bindCalls t.host.entries = bindCalls s.host.entries ++ binds ∧
        binds.Pairwise (·.1 < ·.1) ∧
        (∀ index view, (index, view) ∈ binds ↔
          ∃ slot, t.held.stock.live.find? index = some slot ∧ slot.view.number = view ∧
            (rebinding = true ∨ s.held.stock.kindOf? index ≠ some slot.kind)) ∧
        pass.bound + pass.rebound = binds.length) ∧
      (∀ index slot, t.held.stock.live.find? index = some slot →
        pass.window.contains index = true ∧ ∃ stage,
          (passStages source.journaled s)[index - pass.window.start]? = some stage ∧
            slot.kind = source.kind stage.host.host index) ∧
      t.host.created = s.host.created + pass.created ∧
      (t.held.stock.liveCount : Int) = s.held.stock.liveCount - pass.released + pass.bound ∧
      (t.held.stock.pooledCount : Int) =
        s.held.stock.pooledCount + pass.released - (pass.bound - pass.created) ∧
      ∀ entry past kind, entry :: past <:+ t.host.entries → s.host.entries <:+ past →
        entry.createCall? = some kind → ∃ stage next,
          [stage, next] <:+: passStages source.journaled s ∧ stage.host.entries <:+ past ∧
            entry :: past <:+ next.host.entries ∧ (stage.held.stock.pool kind).free = [] ∧
            (next.held.stock.pool kind).free = [] := by
  intro start before last rebinding
  let ended := (Step.runAll (Call.record edit source) calls
    (recorded host model axis mode lookahead)).2
  have hrecorded : before = plain ended := runAll_recorded ..
  have hs := coherent_of_lead (recorded_coherent (V := V) host model axis mode lookahead) hlead
  obtain ⟨ht, hpassed⟩ := (layout_ensures source hs).of_ok hpass
  have hworks := (layout_works source hs).of_ok hpass
  have hwindow {index : Nat} (hlive : (t.held.stock.live.find? index).isSome = true) :
      index ∈ pass.window.toList := ((hpassed.exact.live_iff index).mp hlive).1
  refine ⟨?plain, ?after, ?rebinds, ?binds, fun index slot hslot ↦ ?kind, hworks.booked.created_eq,
    ?live, ?pooled, hworks.asks⟩
  case plain => rw [layout_mirrors source s, hpass]; rfl
  case after =>
    rw [hrecorded, (Call.record_mirrors edit source call).after]
    exact congrArg plain (Call.after_perform_of_lead hlead hpass)
  case rebinds =>
    have hrun : Owes (last.or none) before.held :=
      owes_runAll source (owes_initial model axis mode lookahead)
    rw [Option.or_none, hrecorded] at hrun
    have howes : Owes last ended.held :=
      ⟨hrun.passOpen_iff, hrun.length_of_none, hrun.settled⟩
    have hreasons := rebinds_iff howes hlead hpass
    simp only [Call.journaled_eq_lengthChanged_iff, Call.journaled_eq_refreshAll_iff,
      Call.journaled_eq_select_iff] at hreasons
    rw [hrecorded]
    exact hreasons
  case binds =>
    exact ⟨_, hworks.booked.bindCalls_eq, pairwise_newlyBound pass.window,
      fun index view ↦ mem_newlyBound_iff fun _ ↦ hwindow, hworks.booked.binds_eq⟩
  case kind =>
    have hindex := IndexRange.contains_iff_mem_toList.mpr (hwindow (Option.isSome_of_eq_some hslot))
    exact ⟨hindex, hworks.kind_eq index slot hslot hindex⟩
  case live =>
    have hcount := hworks.booked.liveCount_eq
    dsimp only at hcount
    omega
  case pooled =>
    have hlive := hworks.booked.liveCount_eq
    have hcreated := hworks.booked.created_eq
    have hbefore := hs.conserved.accounted
    have hafter := ht.conserved.accounted
    have hcounts := hbefore.count_eq
    have hcounts' := hafter.count_eq
    have hbase := hbefore.base_le
    dsimp only at hlive hcreated hcounts hcounts' hbase
    omega

/-- The list scrolls by one item, and the next item changed its kind. Two views are released, and
the one that shows the item that enters was released by the item that changed its kind. -/
theorem work_of_completed_pass_rehearsal :
    let source : ItemSource (Rehearsal Nat Nat) (BlankView Rat) := Rehearsal.items
    let host : Rehearsal Nat Nat := Rehearsal.ofPoll 5
    let strip : Strip Rat := { Strip.empty with uniform := 10 }
    let calls : List (Call (Strip.Call Rat) (Rehearsal Nat Nat) (BlankView Rat) Rat) :=
      [.setViewportSize ⟨100, 30⟩, .layout, .scrollTo 10,
        .host ({ · with kinds := #[⟨0⟩, ⟨1⟩, ⟨0⟩, ⟨0⟩, ⟨0⟩] })]
    let s := (Step.runAll (Call.record Strip.Call.perform source) calls
      (recorded host strip .vertical .none 0)).2
    ∃ pass t, layout source.journaled s = .ok pass t ∧ rebinds source.journaled s = false ∧
      bindCalls t.host.entries = bindCalls s.host.entries ++ [(1, 3), (3, 1)] ∧
      pass.bound = 2 ∧ pass.rebound = 0 ∧ pass.released = 2 ∧ pass.created = 1 ∧
      t.held.stock.liveCount = 3 ∧ t.held.stock.pooledCount = 1 := by
  intro source host strip calls s
  obtain ⟨pass, t, hpass, htest⟩ := Step.exists_eq_ok_and (layout source.journaled) s
    (fun pass t ↦ bindCalls t.host.entries = bindCalls s.host.entries ++ [(1, 3), (3, 1)] ∧
      pass.bound = 2 ∧ pass.released = 2 ∧ pass.created = 1) (by decide +kernel)
  obtain ⟨hcalls, hbound, hreleased, hcreated⟩ := of_decide_eq_true htest
  have hkeeps : rebinds source.journaled s = false := by decide +kernel
  have hcounts : s.held.stock.liveCount = 3 ∧ s.held.stock.pooledCount = 0 := by decide +kernel
  have hwork := work_of_completed_pass Strip.Call.perform source host strip .vertical .none 0 calls
    .layout rfl hpass
  obtain ⟨-, -, -, ⟨binds, hbinds, -, -, hlength⟩, -, -, hlive, hpooled, -⟩ := hwork
  have hlist : binds = [(1, 3), (3, 1)] := List.append_cancel_left (hbinds.symm.trans hcalls)
  change _ = (s.held.stock.liveCount : Int) - _ + _ at hlive
  change _ = (s.held.stock.pooledCount : Int) + _ - _ at hpooled
  simp only [hlist, List.length_cons, List.length_nil] at hlength
  exact ⟨pass, t, hpass, hkeeps, hcalls, hbound, by omega, hreleased, hcreated, by omega, by omega⟩

end Collection

end Windowing
