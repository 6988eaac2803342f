import Windowing.Extent.Call
import Windowing.Proofs.Collection.Coherence
import Windowing.Proofs.Stocking
import Windowing.Proofs.Table.Coherence
import Windowing.Rehearsal

/-!
# No more views than the largest window needs

Views are built when a pass needs them, and then they are used again and again. Whatever the source
does, and also where its faults cut passes short, there are never more views of one kind than the
largest window had keys that a pass found since all views were dropped last. If all keys need views
of one kind, the host refuses none, and no pass is cut short, there are exactly as many.

## Main definitions

* `Collection.Call.windowSize`, `Table.Call.windowSize` — the size of the window that the pass of a
  call finds.
* `Collection.Call.fillsWindow`, `Table.Call.fillsWindow` — the pass of a call is completed, and the
  host refuses no view in it.

## Main results

* `Collection.record_stocked`, `Table.record_stocked` — how many views a call leaves.
* `views_within_largest_window` — how many views there are after a run.
-/

namespace Windowing

/-! ### Collections -/

namespace Collection

variable {E H M V S : Type} [Scalar S] [ExtentModel M S] [ResizableModel M S] [CrossPlacement M S]

omit [CrossPlacement M S] in
/-- The number of items in the window that a pass finds, whether it is completed or not. -/
def foundSize (source : ItemSource H V) (s : Hosted H (Collection M V S)) : Nat :=
  match prepare source s with
  | .ok (window, _) _ => window.size
  | .error _ _ => 0

variable [ViewHandle H V S]

/-- The number of items in the window that the pass of a call finds, whether it is completed or not;
zero where the call runs no pass. -/
def Call.windowSize (edit : E → Step M (Reply S)) (source : ItemSource H V) (call : Call E H V S)
    (s : Hosted H (Collection M V S)) : Nat :=
  match call.lead edit source s with
  | .ok true t => foundSize source t
  | _ => 0

/-- Whether the pass of a call, if it runs one, is completed, and the host refuses no view in it. -/
def Call.fillsWindow (edit : E → Step M (Reply S))
    (source : ItemSource (Journal H Nat S) (Tracked Nat V S))
    (call : Call E (Journal H Nat S) (Tracked Nat V S) S)
    (s : Hosted (Journal H Nat S) (Collection M (Tracked Nat V S) S)) : Bool :=
  match call.lead edit source s with
  | .ok true t => ((Collection.layout source).outcome t).isOk && (refused source t).isEmpty
  | _ => true

variable {edit : E → Step M (Reply S)} {source : ItemSource H V} {base least most : Nat}
  {needs : ViewKind → Prop} (hneeds : ∀ host index, needs (source.kind host index))
  {s : Hosted (Journal H Nat S) (Collection M (Tracked Nat V S) S)}

include hneeds

omit [ResizableModel M S] in
/-- The part of a pass that works on views, completed or not, leaves no more views of a kind than
there were, or than the window has items. -/
theorem realize_stocked (window : VisibleWindow S) (h : Coherent base s)
    (horderly : s.held.due.rebind = false → Orderly s)
    (hstocked : s.held.stock.Stocked needs least most) :
    (realize source.journaled window).Ensures s
      (fun _ t ↦ t.held.stock.Stocked needs least (max most window.size))
      fun t ↦ t.held.stock.Stocked needs least (max most window.size) := by
  rw [ensures_realize, ← IndexRange.length_toList]
  exact ViewStock.follow_stocked source.journals_views (fun _ ↦ hneeds _)
    (fun _ ↦ IndexRange.contains_iff_mem_toList)
    (fun _ ↦ IndexRange.not_mem_toList_of_mem_leaving) h.conserved
    (fun hrebind ↦ tidy_of_orderly (horderly hrebind) window) hstocked

/-- A pass, completed or not, leaves no more views of a kind than there were, or than its window has
items; and if it is completed and the host refused none, at least as many as the window has. -/
theorem layout_stocked (h : Coherent base s) (hstocked : s.held.stock.Stocked needs least most) :
    (layout source.journaled).Ensures s
      (fun _ t ↦ t.held.stock.Stocked needs least (max most (foundSize source.journaled s)) ∧
        (refused source.journaled s = [] →
          foundSize source.journaled s ≤ t.held.stock.kinds.length))
      fun t ↦ t.held.stock.Stocked needs least (max most (foundSize source.journaled s)) := by
  have hprepared : (prepare source.journaled).Ensures s _ _ := (prepare_ensures source h).and
    (prepare_stockHas (ViewStock.upheld_stocked _ _ _) source hstocked)
  rw [ensures_layout]
  refine hprepared.and_eq_ok.mono (fun answer t ht ↦ ?_)
    fun _ ht ↦ ViewStock.Stocked.mono ht.2 (Nat.le_max_left ..)
  obtain ⟨⟨⟨hcoherent, hopen, horderly, -⟩, hstocked⟩, heq⟩ := ht
  have hsize : foundSize source.journaled s = answer.1.size := by rw [foundSize, heq]
  have hexact : (realize source.journaled answer.1).Ensures t _ _ :=
    realize_ensures source answer.1 hcoherent hopen horderly
  rw [hsize]
  refine (hexact.and (realize_stocked hneeds answer.1 hcoherent horderly hstocked)).mono
    (fun _ u hu ↦ ⟨hu.2, fun hnone ↦ ?_⟩) fun _ hu ↦ hu.2
  obtain ⟨⟨-, -, hexact⟩, -⟩ := hu
  simp only [refused, heq] at hnone
  rw [hnone] at hexact
  exact (IndexRange.length_toList _).symm.trans_le (hexact.length_le (List.nodup_range' ..))

/-- A call that does not drop all views leaves no more views of a kind than there were, or than the
window of its pass has items, however it ends. -/
theorem record_stocked (call : Call E H V S) (hcall : call.isDestroyAll = false)
    (h : Coherent base s) (hstocked : s.held.stock.Stocked needs least most) :
    ((call.record edit source).after s).held.stock.Stocked needs least
      (max most (call.journaled.windowSize edit source.journaled s)) := by
  have hlead : (call.journaled.lead edit source.journaled).Ensures s _ _ :=
    (lead_coherent edit source call hcall h).and
      (lead_stockHas (ViewStock.upheld_stocked needs least most) edit
        (fun index selected _ ↦ ViewStock.refill_stocked source.journals_views index selected)
        call hcall hstocked)
  rw [Call.record, Call.windowSize]
  by_cases hfollows : ∃ t, call.journaled.lead edit source.journaled s = .ok true t
  · obtain ⟨t, hled⟩ := hfollows
    obtain ⟨hcoherent, hstocked⟩ := hlead.of_ok hled
    rw [Call.after_perform_eq_layout hled, hled]
    exact Step.ensures_iff_after.mp
      ((layout_stocked hneeds hcoherent hstocked).mono (fun _ _ hu ↦ hu.1) fun _ ↦ id)
  · rw [Call.after_perform_eq_lead fun t ht ↦ hfollows ⟨t, ht⟩]
    exact (Step.ensures_iff_after.mp (hlead.mono (fun _ _ ht ↦ ht.2) fun _ ht ↦ ht.2)).mono
      (Nat.le_max_left ..)

omit hneeds in
/-- A call whose pass fills its window leaves as many views as the window has items, at least. -/
theorem windowSize_le_record (call : Call E H V S) (hcall : call.isDestroyAll = false)
    (h : Coherent base s) (hfills : call.journaled.fillsWindow edit source.journaled s = true) :
    call.journaled.windowSize edit source.journaled s ≤
      ((call.record edit source).after s).held.stock.kinds.length := by
  rw [Call.windowSize]
  split
  · next t hled =>
    rw [Call.fillsWindow, hled, Bool.and_eq_true, List.isEmpty_iff] at hfills
    obtain ⟨hok, hnone⟩ := hfills
    obtain ⟨pass, u, hpass⟩ := Step.exists_eq_ok hok
    have hcoherent := (lead_coherent edit source call hcall h).of_ok hled
    have hstocked : t.held.stock.Stocked (fun _ ↦ True) 0 t.held.stock.kinds.length :=
      ⟨Nat.zero_le _, fun _ ↦ List.count_le_length, fun _ _ ↦ trivial⟩
    rw [Call.record, Call.after_perform_of_lead hled hpass]
    exact ((layout_stocked (fun _ _ ↦ trivial) hcoherent hstocked).of_ok hpass).2 hnone
  · exact Nat.zero_le _

variable (needs) in
/-- After a run there are no more views of a kind than the largest window had items that a pass
found since all views were dropped last, and at least as many views as each window has that was
filled. -/
theorem stocked_runAll (edit : E → Step M (Reply S)) (host : H) (model : M) (axis : Axis)
    (mode : SelectionMode) (lookahead : Nat) (calls : List (Call E H V S)) :
    let perform := Call.record edit source
    let start := recorded host model axis mode lookahead
    let size (call : Call E H V S) := call.journaled.windowSize edit source.journaled
    let made := Step.since perform Call.isDestroyAll calls start []
    let stock := (Step.runAll perform calls start).2.held.stock
    stock.Stocked needs 0 (Step.largest size made) ∧
      ∀ entry ∈ made, entry.1.journaled.fillsWindow edit source.journaled entry.2 = true →
        size entry.1 entry.2 ≤ stock.kinds.length :=
  ViewStock.stocked_since (·.held.stock) (fun s ↦ ∃ base, Coherent base s) _
    (fun call s ↦ call.journaled.fillsWindow edit source.journaled s)
    (fun call _ ⟨_, h⟩ ↦ ⟨_, record_coherent edit source call h⟩)
    (fun call _ hcall ↦ by cases call <;> first | rfl | cases hcall)
    (fun call _ hcall ⟨_, h⟩ _ _ ↦ record_stocked hneeds call hcall h)
    (fun call _ hcall ⟨_, h⟩ ↦ windowSize_le_record call hcall h) calls
    ⟨0, recorded_coherent host model axis mode lookahead⟩ rfl

end Collection

/-! ### Tables -/

namespace Table

variable {H V S : Type} [Scalar S]

/-- The number of cells in the window that a pass finds, whether it is completed or not. -/
def foundSize (source : TableSource H V) (s : Hosted H (Table V S)) : Nat :=
  match prepare source s with
  | .ok (window, _) _ => window.size
  | .error _ _ => 0

variable [ViewHandle H V S]

/-- The number of cells in the window that the pass of a call finds, whether it is completed or not;
zero where the call runs no pass. -/
def Call.windowSize (source : TableSource H V) (call : Call H S) (s : Hosted H (Table V S)) : Nat :=
  match call.lead source s with
  | .ok true t => foundSize source t
  | _ => 0

/-- Whether the pass of a call, if it runs one, is completed, and the host refuses no view in it. -/
def Call.fillsWindow (source : TableSource (Journal H CellId S) (Tracked CellId V S))
    (call : Call (Journal H CellId S) S)
    (s : Hosted (Journal H CellId S) (Table (Tracked CellId V S) S)) : Bool :=
  match call.lead source s with
  | .ok true t => ((Table.layout source).outcome t).isOk && (refused source t).isEmpty
  | _ => true

variable {source : TableSource H V} {base least most : Nat} {needs : ViewKind → Prop}
  (hneeds : needs .only)
  {s : Hosted (Journal H CellId S) (Table (Tracked CellId V S) S)}

include hneeds

/-- The part of a pass that works on views, completed or not, leaves no more views of a kind than
there were, or than the window has cells. -/
theorem realize_stocked (window : TableWindow) (h : Coherent base s)
    (horderly : s.held.due.rebind = false → Orderly s)
    (hstocked : s.held.stock.Stocked needs least most) :
    (realize source.journaled window).Ensures s
      (fun _ t ↦ t.held.stock.Stocked needs least (max most window.size))
      fun t ↦ t.held.stock.Stocked needs least (max most window.size) := by
  rw [ensures_realize, ← window.length_cells]
  exact ViewStock.follow_stocked source.journals_views (fun _ _ ↦ hneeds)
    (fun _ ↦ TableWindow.mem_cells_iff.symm)
    (fun _ ↦ TableWindow.not_mem_cells_of_mem_leaving) h.conserved
    (fun hrebind ↦ tidy_of_orderly (horderly hrebind) window) hstocked

/-- A pass, completed or not, leaves no more views of a kind than there were, or than its window has
cells; and if it is completed and the host refused none, at least as many as the window has. -/
theorem layout_stocked (h : Coherent base s)
    (hstocked : s.held.stock.Stocked needs least most) :
    (layout source.journaled).Ensures s
      (fun _ t ↦
        t.held.stock.Stocked needs least (max most (foundSize source.journaled s)) ∧
        (refused source.journaled s = [] →
          foundSize source.journaled s ≤ t.held.stock.kinds.length))
      fun t ↦
        t.held.stock.Stocked needs least (max most (foundSize source.journaled s)) := by
  have hprepared : (prepare source.journaled).Ensures s _ _ := (prepare_ensures source h).and
    (prepare_stockHas (ViewStock.upheld_stocked _ _ _) source hstocked)
  rw [ensures_layout]
  refine hprepared.and_eq_ok.mono (fun answer t ht ↦ ?_)
    fun _ ht ↦ ViewStock.Stocked.mono ht.2 (Nat.le_max_left ..)
  obtain ⟨⟨⟨hcoherent, hopen, horderly, -⟩, hstocked⟩, heq⟩ := ht
  have hsize : foundSize source.journaled s = answer.1.size := by rw [foundSize, heq]
  have hexact : (realize source.journaled answer.1).Ensures t _ _ :=
    realize_ensures source answer.1 hcoherent hopen horderly
  rw [hsize]
  refine (hexact.and (realize_stocked hneeds answer.1 hcoherent horderly hstocked)).mono
    (fun _ u hu ↦ ⟨hu.2, fun hnone ↦ ?_⟩) fun _ hu ↦ hu.2
  obtain ⟨⟨-, -, hexact⟩, -⟩ := hu
  simp only [refused, heq] at hnone
  rw [hnone] at hexact
  exact answer.1.length_cells.symm.trans_le (hexact.length_le answer.1.nodup_cells)

/-- A call that does not drop all views leaves no more views of a kind than there were, or than the
window of its pass has cells, however it ends. -/
theorem record_stocked (call : Call H S) (hcall : call.isDestroyAll = false)
    (h : Coherent base s) (hstocked : s.held.stock.Stocked needs least most) :
    ((call.record source).after s).held.stock.Stocked needs least
      (max most (call.journaled.windowSize source.journaled s)) := by
  have hlead : (call.journaled.lead source.journaled).Ensures s _ _ :=
    (lead_coherent source call hcall h).and
      (lead_stockHas (ViewStock.upheld_stocked needs least most)
        (fun cell selected _ ↦ ViewStock.refill_stocked source.journals_views cell selected)
        call hcall hstocked)
  rw [Call.record, Call.windowSize]
  by_cases hfollows : ∃ t, call.journaled.lead source.journaled s = .ok true t
  · obtain ⟨t, hled⟩ := hfollows
    obtain ⟨hcoherent, hstocked⟩ := hlead.of_ok hled
    rw [Call.after_perform_eq_layout hled, hled]
    exact Step.ensures_iff_after.mp
      ((layout_stocked hneeds hcoherent hstocked).mono (fun _ _ hu ↦ hu.1) fun _ ↦ id)
  · rw [Call.after_perform_eq_lead fun t ht ↦ hfollows ⟨t, ht⟩]
    exact (Step.ensures_iff_after.mp (hlead.mono (fun _ _ ht ↦ ht.2) fun _ ht ↦ ht.2)).mono
      (Nat.le_max_left ..)

omit hneeds in
/-- A call whose pass fills its window leaves as many views as the window has cells, at least. -/
theorem windowSize_le_record (call : Call H S) (hcall : call.isDestroyAll = false)
    (h : Coherent base s) (hfills : call.journaled.fillsWindow source.journaled s = true) :
    call.journaled.windowSize source.journaled s ≤
      ((call.record source).after s).held.stock.kinds.length := by
  rw [Call.windowSize]
  split
  · next t hled =>
    rw [Call.fillsWindow, hled, Bool.and_eq_true, List.isEmpty_iff] at hfills
    obtain ⟨hok, hnone⟩ := hfills
    obtain ⟨pass, u, hpass⟩ := Step.exists_eq_ok hok
    have hcoherent := (lead_coherent source call hcall h).of_ok hled
    have hstocked : t.held.stock.Stocked (fun _ ↦ True) 0 t.held.stock.kinds.length :=
      ⟨Nat.zero_le _, fun _ ↦ List.count_le_length, fun _ _ ↦ trivial⟩
    rw [Call.record, Call.after_perform_of_lead hled hpass]
    exact ((layout_stocked trivial hcoherent hstocked).of_ok hpass).2 hnone
  · exact Nat.zero_le _

variable (needs) in
/-- After a run there are no more views of a kind than the largest window had cells that a pass
found since all views were dropped last, and at least as many views as each window has that was
filled. -/
theorem stocked_runAll (source : TableSource H V) (host : H) (rows cols : Strip S)
    (mode : SelectionMode) (lookahead : Nat) (calls : List (Call H S)) :
    let perform := Call.record source
    let start := recorded host rows cols mode lookahead
    let size (call : Call H S) := call.journaled.windowSize source.journaled
    let made := Step.since perform Call.isDestroyAll calls start []
    let stock := (Step.runAll perform calls start).2.held.stock
    stock.Stocked needs 0 (Step.largest size made) ∧
      ∀ entry ∈ made, entry.1.journaled.fillsWindow source.journaled entry.2 = true →
        size entry.1 entry.2 ≤ stock.kinds.length :=
  ViewStock.stocked_since (·.held.stock) (fun s ↦ ∃ base, Coherent base s) _
    (fun call s ↦ call.journaled.fillsWindow source.journaled s)
    (fun call _ ⟨_, h⟩ ↦ ⟨_, record_coherent source call h⟩)
    (fun call _ hcall ↦ by cases call <;> first | rfl | cases hcall)
    (fun call _ hcall ⟨_, h⟩ _ _ ↦ record_stocked hneeds call hcall h)
    (fun call _ hcall ⟨_, h⟩ ↦ windowSize_le_record call hcall h) calls
    ⟨0, recorded_coherent host rows cols mode lookahead⟩ rfl

end Table

/-! ### Any run -/

/-- After every run of calls on a collection or on a table, there are no more views of a kind, in
use and in the pools, than the largest window had keys that a pass found since the last call that
dropped all views, whether it was completed or not. If all keys need views of one kind, and each of
these passes was completed without a refusal of the host, the views in use and in the pools are
exactly as many. The run is recorded to say so, and ends where the run without the record does. -/
theorem views_within_largest_window {H V S : Type} [Scalar S] [ViewHandle H V S] (host : H)
    (mode : SelectionMode) (lookahead : Nat) :
    (∀ {E M : Type} [ExtentModel M S] [ResizableModel M S] [CrossPlacement M S]
      (edit : E → Step M (Reply S)) (source : ItemSource H V) (model : M) (axis : Axis)
      (calls : List (Collection.Call E H V S)),
      let perform := Collection.Call.record edit source
      let start := Collection.recorded host model axis mode lookahead
      let s := (Step.runAll perform calls start).2
      let made := Step.since perform Collection.Call.isDestroyAll calls start []
      let largest := Step.largest (·.journaled.windowSize edit source.journaled) made
      let last := (Step.runAll (Collection.Call.perform edit source) calls
        ⟨host, Collection.initial model axis mode lookahead⟩).2
      last = Collection.plain s ∧ (∀ kind, last.held.stock.countOf kind ≤ largest) ∧
        ∀ kind, (∀ host index, source.kind host index = kind) →
          (∀ entry ∈ made,
            entry.1.journaled.fillsWindow edit source.journaled entry.2 = true) →
          last.held.stock.liveCount + last.held.stock.pooledCount = largest) ∧
    ∀ (source : TableSource H V) (rows cols : Strip S) (calls : List (Table.Call H S)),
      let perform := Table.Call.record source
      let start := Table.recorded host rows cols mode lookahead
      let s := (Step.runAll perform calls start).2
      let made := Step.since perform Table.Call.isDestroyAll calls start []
      let largest := Step.largest (·.journaled.windowSize source.journaled) made
      let last := (Step.runAll (Table.Call.perform source) calls
        ⟨host, Table.initial rows cols mode lookahead⟩).2
      last = Table.plain s ∧ (∀ kind, last.held.stock.countOf kind ≤ largest) ∧
        ((∀ entry ∈ made, entry.1.journaled.fillsWindow source.journaled entry.2 = true) →
          last.held.stock.liveCount + last.held.stock.pooledCount = largest) := by
  refine ⟨fun {E M} _ _ _ edit source model axis calls ↦ ?items,
    fun source rows cols calls ↦ ?cells⟩
  case items =>
    intro perform start s made largest last
    have hplain : last = Collection.plain s := Collection.runAll_recorded ..
    have hkinds : last.held.stock.kinds.Perm s.held.stock.kinds :=
      .of_eq (hplain ▸ ViewStock.kinds_bare s.held.stock)
    have hlast (needs : ViewKind → Prop) (hneeds : ∀ host index, needs (source.kind host index)) :=
      Collection.stocked_runAll needs hneeds edit host model axis mode lookahead calls
    refine ⟨hplain, ((hlast (fun _ ↦ True) fun _ _ ↦ trivial).1.perm hkinds).countOf_le,
      fun kind hone hfills ↦ ?_⟩
    obtain ⟨hstocked, hmade⟩ := hlast (· = kind) hone
    exact (hstocked.perm hkinds).count_eq_largest fun entry hentry ↦
      (hmade entry hentry (hfills entry hentry)).trans_eq hkinds.length_eq.symm
  case cells =>
    intro perform start s made largest last
    have hplain : last = Table.plain s := Table.runAll_recorded ..
    have hkinds : last.held.stock.kinds.Perm s.held.stock.kinds :=
      .of_eq (hplain ▸ ViewStock.kinds_bare s.held.stock)
    obtain ⟨hstocked, hmade⟩ :=
      Table.stocked_runAll (· = .only) rfl source host rows cols mode lookahead calls
    have hlast := hstocked.perm hkinds
    exact ⟨hplain, hlast.countOf_le, fun hfills ↦ hlast.count_eq_largest fun entry hentry ↦
      (hmade entry hentry (hfills entry hentry)).trans_eq hkinds.length_eq.symm⟩

set_option maxRecDepth 20000 in
/-- A list whose first pass was cut short, and then drops its views, has three of them after windows
of three and of two items; a table that scrolls past half a row has as many as its larger window. -/
theorem views_within_largest_window_rehearsal :
    (let source : ItemSource (Rehearsal Nat Nat) (BlankView Rat) := Rehearsal.itemCallbacks.toSource
      let host : Rehearsal Nat Nat :=
        { (Rehearsal.ofPoll 9 : Rehearsal Nat Nat) with bindFails := some 0 }
      let strip : Strip Rat := { Strip.empty with uniform := 10 }
      let calls : List (Collection.Call (Strip.Call Rat) (Rehearsal Nat Nat) (BlankView Rat) Rat) :=
        [.setViewportSize ⟨100, 45⟩, .layout, .destroyAll, .host ({ · with bindFails := none }),
          .setViewportSize ⟨100, 30⟩, .layout, .setViewportSize ⟨100, 15⟩, .layout]
      let last := (Step.runAll (Collection.Call.perform Strip.Call.perform source) calls
        ⟨host, Collection.initial strip .vertical .none 0⟩).2
      last.held.stock.liveCount + last.held.stock.pooledCount = 3) ∧
    (let source : TableSource (Rehearsal (Nat × Nat) CellId) (BlankView Rat) := Rehearsal.cells
      let strip : Strip Rat := { Strip.empty with uniform := 10 }
      let calls : List (Table.Call (Rehearsal (Nat × Nat) CellId) Rat) :=
        [.setViewportSize ⟨20, 20⟩, .layout, .scrollTo ⟨0, 5⟩, .layout, .scrollToTop, .layout]
      let last := (Step.runAll (Table.Call.perform source) calls
        ⟨Rehearsal.ofPoll (4, 4), Table.initial strip strip .none 0⟩).2
      last.held.stock.liveCount + last.held.stock.pooledCount = 6) := by
  refine ⟨?_, ?_⟩
  · intro source host strip calls
    let made := Step.since (Collection.Call.record Strip.Call.perform source)
      Collection.Call.isDestroyAll calls (Collection.recorded host strip .vertical .none 0) []
    have hmade : (∀ entry ∈ made, entry.1.journaled.fillsWindow Strip.Call.perform
          source.journaled entry.2 = true) ∧
        Step.largest (·.journaled.windowSize Strip.Call.perform source.journaled) made = 3 := by
      rw [← List.all_eq_true]
      decide +kernel
    have h := (views_within_largest_window host .none 0).1 Strip.Call.perform source strip .vertical
      calls
    exact (h.2.2 .only (fun _ _ ↦ rfl) hmade.1).trans hmade.2
  · intro source strip calls
    let made := Step.since (Table.Call.record source) Table.Call.isDestroyAll calls
      (Table.recorded (Rehearsal.ofPoll (4, 4)) strip strip .none 0) []
    have hmade : (∀ entry ∈ made, entry.1.journaled.fillsWindow source.journaled entry.2 = true) ∧
        Step.largest (·.journaled.windowSize source.journaled) made = 6 := by
      rw [← List.all_eq_true]
      decide +kernel
    have h := (views_within_largest_window (Rehearsal.ofPoll (4, 4)) .none 0).2 source strip strip
      calls
    exact (h.2.2 hmade.1).trans hmade.2

end Windowing
