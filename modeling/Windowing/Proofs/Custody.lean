import Windowing.Proofs.Collection.Coherence
import Windowing.Proofs.Table.Coherence

/-!
# Every view stays in custody

The host builds views and hands them over; from then on a collection or a table answers for them. At
the end of every call, also of one that a fault cut short, each view built since the last call that
dropped all views is in exactly one place, and the next call that drops all views counts them all.

## Main results

* `ViewStock.destroyAll_of_accounted` — dropping all views counts them all.
* `views_accounted_for` — no run of calls loses a view of a collection or of a table.
-/

namespace Windowing

/-- Dropping all views counts those built since number `base`, and leaves none. -/
theorem ViewStock.destroyAll_of_accounted {H K V S : Type} {base : Nat}
    {s : Hosted (Journal H K S) (ViewStock K (Tracked K V S) S)} (h : Accounted base s) :
    s.held.destroyAll.1 = s.host.created - base ∧ s.held.destroyAll.2.liveCount = 0 ∧
      s.held.destroyAll.2.pooledCount = 0 :=
  ⟨h.count_eq, rfl, rfl⟩

/-- After every run of calls on a collection or on a table, each view built since the last call that
dropped all views is in exactly one place: in use under one key, or in the pool of its kind. There
are no other views, the two counts add up to the number of views built, and a call that drops all
views now answers this number and leaves none. The run is recorded to say so, and ends where the run
without the record does. -/
theorem views_accounted_for {H V S : Type} [Scalar S] [ViewHandle H V S] (host : H)
    (mode : SelectionMode) (lookahead : Nat) :
    (∀ {E M : Type} [ExtentModel M S] [ResizableModel M S] [CrossPlacement M S]
      (edit : E → Step M (Reply S)) (source : ItemSource H V) (model : M) (axis : Axis)
      (calls : List (Collection.Call E H V S)),
      let perform := Collection.Call.record edit source
      let start := Collection.recorded host model axis mode lookahead
      let base := Step.lastMark perform Collection.Call.isDestroyAll (·.host.created) calls start 0
      let s := (Step.runAll perform calls start).2
      (Step.runAll (Collection.Call.perform edit source) calls
          ⟨host, Collection.initial model axis mode lookahead⟩).2 = Collection.plain s ∧
        ViewStock.Accounted base ⟨s.host, s.held.stock⟩ ∧
        ∃ t, perform .destroyAll s = .ok (.count (s.host.created - base)) t ∧
          t.held.stock.liveCount = 0 ∧ t.held.stock.pooledCount = 0) ∧
    ∀ (source : TableSource H V) (rows cols : Strip S) (calls : List (Table.Call H S)),
      let perform := Table.Call.record source
      let start := Table.recorded host rows cols mode lookahead
      let base := Step.lastMark perform Table.Call.isDestroyAll (·.host.created) calls start 0
      let s := (Step.runAll perform calls start).2
      (Step.runAll (Table.Call.perform source) calls
          ⟨host, Table.initial rows cols mode lookahead⟩).2 = Table.plain s ∧
        ViewStock.Accounted base ⟨s.host, s.held.stock⟩ ∧
        ∃ t, perform .destroyAll s = .ok (.count (s.host.created - base)) t ∧
          t.held.stock.liveCount = 0 ∧ t.held.stock.pooledCount = 0 := by
  refine ⟨fun {E M} _ _ _ edit source model axis calls ↦ ?items,
    fun source rows cols calls ↦ ?cells⟩
  case items =>
    intro perform start base s
    have hstart := Collection.recorded_coherent (V := V) host model axis mode lookahead
    have haccounted := (Collection.coherent_runAll edit source calls hstart).conserved.accounted
    obtain ⟨hcount, hnone⟩ := ViewStock.destroyAll_of_accounted haccounted
    refine ⟨Collection.runAll_recorded .., haccounted, ⟨s.host, s.held.destroyAll.2⟩, ?_, hnone⟩
    rw [← hcount]
    rfl
  case cells =>
    intro perform start base s
    have hstart := Table.recorded_coherent (V := V) host rows cols mode lookahead
    have haccounted := (Table.coherent_runAll source calls hstart).conserved.accounted
    obtain ⟨hcount, hnone⟩ := ViewStock.destroyAll_of_accounted haccounted
    refine ⟨Table.runAll_recorded .., haccounted, ⟨s.host, s.held.destroyAll.2⟩, ?_, hnone⟩
    rw [← hcount]
    rfl

end Windowing
