import Windowing.Proofs.Collection.Leads
import Windowing.Proofs.Reports

/-!
# The selection of a collection over a run

A collection changes its selection by the operations of the selection only, and its passes drop
from it what the source has lost. Nothing else touches the selection, so what the operations keep
holds of it after any run of calls, however each of them ends. In particular the list of the
selected items and the set of them agree at any time.

## Main definitions

* `Selection.Upheld` — a property that every operation on a selection keeps.

## Main results

* `Collection.selectionHas_runAll` — a run keeps such a property.
* `Collection.selection_sound` — the list and the set of the selected items agree.
-/

namespace Windowing

namespace Selection

variable {K : Type} [BEq K] [Hashable K] {holds : Selection K → Prop} {selection : Selection K}

/-- Every operation on a selection keeps the property. -/
def Upheld (holds : Selection K → Prop) : Prop :=
  ∀ (call : Call K) {selection : Selection K}, holds selection → holds (call.perform selection).1

theorem upheld_sound [LawfulBEq K] : Upheld (Sound : Selection K → Prop) :=
  fun call _ h ↦ (call.perform_moves h).sound

end Selection

namespace Collection

variable {E H M V S : Type} [Scalar S] [ExtentModel M S]

/-- The selection of the collection has a property. -/
def SelectionHas (holds : Selection Nat → Prop) (s : Hosted H (Collection M V S)) : Prop :=
  holds s.held.selection

variable {holds : Selection Nat → Prop} {items : Collection M V S}
  {s : Hosted H (Collection M V S)}

variable [ViewHandle H V S]

section Upheld

variable (hupheld : Selection.Upheld holds)

include hupheld

variable [ResizableModel M S] [CrossPlacement M S]

omit [CrossPlacement M S] [ViewHandle H V S] in
theorem syncLength_selection (len : Nat) (h : holds items.selection) :
    holds (items.syncLength len).1.selection := by
  rw [syncLength]
  split
  · exact hupheld (.retain (Bounded.inBounds len)) h
  · exact h

omit [ViewHandle H V S] in
theorem aimed_selection {len index : Nat} {after : Collection M V S} (h : holds items.selection)
    (haimed : Aimed len index items after) : holds after.selection := by
  have hselected := hupheld (.select (Bounded.inBounds len) index) h
  cases haimed with
  | ignored stock hafter => exact hafter ▸ h
  | scrolled stock hlen hrolls => exact hrolls.selection_eq ▸ hselected
  | adopted stock hrolls =>
    rw [hrolls.selection_eq]
    exact hupheld (.retain (Bounded.inBounds len)) hselected

/-- The part of a call before its pass keeps the property. -/
theorem lead_selectionHas (edit : E → Step M (Reply S)) (source : ItemSource H V)
    (call : Call E H V S) (h : SelectionHas holds s) :
    (call.lead edit source).Ensures s (fun _ ↦ SelectionHas holds) (SelectionHas holds) := by
  have haside {items : Collection M V S} (haside : s.held.Aside items) : holds items.selection :=
    haside.selection_eq ▸ h
  have hkeeps : call.LeadKeeps edit source (SelectionHas holds) s := by
    refine .ofHeld (fun items ↦ holds items.selection) (fun hrolls ↦ haside hrolls.toAside)
      (fun e _ ↦ ?model) (fun change _ _ ↦ hupheld change h) (fun index _ ↦ ?aim) fun _ _ ↦ h
    case model =>
      exact (onModel_ensures (edit e) s.held).mono (fun _ _ ↦ haside) fun _ ↦ haside
    case aim =>
      exact (aim_spec source index).mono (fun _ _ ↦ aimed_selection hupheld h)
        fun _ ↦ aimed_selection hupheld h
  exact hkeeps.ensures

theorem layout_selectionHas (source : ItemSource H V) (h : SelectionHas holds s) :
    (layout source).Ensures s (fun _ ↦ SelectionHas holds) (SelectionHas holds) := by
  have hopened : holds s.held.openPass.selection := h
  have hsynced := syncLength_selection hupheld (source.len s.host).1 hopened
  have hkept {t : Hosted H (Collection M V S)}
      (ht : Aside (s.held.openPass.syncLength (source.len s.host).1).1 t.held) :
      SelectionHas holds t := by
    rw [SelectionHas, ht.selection_eq]
    exact hsynced
  refine layout_of_prepare ((prepare_aside source s).mono (fun _ _ ht ↦ ?_) fun _ ht ↦ hkept ht.2)
  have hprepared := hkept ht.2
  exact ⟨fun _ _ _ ↦ hprepared, fun _ _ ↦ hprepared⟩

/-- A run keeps what every operation on a selection does. -/
theorem selectionHas_runAll (edit : E → Step M (Reply S)) (source : ItemSource H V)
    (calls : List (Call E H V S)) (h : SelectionHas holds s) :
    SelectionHas holds (Step.runAll (Call.perform edit source) calls s).2 := by
  refine Step.holds_runAll (SelectionHas holds) (fun call _ t ht ↦ ?_) h
  exact Call.holds_after_perform (lead_selectionHas hupheld edit source call ht) fun _ ↦
    layout_selectionHas hupheld source

end Upheld

/-- After any run of calls, also where calls are cut short, no item is listed twice as selected, and
the items listed are those that are looked up as selected. -/
theorem selection_sound [ResizableModel M S] [CrossPlacement M S] (edit : E → Step M (Reply S))
    (source : ItemSource H V) (host : H) (model : M) (axis : Axis) (mode : SelectionMode)
    (lookahead : Nat) (calls : List (Call E H V S)) :
    (Step.runAll (Call.perform edit source) calls
      ⟨host, initial model axis mode lookahead⟩).2.held.selection.Sound :=
  selectionHas_runAll Selection.upheld_sound edit source calls (Selection.sound_ofMode mode)

end Collection

end Windowing
