import Windowing.Collection.Call
import Windowing.Journal
import Windowing.Proofs.Ensures

/-!
# Recorded runs of collections

To say what happens to the views of a collection over a run of calls, the run is recorded: the
host writes a journal, and the views remember what they are told. A recorded call is the call
itself, made on the wrapped host and the wrapped views.

A call runs one pass at most, and a pass is the last thing that it does. So every call is a part
before the pass, which says whether a pass follows, and then the pass.

## Main definitions

* `Collection.initial` — a collection as it is built.
* `Collection.Call.record` — a recorded call.
* `Collection.Call.lead` — the part of a call before its pass.

## Main results

* `Collection.Call.after_perform` — a call is its part before the pass, and the pass.
* `Collection.Call.holds_after_perform` — so it keeps what both of them keep.
-/

namespace Windowing.Collection

variable {E H M V S : Type} [Scalar S] [ExtentModel M S]

/-- A collection as it is built, with the given mode of selection and number of look-ahead
tracks. -/
def initial (model : M) (axis : Axis) (mode : SelectionMode) (lookahead : Nat) :
    Collection M V S :=
  ((ofModel model axis).withSelectionMode mode).withLookahead lookahead

/-- A collection as it is built, beside a host of which nothing was recorded yet. -/
def recorded (host : H) (model : M) (axis : Axis) (mode : SelectionMode) (lookahead : Nat) :
    Hosted (Journal H Nat S) (Collection M (Tracked Nat V S) S) :=
  ⟨.ofHost host, initial model axis mode lookahead⟩

namespace Call

/-- The same call on a collection whose host writes a journal. -/
def journaled : Call E H V S → Call E (Journal H Nat S) (Tracked Nat V S) S
  | layout => layout
  | refreshAll => refreshAll
  | lengthChanged => lengthChanged
  | itemInvalidated index => itemInvalidated index
  | select index => select index
  | unselect index => unselect index
  | unselectAll => unselectAll
  | setSelectionMode mode => setSelectionMode mode
  | isSelected index => isSelected index
  | setViewportSize size => setViewportSize size
  | scrollTo offset => scrollTo offset
  | scrollBy delta => scrollBy delta
  | reveal index => reveal index
  | bring index align => bring index align
  | scrollToStart => scrollToStart
  | scrollToEnd => scrollToEnd
  | isFullyVisible index => isFullyVisible index
  | setItemExtent index extent => setItemExtent index extent
  | clearItemExtent index => clearItemExtent index
  | model call => model call
  | destroyAll => destroyAll
  | editView index change => editView index fun view ↦ { view with view := change view.view }
  | host change => host fun journal ↦ { journal with host := change journal.host }

/-- Whether the call drops every view. -/
def isDestroyAll : Call E H V S → Bool
  | destroyAll => true
  | _ => false

omit [Scalar S] in
theorem isDestroyAll_journaled (call : Call E H V S) :
    call.journaled.isDestroyAll = call.isDestroyAll := by
  cases call <;> rfl

variable [ResizableModel M S] [CrossPlacement M S] [ViewHandle H V S]

/-- Makes a call, and writes down what it does to the host and to the views. -/
def record (edit : E → Step M (Reply S)) (source : ItemSource H V) (call : Call E H V S) :
    Step (Hosted (Journal H Nat S) (Collection M (Tracked Nat V S) S)) (Answer S) :=
  call.journaled.perform edit source.journaled

/-- The part of a call before its pass; answers whether a pass is to follow. A call that runs no
pass is this part as a whole. -/
def lead (edit : E → Step M (Reply S)) (source : ItemSource H V) :
    Call E H V S → Step (Hosted H (Collection M V S)) Bool
  | layout => return true
  | refreshAll => do
    Hosted.onHeld (modify announceRefresh)
    return true
  | lengthChanged => do
    Hosted.onHeld (modify announceLength)
    return true
  | itemInvalidated index => return (← revise source index).2
  | select index => return (← aim source index).2
  | call => do
    let _ ← call.perform edit source
    return false

/-- A call does its part before the pass, and then the pass if one follows. -/
theorem after_perform (edit : E → Step M (Reply S)) (source : ItemSource H V)
    (call : Call E H V S) (s : Hosted H (Collection M V S)) :
    (call.perform edit source).after s =
      (do if ← call.lead edit source then let _ ← Collection.layout source :
        Step (Hosted H (Collection M V S)) Unit).after s := by
  refine Step.after_congr fun holds ↦ ?_
  cases call with
  | layout => simp [perform, lead]
  | refreshAll => simp [perform, lead, Collection.refreshAll]
  | lengthChanged => simp [perform, lead, Collection.lengthChanged]
  | itemInvalidated index => simp [perform, lead, Collection.itemInvalidated]
  | select index => simp [perform, lead, Collection.select]
  | _ => simp [lead]

variable {edit : E → Step M (Reply S)} {source : ItemSource H V} {call : Call E H V S}
  {s t u : Hosted H (Collection M V S)} {pass : Pass IndexRange Nat}

/-- A call that runs a pass does not drop all views. -/
theorem isDestroyAll_of_lead (hlead : call.lead edit source s = .ok true t) :
    call.isDestroyAll = false := by
  cases call with
  | destroyAll =>
    have hfollows := Step.eq_ok_iff.mp hlead
    simp [lead, perform] at hfollows
  | _ => rfl

/-- A call that runs a pass is not one on the model. -/
theorem ne_model_of_lead (hlead : call.lead edit source s = .ok true t) (e : E) :
    call ≠ .model e := by
  rintro rfl
  have hfollows := Step.eq_ok_iff.mp hlead
  simp only [lead, Step.ensures_bind, Step.ensures_pure, Bool.false_eq_true, false_and] at hfollows
  exact Step.ensures_iff_after.mp hfollows

/-- What the part of a call before its pass keeps, and the pass too, holds after the call. -/
theorem holds_after_perform {holds : Hosted H (Collection M V S) → Prop}
    (hlead : (call.lead edit source).Ensures s (fun _ ↦ holds) holds)
    (hlayout : ∀ t, holds t → (Collection.layout source).Ensures t (fun _ ↦ holds) holds) :
    holds ((call.perform edit source).after s) := by
  rw [after_perform]
  refine Step.ensures_iff_after.mp ?_
  simp only [Step.ensures_bind]
  refine hlead.mono (fun follows t ht ↦ ?_) fun _ ht ↦ ht
  cases follows with
  | false => exact ht
  | true =>
    simp only [if_true, Step.ensures_bind]
    exact (hlayout t ht).mono (fun _ _ hu ↦ hu) fun _ hu ↦ hu

/-- A call that runs a pass ends where the pass does. -/
theorem after_perform_eq_layout (hlead : call.lead edit source s = .ok true t) :
    (call.perform edit source).after s = (Collection.layout source).after t := by
  rw [after_perform, Step.after_bind, hlead]
  exact Step.after_bind_pure ..

/-- A call that runs no pass ends where its part before the pass does. -/
theorem after_perform_eq_lead (hlead : ∀ t, call.lead edit source s ≠ .ok true t) :
    (call.perform edit source).after s = (call.lead edit source).after s := by
  rw [after_perform, Step.after_bind, Step.after]
  cases hled : call.lead edit source s with
  | error fault t => rfl
  | ok follows t =>
    cases follows with
    | false => rfl
    | true => exact absurd hled (hlead t)

/-- A call whose pass is completed ends where the pass does. -/
theorem after_perform_of_lead (hlead : call.lead edit source s = .ok true t)
    (hpass : Collection.layout source t = .ok pass u) : (call.perform edit source).after s = u :=
  (after_perform_eq_layout hlead).trans (Step.after_of_eq_ok hpass)

end Call

end Windowing.Collection
