import Windowing.Journal
import Windowing.Proofs.Ensures
import Windowing.Table.Call

/-!
# Recorded runs of tables

As for collections, a run of calls on a table is recorded by a host that writes a journal and views
that remember what they are told, and every call is a part before the pass and then the pass, if one
follows.

## Main definitions

* `Table.initial` — a table as it is built.
* `Table.Call.record` — a recorded call.
* `Table.Call.lead` — the part of a call before its pass.

## Main results

* `Table.Call.after_perform` — a call is its part before the pass, and the pass.
* `Table.Call.holds_after_perform` — so it keeps what both of them keep.
-/

namespace Windowing.Table

variable {H V S : Type} [Scalar S]

/-- A table as it is built, with the given mode of selection and number of look-ahead rows and
columns. -/
def initial (rows cols : Strip S) (mode : SelectionMode) (lookahead : Nat) : Table V S :=
  ((ofModels rows cols).withSelectionMode mode).withLookahead lookahead

/-- A table as it is built, beside a host of which nothing was recorded yet. -/
def recorded (host : H) (rows cols : Strip S) (mode : SelectionMode) (lookahead : Nat) :
    Hosted (Journal H CellId S) (Table (Tracked CellId V S) S) :=
  ⟨.ofHost host, initial rows cols mode lookahead⟩

namespace Call

/-- The same call on a table whose host writes a journal. -/
def journaled : Call H S → Call (Journal H CellId S) S
  | layout => layout
  | refreshAll => refreshAll
  | dimensionsChanged => dimensionsChanged
  | cellInvalidated cell => cellInvalidated cell
  | select cell => select cell
  | unselect cell => unselect cell
  | unselectAll => unselectAll
  | isSelected cell => isSelected cell
  | setViewportSize size => setViewportSize size
  | scrollTo offset => scrollTo offset
  | reveal cell => reveal cell
  | scrollToTop => scrollToTop
  | scrollToBottom => scrollToBottom
  | scrollToLeading => scrollToLeading
  | scrollToTrailing => scrollToTrailing
  | setRowHeight row height => setRowHeight row height
  | setColumnWidth col width => setColumnWidth col width
  | destroyAll => destroyAll
  | host change => host fun journal ↦ { journal with host := change journal.host }

/-- Whether the call drops every view. -/
def isDestroyAll : Call H S → Bool
  | destroyAll => true
  | _ => false

omit [Scalar S] in
theorem isDestroyAll_journaled (call : Call H S) :
    call.journaled.isDestroyAll = call.isDestroyAll := by
  cases call <;> rfl

variable [ViewHandle H V S]

/-- Makes a call, and writes down what it does to the host and to the views. -/
def record (source : TableSource H V) (call : Call H S) :
    Step (Hosted (Journal H CellId S) (Table (Tracked CellId V S) S)) Answer :=
  call.journaled.perform source.journaled

/-- The part of a call before its pass; answers whether a pass is to follow. A call that runs no
pass is this part as a whole. -/
def lead (source : TableSource H V) : Call H S → Step (Hosted H (Table V S)) Bool
  | layout => return true
  | refreshAll => do
    Hosted.onHeld (modify announceRefresh)
    return true
  | dimensionsChanged => do
    Hosted.onHeld (modify announceDimensions)
    return true
  | select cell => return (← aim source cell).2
  | call => do
    let _ ← call.perform source
    return false

/-- A call does its part before the pass, and then the pass if one follows. -/
theorem after_perform (source : TableSource H V) (call : Call H S) (s : Hosted H (Table V S)) :
    (call.perform source).after s =
      (do if ← call.lead source then let _ ← Table.layout source :
        Step (Hosted H (Table V S)) Unit).after s := by
  refine Step.after_congr fun holds ↦ ?_
  cases call with
  | layout => simp [perform, lead]
  | refreshAll => simp [perform, lead, Table.refreshAll]
  | dimensionsChanged => simp [perform, lead, Table.dimensionsChanged]
  | select cell => simp [perform, lead, Table.select]
  | _ => simp [lead]

variable {source : TableSource H V} {call : Call H S} {s t u : Hosted H (Table V S)}
  {pass : Pass TableWindow CellId}

/-- A call that runs a pass does not drop all views. -/
theorem isDestroyAll_of_lead (hlead : call.lead source s = .ok true t) :
    call.isDestroyAll = false := by
  cases call with
  | destroyAll =>
    have hfollows := Step.eq_ok_iff.mp hlead
    simp [lead, perform] at hfollows
  | _ => rfl

/-- What the part of a call before its pass keeps, and the pass too, holds after the call. -/
theorem holds_after_perform {holds : Hosted H (Table V S) → Prop}
    (hlead : (call.lead source).Ensures s (fun _ ↦ holds) holds)
    (hlayout : ∀ t, holds t → (Table.layout source).Ensures t (fun _ ↦ holds) holds) :
    holds ((call.perform source).after s) := by
  rw [after_perform]
  refine Step.ensures_iff_after.mp ?_
  simp only [Step.ensures_bind]
  refine hlead.mono (fun follows t ht ↦ ?_) fun _ ht ↦ ht
  cases follows with
  | false => exact ht
  | true =>
    simp only [if_true, Step.ensures_bind]
    exact (hlayout t ht).mono (fun _ _ hu ↦ hu) fun _ hu ↦ hu

/-- A call that runs a pass ends where the pass does. -/
theorem after_perform_eq_layout (hlead : call.lead source s = .ok true t) :
    (call.perform source).after s = (Table.layout source).after t := by
  rw [after_perform, Step.after_bind, hlead]
  exact Step.after_bind_pure ..

/-- A call that runs no pass ends where its part before the pass does. -/
theorem after_perform_eq_lead (hlead : ∀ t, call.lead source s ≠ .ok true t) :
    (call.perform source).after s = (call.lead source).after s := by
  rw [after_perform, Step.after_bind, Step.after]
  cases hled : call.lead source s with
  | error fault t => rfl
  | ok follows t =>
    cases follows with
    | false => rfl
    | true => exact absurd hled (hlead t)

/-- A call whose pass is completed ends where the pass does. -/
theorem after_perform_of_lead (hlead : call.lead source s = .ok true t)
    (hpass : Table.layout source t = .ok pass u) : (call.perform source).after s = u :=
  (after_perform_eq_layout hlead).trans (Step.after_of_eq_ok hpass)

end Call

end Windowing.Table
