import Windowing.Proofs.Collection.Viewports
import Windowing.Proofs.Showing

/-!
# A collection shows the item that it was asked for

A collection that was asked to show an item remembers it until the next pass, through everything
that neither scrolls nor runs a pass. The pass makes the request again once it knows how many items
there are, so it shows the item also if the source has gained it since, or the last one if the
source does not have it.

## Main definitions

* `Collection.Call.leavesRequest` — calls that neither scroll nor run a pass.

## Main results

* `Collection.pending_runAll` — a request stays pending over such calls.
* `Collection.layout_shows`, `Collection.shows_of_reveal` — a pass shows the item that was asked
  for.
-/

namespace Windowing.Collection

/-- Whether a call leaves a scroll request pending: it neither scrolls nor can it run a pass. -/
def Call.leavesRequest {E H V S : Type} : Call E H V S → Bool
  | layout | refreshAll | lengthChanged | itemInvalidated _ | select _ => false
  | scrollTo _ | scrollBy _ | reveal _ | bring _ _ | scrollToStart | scrollToEnd => false
  | _ => true

section Pending

variable {E H M V S : Type} [Scalar S] [ExtentModel M S] {request : ScrollRequest S}
  {s : Hosted H (Collection M V S)}

/-- A request is pending as soon as it is made, whether or not the model has the item. -/
theorem requestScroll_pending (request : ScrollRequest S) (items : Collection M V S) :
    (requestScroll request).Ensures items (fun _ t ↦ t.pending = some request)
      fun t ↦ t.pending = some request := by
  refine (requestScroll_spec request items).mono ?_ ?_
  · rintro _ _ ⟨viewport, -, rfl⟩
    rfl
  · rintro _ rfl
    rfl

variable [ResizableModel M S] [CrossPlacement M S]

omit [ResizableModel M S] in
theorem pending_setViewportSize (size : Size S) {items : Collection M V S}
    (h : items.pending = some request) :
    (items.setViewportSize size).1.pending = some request := by
  have hkept {first : ScrollRequest S} : some (items.pending.getD first) = some request := by
    rw [h, Option.getD_some]
  rw [setViewportSize]
  by_cases hcross : Scalar.eq (items.axis.split size).2 items.crossExtent = true
  · simp only [if_pos hcross]
    split
    · exact hkept
    · exact h
  · simp only [if_neg hcross, Bool.or_true, if_true]
    exact hkept

variable [ViewHandle H V S]

omit [Scalar S] [ExtentModel M S] [ResizableModel M S] [CrossPlacement M S] in
theorem changeSelection_pending
    (change : Selection Nat → Selection Nat × List (Selection.Change Nat))
    (h : s.held.pending = some request) :
    (changeSelection change).Ensures s (fun _ t ↦ t.held.pending = some request)
      fun t ↦ t.held.pending = some request := by
  simp only [changeSelection, onStock, Step.ensures_bind, Step.ensures_onHeld,
    Step.ensures_modifyGet, Step.ensures_onPart, Step.ensures_pure]
  exact Step.ensures_of_forall (fun _ _ ↦ h) fun _ ↦ h

theorem perform_pending (edit : E → Step M (Reply S)) (source : ItemSource H V)
    {call : Call E H V S} (hcall : call.leavesRequest = true) (h : s.held.pending = some request) :
    (call.perform edit source).Ensures s (fun _ t ↦ t.held.pending = some request)
      fun t ↦ t.held.pending = some request := by
  cases call
  case layout | refreshAll | lengthChanged | itemInvalidated | select => cases hcall
  case scrollTo | scrollBy | reveal | bring | scrollToStart | scrollToEnd => cases hcall
  all_goals simp only [Call.perform, Step.ensures_bind, Step.ensures_pure]
  case unselect index => exact changeSelection_pending _ h
  case unselectAll => exact changeSelection_pending _ h
  case setSelectionMode mode => exact changeSelection_pending _ h
  case isSelected index => exact h
  case setViewportSize size => exact pending_setViewportSize size h
  case isFullyVisible index =>
    simp only [Step.ensures_get, Step.ensures_ofExcept]
    split <;> exact h
  case setItemExtent index extent =>
    simp only [scrolling, setItemExtent, setItemExtent.onViewport, Step.ensures_bind,
      Step.ensures_onHeld, Step.ensures_within, Step.ensures_ite, Step.ensures_modify,
      Step.ensures_pure]
    exact Step.ensures_of_forall (fun _ _ ↦ by split <;> exact h) fun _ ↦ h
  case clearItemExtent index =>
    change (clearItemExtent index s.held).1.pending = some request
    rw [clearItemExtent]
    dsimp only
    split <;> exact h
  case model e =>
    simp only [Step.ensures_onHeld, onModel, Step.ensures_bind, Step.ensures_modify,
      Step.ensures_within]
    exact Step.ensures_of_forall (fun _ _ ↦ h) fun _ ↦ h
  case destroyAll => exact h
  case editView index change =>
    simp only [onStock, Step.ensures_onPart]
    exact Step.ensures_of_forall (fun _ _ ↦ h) fun _ ↦ h
  case host change => exact h

/-- An item that a collection was asked to show stays asked for over calls that neither scroll nor
run a pass. -/
theorem pending_runAll (edit : E → Step M (Reply S)) (source : ItemSource H V) (index : Nat)
    {between : List (Call E H V S)} (hbetween : ∀ call ∈ between, call.leavesRequest = true)
    (s : Hosted H (Collection M V S)) :
    (Step.runAll (Call.perform edit source) (.reveal index :: between) s).2.held.pending =
      some (.item index .nearest) := by
  have hasked : ((Call.reveal index).perform edit source).Ensures s
      (fun _ t ↦ t.held.pending = some (.item index .nearest))
      fun t ↦ t.held.pending = some (.item index .nearest) := by
    simp only [Call.perform, scrolling, Step.ensures_bind, Step.ensures_onHeld, Step.ensures_pure]
    exact requestScroll_pending _ s.held
  have hkept (call : Call E H V S) (hcall : call ∈ between) (t : Hosted H (Collection M V S))
      (ht : t.held.pending = some (.item index .nearest)) :
      ((call.perform edit source).after t).held.pending = some (.item index .nearest) :=
    Step.ensures_iff_after.mp (perform_pending edit source (hbetween call hcall) ht)
  rw [Step.runAll]
  exact Step.holds_runAll _ hkept (Step.ensures_iff_after.mp hasked)

end Pending

/-! ### The pass -/

variable {H M V : Type} [ExtentModel M Rat] [ResizableModel M Rat] [CrossPlacement M Rat]
  [LawfulCount M] {holds : M → Prop} {index : Nat}

/-- The part of a pass that concerns scrolling shows the item asked for, or the last one. -/
theorem approach_shows (hkeeps : ExtentModel.KeepsOrder holds) {len : Nat} (hlen : 0 < len)
    {items : Collection M V Rat} (h : items.viewport.Fresh ∧ holds items.model)
    (hpending : items.pending = some (.item index .nearest)) :
    (approach len).Ensures items
      (fun answer t ↦ t.viewport.Shows answer.1.toIndexRange (min index (len - 1)))
      fun _ ↦ True := by
  have hsynced := syncLength_viewport
    (Viewport.upheld_fresh.and hkeeps.toUpheld.viewport).passKeeps len h
  have hcount : ExtentModel.len (items.syncLength len).1.viewport.model = len :=
    len_syncLength len items
  have hasked : (items.syncLength len).1.pending = some (.item index .nearest) := by
    rw [syncLength]
    split <;> exact hpending
  simp only [approach, applyPending, Step.ensures_bind, Step.ensures_modify, Step.ensures_modifyGet,
    Step.ensures_get, Prod.snd_swap, hasked, Step.ensures_ofExcept, Step.ensures_pure]
  split
  · next moved hmoved =>
    have hshows := Viewport.shows_window hkeeps hsynced (hcount.symm ▸ hlen) hmoved
    rwa [Viewport.broughtItem, hcount] at hshows
  · trivial

/-- A pass of a collection with items shows the item that was asked for, or the last one. -/
theorem layout_shows [ViewHandle H V Rat] (hkeeps : ExtentModel.KeepsOrder holds)
    (source : ItemSource H V) {s : Hosted H (Collection M V Rat)}
    (h : s.held.viewport.Fresh ∧ holds s.held.model)
    (hpending : s.held.pending = some (.item index .nearest)) (hlen : 0 < (source.len s.host).1) :
    (layout source).Ensures s
      (fun pass t ↦ t.held.viewport.Shows pass.window (min index ((source.len s.host).1 - 1)))
      fun _ ↦ True := by
  have happroach : (approach (source.len s.host).1).Ensures s.held.openPass _ _ :=
    approach_shows hkeeps hlen h hpending
  refine layout_of_prepare (ensures_prepare.mpr ?_)
  exact happroach.mono (fun _ _ ht ↦ ⟨fun _ _ _ ↦ ht, fun _ _ ↦ trivial⟩) fun _ _ ↦ trivial

/-- After every run of calls, a pass of a collection with items shows the item that the collection
was last asked for, or the last one, if no call since has scrolled or can have run a pass. -/
theorem shows_of_reveal {E : Type} [ViewHandle H V Rat] (hkeeps : ExtentModel.KeepsOrder holds)
    {edit : E → Step M (Reply Rat)}
    (hedit : ∀ e model, holds model → (edit e).Ensures model (fun _ ↦ holds) holds)
    (source : ItemSource H V) (host : H) {model : M} (hmodel : holds model) (axis : Axis)
    (mode : SelectionMode) (lookahead : Nat) (calls : List (Call E H V Rat)) (index : Nat)
    {between : List (Call E H V Rat)} (hbetween : ∀ call ∈ between, call.leavesRequest = true)
    {pass : Pass IndexRange Nat} {t : Hosted H (Collection M V Rat)} :
    let before :=
      (Step.runAll (Call.perform edit source) calls ⟨host, initial model axis mode lookahead⟩).2
    let s := (Step.runAll (Call.perform edit source) (.reveal index :: between) before).2
    layout source s = .ok pass t → 0 < (source.len s.host).1 →
      t.held.viewport.Shows pass.window (min index ((source.len s.host).1 - 1)) := by
  intro before s hpass hlen
  have hbefore := fresh_runAll hkeeps.toUpheld source calls (fun e _ ↦ hedit e)
    (s := ⟨host, initial model axis mode lookahead⟩) (fresh_initial hmodel axis mode lookahead)
  have hs := fresh_runAll hkeeps.toUpheld source (.reveal index :: between) (fun e _ ↦ hedit e)
    hbefore
  have hpending := pending_runAll edit source index hbetween before
  exact (layout_shows hkeeps source hs hpending hlen).of_ok hpass

end Windowing.Collection
