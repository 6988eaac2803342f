import Windowing.Proofs.Collection.Coherence
import Windowing.Proofs.Collection.Viewports
import Windowing.Proofs.Extent.Measured
import Windowing.Proofs.Faults

/-!
# What cuts a call on a collection short

Over a model that is never at a loss, and with finite extents, the scrolling and the edits of a call
are completed. What is left is the work on views, and there the bookkeeping holds: between any two
calls the collection is coherent, also after a call that was cut short. So a call ends with a fault
only if the source raised it.

## Main definitions

* `Collection.Call.extents` — the extents that a call hands over.

## Main results

* `Collection.layout_faultsOnly` — a pass is cut short by the source only.
* `Collection.raises_of_mem_runAll` — and so is every call of a run.
-/

namespace Windowing.Collection

variable {E H M V S : Type}

namespace Call

/-- The extents that a call hands over, where `of` says which ones a call on the model does. -/
def extents (of : E → List S) : Call E H V S → List S
  | setItemExtent _ extent => [extent]
  | model e => of e
  | _ => []

theorem extents_journaled (of : E → List S) (call : Call E H V S) :
    call.journaled.extents of = call.extents of := by
  cases call <;> rfl

theorem eq_model_of_journaled {call : Call E H V S} {e : E} (h : call.journaled = .model e) :
    call = .model e := by
  cases call with
  | model e' =>
    cases h
    rfl
  | _ => cases h

end Call

variable [Scalar S] [ExtentModel M S] [ResizableModel M S] [CrossPlacement M S] {holds : M → Prop}
  (hmeasured : ExtentModel.Measured holds)

section Plain

variable {items : Collection M V S} {s : Hosted H (Collection M V S)}

include hmeasured

/-! ### Scrolling and edits -/

theorem requestScroll_answers (request : ScrollRequest S) (h : holds items.model) :
    (requestScroll request).Ensures items (fun _ _ ↦ True) fun _ ↦ False := by
  obtain ⟨moved, hmoved⟩ := request.apply_answers fun index _ ↦ hmeasured.extentOf_ok h index
  simp only [requestScroll, Step.ensures_bind, Step.ensures_modify, Step.ensures_get,
    Step.ensures_ofExcept]
  rw [hmoved]
  trivial

theorem applyPending_answers (h : holds items.model) :
    applyPending.Ensures items (fun _ _ ↦ True) fun _ ↦ False := by
  simp only [applyPending, Step.ensures_bind, Step.ensures_get]
  cases items.pending with
  | none => trivial
  | some request =>
    obtain ⟨moved, hmoved⟩ := request.apply_answers fun index _ ↦ hmeasured.extentOf_ok h index
    simp only [Step.ensures_bind, Step.ensures_modify, Step.ensures_get, Step.ensures_ofExcept]
    rw [hmoved]
    trivial

theorem setItemExtent_answers (index : Nat) {extent : S} (hfinite : Scalar.isFinite extent = true)
    (h : holds items.model) :
    (setItemExtent index extent).Ensures items (fun _ _ ↦ True) fun _ ↦ False := by
  simp only [setItemExtent, setItemExtent.onViewport, Viewport.onModel, Step.ensures_bind,
    Step.ensures_within]
  refine (hmeasured.setItemExtent_answers index hfinite h).mono (fun applied _ _ ↦ ?_) fun _ ↦ id
  cases applied with
  | false => trivial
  | true => trivial

theorem prepare_answers (source : ItemSource H V) (h : ModelHas holds s) :
    (prepare source).Ensures s (fun _ _ ↦ True) fun _ ↦ False := by
  rw [ensures_prepare]
  simp only [approach, Step.ensures_bind, Step.ensures_modify, Step.ensures_modifyGet]
  have hopened : holds s.held.openPass.model := h
  have hsynced :=
    syncLength_viewport hmeasured.toUpheld.viewport.passKeeps (source.len s.host).1 hopened
  exact applyPending_answers hmeasured hsynced

variable [ViewHandle H V S]

theorem aim_answers (source : ItemSource H V) (index : Nat) (h : ModelHas holds s) :
    (aim source index).Ensures s (fun _ _ ↦ True) fun _ ↦ False := by
  simp only [aim, pollLength, Step.ensures_bind, Step.ensures_onHost, Step.ensures_modifyGet]
  refine (changeSelection_spec _).mono (fun changes t hchanged ↦ ?_) fun _ ↦ id
  obtain ⟨-, stock, ht⟩ := hchanged
  have hmodel : holds t.held.model := by
    rw [ht]
    exact h
  simp only [Step.ensures_ite, Step.ensures_pure, Step.ensures_bind, Step.ensures_onHeld,
    Step.ensures_modifyGet]
  split
  · trivial
  · split
    · exact requestScroll_answers hmeasured _
        (adoptLength_viewport hmeasured.toUpheld.viewport.passKeeps _ hmodel)
    · exact requestScroll_answers hmeasured _ hmodel

/-! ### The part of a call before its pass -/

/-- Before its pass, a call with finite extents is cut short by the source only. -/
theorem lead_faultsOnly {edit : E → Step M (Reply S)} {source : ItemSource H V}
    {blamed : Fault → Prop} (hsource : source.views.FaultsOnly blamed) {of : E → List S}
    {call : Call E H V S}
    (hedit : ∀ e, call = .model e → ∀ model, holds model →
      (edit e).Ensures model (fun _ ↦ holds) fun _ ↦ False)
    (hfinite : ∀ extent ∈ call.extents of, Scalar.isFinite extent = true)
    (h : ModelHas holds s) :
    (call.lead edit source).FaultsOnly blamed s fun _ _ ↦ True := by
  have hscroll {step : Step (Collection M V S) Bool}
      (hstep : step.Ensures s.held (fun _ _ ↦ True) fun _ ↦ False) :
      (scrolling (H := H) step).Ensures s (fun _ _ ↦ True) fun _ ↦ False := by
    simpa only [scrolling, Step.ensures_bind, Step.ensures_onHeld, Step.ensures_pure] using hstep
  have hrequest (request : ScrollRequest S) := hscroll (requestScroll_answers hmeasured request h)
  cases call
  case itemInvalidated index =>
    simp only [Call.lead, revise, Step.faultsOnly_bind, Step.faultsOnly_get]
    cases s.held.stock.kindOf? index with
    | none => trivial
    | some live =>
      simp only [Step.faultsOnly_ite, Step.faultsOnly_bind, Step.faultsOnly_get, onStock,
        Step.faultsOnly_onPart]
      split
      · exact (ViewStock.refill_faultsOnly hsource _).mono fun _ _ _ ↦ trivial
      · trivial
  case layout => trivial
  case refreshAll => trivial
  case lengthChanged => trivial
  -- The source fills no view in any other call before its pass.
  all_goals
    refine Step.Ensures.faultsOnly ?_
    simp only [Call.lead, Call.perform, Step.ensures_bind, Step.ensures_pure]
  case select index => exact aim_answers hmeasured source index h
  case unselect index => exact (changeSelection_spec _).mono (fun _ _ _ ↦ trivial) fun _ ↦ id
  case unselectAll => exact (changeSelection_spec _).mono (fun _ _ _ ↦ trivial) fun _ ↦ id
  case setSelectionMode mode => exact (changeSelection_spec _).mono (fun _ _ _ ↦ trivial) fun _ ↦ id
  case isSelected index => trivial
  case setViewportSize size => trivial
  case scrollTo offset => exact hrequest _
  case scrollBy delta =>
    refine hscroll ?_
    simp only [Collection.scrollBy, Step.ensures_bind, Step.ensures_get]
    exact requestScroll_answers hmeasured _ h
  case reveal index => exact hrequest _
  case bring index align => exact hrequest _
  case scrollToStart => exact hrequest _
  case scrollToEnd => exact hrequest _
  case isFullyVisible index =>
    obtain ⟨visible, hvisible⟩ :=
      Viewport.isFullyVisible_answers (fun index _ ↦ hmeasured.extentOf_ok h index) index
    simp only [Step.ensures_get, Step.ensures_ofExcept]
    rw [hvisible]
    trivial
  case setItemExtent index extent =>
    exact hscroll (setItemExtent_answers hmeasured index (hfinite extent (.head _)) h)
  case clearItemExtent index => trivial
  case model e =>
    simp only [onModel, Viewport.onModel, Step.ensures_onHeld, Step.ensures_bind,
      Step.ensures_modify, Step.ensures_within]
    exact (hedit e rfl _ h).mono (fun _ _ _ ↦ trivial) fun _ ↦ id
  case destroyAll => trivial
  case editView index change =>
    simp only [onStock, Step.ensures_onPart, ViewStock.ensures_onLive, Step.ensures_modify]
    split <;> trivial
  case host change => trivial

end Plain

/-! ### A pass -/

section Recorded

variable [ViewHandle H V S] {blamed : Fault → Prop} {base : Nat} {source : ItemSource H V}
  {s : Hosted (Journal H Nat S) (Collection M (Tracked Nat V S) S)}

omit [ResizableModel M S] [ViewHandle H V S] in
theorem placement_ok {items : Collection M V S}
    (h : ∀ index, ∃ extent, ExtentModel.extentOf items.model index = .ok extent) (index : Nat) :
    ∃ rect, items.placement index = .ok rect := by
  obtain ⟨extent, hextent⟩ := h index
  exact ⟨_, by rw [placement, hextent]; rfl⟩

/-- The host and its views where the turns of a pass begin: the views that are to go went to their
pools. -/
def cleared (window : VisibleWindow S)
    (s : Hosted (Journal H Nat S) (Collection M (Tracked Nat V S) S)) :
    Hosted (Journal H Nat S) (ViewStock Nat (Tracked Nat V S) S) :=
  ⟨s.host, s.held.stock.vacated s.held.due.rebind
    (IndexRange.leaving s.held.window.toIndexRange window.toIndexRange) window.contains⟩

omit [ResizableModel M S] in
/-- What cuts the work of a pass on views short is what cuts the turns of the items short. -/
theorem realize_faultsOnly {window : VisibleWindow S} (hcoherent : Coherent base s)
    (horderly : s.held.due.rebind = false → Orderly s)
    (hturns : (ViewStock.realizeAll source.journaled.views (s.held.layoutFor s.held.due)
      window.toList).FaultsOnly blamed (cleared window s) fun _ _ ↦ True) :
    (realize source.journaled window).FaultsOnly blamed s fun _ _ ↦ True := by
  simp only [realize, onStock, Step.faultsOnly_bind, Step.faultsOnly_get, Step.faultsOnly_onHeld,
    Step.faultsOnly_modify, Step.faultsOnly_onPart]
  let step := ViewStock.follow (source.journaled (S := S)).views (s.held.layoutFor s.held.due)
    (IndexRange.leaving s.held.window.toIndexRange window.toIndexRange) window.toList
    window.contains
  have hfollow : step.FaultsOnly blamed ⟨s.host, s.held.stock⟩ _ :=
    ViewStock.follow_faultsOnly_of_realizeAll source.journals_views (List.nodup_range' ..)
      (fun _ ↦ IndexRange.contains_iff_mem_toList)
      (fun _ ↦ IndexRange.not_mem_toList_of_mem_leaving) hcoherent.conserved
      (fun hrebind ↦ tidy_of_orderly (horderly hrebind) window) hturns
  exact hfollow.mono fun _ _ _ ↦ trivial

include hmeasured

/-- A pass of a coherent collection is cut short by the source only. -/
theorem layout_faultsOnly (hsource : source.views.FaultsOnly blamed) (hcoherent : Coherent base s)
    (h : ModelHas holds s) :
    (layout source.journaled).FaultsOnly blamed s fun _ _ ↦ True := by
  have hprepared := (prepare_ensures source hcoherent).and
    (prepare_viewport hmeasured.toUpheld.viewport.passKeeps source.journaled h)
  simp only [layout, Step.faultsOnly_bind]
  refine ((prepare_answers hmeasured source.journaled h).faultsOnly.and_ensures hprepared).mono
    fun answer t ht ↦ ?_
  obtain ⟨-, ⟨hcoherent, -, horderly, -⟩, hmodel⟩ := ht
  refine (realize_faultsOnly hcoherent horderly ?_).mono fun _ _ _ ↦ trivial
  exact ViewStock.realizeAll_faultsOnly source.journals_views
    (ItemSource.faultsOnly_journaled hsource) (hcoherent.conserved.foldl_released _)
    fun index _ ↦ placement_ok (hmeasured.extentOf_ok hmodel) index

/-! ### Runs -/

omit hmeasured in
/-- What cuts a call short is what cuts its part before the pass short, or the pass. -/
theorem Call.faultsOnly_perform {edit : E → Step M (Reply S)} {source : ItemSource H V}
    {s : Hosted H (Collection M V S)} (call : Call E H V S) :
    (call.perform edit source).FaultsOnly blamed s (fun _ _ ↦ True) ↔
      (call.lead edit source).FaultsOnly blamed s fun follows t ↦
        if follows then (Collection.layout source).FaultsOnly blamed t fun _ _ ↦ True
        else True := by
  cases call with
  | layout => simp [perform, lead]
  | refreshAll => simp [perform, lead, Collection.refreshAll]
  | lengthChanged => simp [perform, lead, Collection.lengthChanged]
  | itemInvalidated index => simp [perform, lead, Collection.itemInvalidated]
  | select index => simp [perform, lead, Collection.select]
  | _ => simp [lead]

/-- A call of a run ends with a fault only if the source raised it: the extents that the calls hand
over are finite, and the calls on the model do not fail. -/
theorem raises_of_mem_runAll {edit : E → Step M (Reply S)} {of : E → List S} {host : H} {model : M}
    {axis : Axis} {mode : SelectionMode} {lookahead : Nat} {calls : List (Call E H V S)}
    (hedit : ∀ e, .model e ∈ calls → ∀ model, holds model →
      (edit e).Ensures model (fun _ ↦ holds) fun _ ↦ False)
    (hfinite : ∀ call ∈ calls, ∀ extent ∈ call.extents of, Scalar.isFinite extent = true)
    (hmodel : holds model) {fault : Fault}
    (hfault : .error fault ∈ (Step.runAll (Call.perform edit source) calls
      ⟨host, initial model axis mode lookahead⟩).1) : source.views.Raises fault := by
  have hrun := runAll_record edit source calls (recorded host model axis mode lookahead)
  have hfault : .error fault ∈ (Step.runAll (Call.record edit source) calls
      (recorded host model axis mode lookahead)).1 := congrArg Prod.fst hrun ▸ hfault
  have hsource := source.views.faultsOnly_raises
  have hjournaled := ItemSource.faultsOnly_journaled (S := S) hsource
  have hlead (call : Call E H V S) (hcall : call ∈ calls)
      {s : Hosted (Journal H Nat S) (Collection M (Tracked Nat V S) S)} (h : ModelHas holds s) :
      (call.journaled.lead edit source.journaled).Ensures s (fun _ ↦ ModelHas holds)
        (ModelHas holds) :=
    lead_viewport hmeasured.toUpheld.viewport.tended source.journaled call.journaled
      (fun e heq viewport hviewport ↦
        (hedit e (Call.eq_model_of_journaled heq ▸ hcall) _ hviewport).mono (fun _ _ ↦ id) nofun) h
  refine Step.blamed_of_mem_runAll (fun t ↦ (∃ base, Coherent base t) ∧ ModelHas holds t)
    (fun call hcall s ⟨⟨_, hcoherent⟩, h⟩ ↦
      ⟨⟨_, record_coherent edit source call hcoherent⟩, ?keeps⟩)
    (fun call hcall s ⟨⟨base, hcoherent⟩, h⟩ ↦ ?faults)
    ⟨⟨0, recorded_coherent host model axis mode lookahead⟩, ?start⟩ hfault
  case keeps =>
    exact Call.holds_after_perform (hlead call hcall h) fun _ ↦
      layout_viewport hmeasured.toUpheld.viewport.passKeeps source.journaled
  case faults =>
    rw [Call.record, Call.faultsOnly_perform]
    have hfaults := lead_faultsOnly hmeasured hjournaled
      (fun e heq ↦ hedit e (Call.eq_model_of_journaled heq ▸ hcall))
      (fun extent hextent ↦ hfinite call hcall extent (call.extents_journaled of ▸ hextent)) h
    refine (hfaults.and_eq_ok.and_ensures (hlead call hcall h)).mono fun follows t ht ↦ ?_
    obtain ⟨⟨-, heq⟩, hmodel⟩ := ht
    cases follows with
    | false => trivial
    | true =>
      have hcall := (Call.isDestroyAll_journaled call).symm.trans (Call.isDestroyAll_of_lead heq)
      have ht := (lead_coherent edit source call hcall hcoherent).of_ok heq
      exact layout_faultsOnly hmeasured hsource ht hmodel
  case start => simpa only [ModelHas, recorded, model_initial] using hmodel

end Recorded

end Windowing.Collection
