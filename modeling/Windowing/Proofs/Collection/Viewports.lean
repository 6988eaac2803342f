import Windowing.Proofs.Collection.Leads

/-!
# The viewport of a collection over a run

Working on views leaves the viewport of a collection alone. What is left are the moves and edits
that a collection makes by itself, pulling back after each edit, and the calls of the host on the
model. So a property of viewports that both keep holds after any run of calls, however each of them
ends. A property of models is one of the viewports that show them.

## Main definitions

* `Collection.ViewportHas`, `Collection.ModelHas` — the viewport or the model has a property.

## Main results

* `Collection.layout_viewport` — a pass keeps the property.
* `Collection.viewportHas_runAll`, `Collection.modelHas_runAll` — and so does a run.
* `Collection.reached_runAll` — all that a run does to the model is to make calls on it.
* `Collection.fresh_runAll` — a run keeps the viewport fresh over such a model.
-/

namespace Windowing.Collection

variable {E H M V S : Type} [Scalar S] [ExtentModel M S]

/-- The viewport of the collection has a property. -/
def ViewportHas (holds : Viewport M S → Prop) (s : Hosted H (Collection M V S)) : Prop :=
  holds s.held.viewport

/-- The model of the collection has a property. -/
def ModelHas (holds : M → Prop) (s : Hosted H (Collection M V S)) : Prop :=
  holds s.held.model

theorem model_initial (model : M) (axis : Axis) (mode : SelectionMode) (lookahead : Nat) :
    (initial model axis mode lookahead : Collection M V S).model = model :=
  (Viewport.setLookahead_steady lookahead (Viewport.ofModel model Scalar.zero)).model_eq

variable {holds : Viewport M S → Prop} {items : Collection M V S}
  {s : Hosted H (Collection M V S)}

variable (holds) in
theorem applyPending_viewport (hscroll : ∀ {viewport : Viewport M S} (offset : S),
      holds viewport → holds (viewport.scrollTo offset).1) (h : holds items.viewport) :
    applyPending.Ensures items (fun _ t ↦ holds t.viewport) fun t ↦ holds t.viewport := by
  simp only [applyPending, Step.ensures_bind, Step.ensures_get]
  cases items.pending with
  | none => exact h
  | some request =>
    simp only [Step.ensures_bind, Step.ensures_modify, Step.ensures_get, Step.ensures_ofExcept]
    cases hmoved : request.apply items.viewport with
    | error fault => exact h
    | ok moved => exact Viewport.apply_keeps hscroll h hmoved

variable [ResizableModel M S]

section PassKeeps

variable (hkeeps : Viewport.PassKeeps holds)

include hkeeps

/-! ### A pass and what scrolls before it -/

theorem requestScroll_viewport (request : ScrollRequest S) (h : holds items.viewport) :
    (requestScroll request).Ensures items (fun _ t ↦ holds t.viewport)
      fun t ↦ holds t.viewport := by
  simp only [requestScroll, Step.ensures_bind, Step.ensures_modify, Step.ensures_get,
    Step.ensures_ofExcept]
  cases hmoved : request.apply items.viewport with
  | error fault => exact h
  | ok moved => exact Viewport.apply_keeps hkeeps.scrollTo h hmoved

theorem adoptLength_viewport (len : Nat) (h : holds items.viewport) :
    holds (items.adoptLength len).1.viewport :=
  hkeeps.setLen len h

theorem syncLength_viewport (len : Nat) (h : holds items.viewport) :
    holds (items.syncLength len).1.viewport := by
  rw [syncLength]
  split
  · exact adoptLength_viewport hkeeps len h
  · exact h

theorem approach_viewport (len : Nat) (h : holds items.viewport) :
    (approach len).Ensures items (fun _ t ↦ holds t.viewport) fun t ↦ holds t.viewport := by
  simp only [approach, Step.ensures_bind, Step.ensures_modify, Step.ensures_modifyGet]
  refine (applyPending_viewport holds hkeeps.scrollTo (syncLength_viewport hkeeps len h)).mono
    (fun _ _ ht ↦ ?_) fun _ ht ↦ ht
  exact hkeeps.window (hkeeps.clamp ht)

theorem prepare_viewport (source : ItemSource H V) (h : ViewportHas holds s) :
    (prepare source).Ensures s (fun _ ↦ ViewportHas holds) (ViewportHas holds) := by
  have hopened : holds s.held.openPass.viewport := h
  exact ensures_prepare.mpr (approach_viewport hkeeps (source.len s.host).1 hopened)

variable [ViewHandle H V S]

theorem layout_viewport [CrossPlacement M S] (source : ItemSource H V) (h : ViewportHas holds s) :
    (layout source).Ensures s (fun _ ↦ ViewportHas holds) (ViewportHas holds) :=
  layout_of_prepare <| (prepare_viewport hkeeps source h).mono
    (fun _ _ ht ↦ ⟨fun _ _ _ ↦ ht, fun _ _ ↦ ht⟩) fun _ ht ↦ ht

theorem aim_viewport (source : ItemSource H V) (index : Nat) (h : ViewportHas holds s) :
    (aim source index).Ensures s (fun _ ↦ ViewportHas holds) (ViewportHas holds) := by
  simp only [aim, pollLength, Step.ensures_bind, Step.ensures_onHost, Step.ensures_modifyGet]
  refine (changeSelection_spec _).mono (fun changes t ht ↦ ?_) fun _ ↦ False.elim
  obtain ⟨rfl, stock, ht⟩ := ht
  have hchanged : holds t.held.viewport := ht ▸ h
  simp only [Step.ensures_ite, Step.ensures_pure, Step.ensures_bind, Step.ensures_onHeld,
    Step.ensures_modifyGet]
  split
  · exact hchanged
  · split
    · exact requestScroll_viewport hkeeps _ (adoptLength_viewport hkeeps _ hchanged)
    · exact requestScroll_viewport hkeeps _ hchanged

end PassKeeps

variable [CrossPlacement M S]

section Tended

variable (htended : Viewport.Tended holds)

include htended

/-! ### Edits -/

/-- A grid pulls its viewport back twice: for its old lanes, and then for the new ones. -/
theorem setViewportSize_viewport (size : Size S) (h : holds items.viewport) :
    holds (items.setViewportSize size).1.viewport := by
  have hresized := htended.resize (items.axis.split size).1 h
  rw [setViewportSize]
  by_cases hcross : Scalar.eq (items.axis.split size).2 items.crossExtent = true
  · simp only [if_pos hcross]
    split
    · exact hresized
    · exact h
  · simp only [if_neg hcross, Bool.or_true, if_true]
    exact htended.fitCrossExtent (items.axis.split size).2 hresized

theorem setItemExtent_viewport (index : Nat) (extent : S) (h : holds items.viewport) :
    (setItemExtent index extent).Ensures items (fun _ t ↦ holds t.viewport)
      fun t ↦ holds t.viewport := by
  simp only [setItemExtent, setItemExtent.onViewport, Viewport.onModel, Step.ensures_bind,
    Step.ensures_within]
  refine (htended.setItemExtent index extent h).mono (fun applied model hmodel ↦ ?_)
    fun _ hmodel ↦ hmodel
  cases applied with
  | false => exact hmodel
  | true => exact hmodel

theorem clearItemExtent_viewport (index : Nat) (h : holds items.viewport) :
    holds (items.clearItemExtent index).1.viewport := by
  have hcleared : holds ((items.viewport.withModel
      (ResizableModel.clearItemExtent index items.model).1).clampIf
        (ResizableModel.clearItemExtent index items.model).2) := htended.clearItemExtent index h
  rw [clearItemExtent]
  dsimp only
  split
  · next hflag =>
    rw [hflag] at hcleared
    exact hcleared
  · next hflag =>
    rw [Bool.eq_false_iff.mpr hflag] at hcleared
    exact hcleared

/-! ### Calls -/

omit [Scalar S] [ExtentModel M S] [ResizableModel M S] [CrossPlacement M S] htended in
theorem scrolling_viewport {step : Step (Collection M V S) Bool}
    (hstep : step.Ensures s.held (fun _ t ↦ holds t.viewport) fun t ↦ holds t.viewport) :
    (scrolling (H := H) step).Ensures s (fun _ ↦ ViewportHas holds) (ViewportHas holds) := by
  simp only [scrolling, Step.ensures_bind, Step.ensures_onHeld, Step.ensures_pure]
  exact hstep

variable [ViewHandle H V S]

/-- The part of a call before its pass keeps the property, if the call on the model does where it is
one. -/
theorem lead_viewport {edit : E → Step M (Reply S)} (source : ItemSource H V) (call : Call E H V S)
    (hedit : ∀ e, call = .model e → ∀ viewport, holds viewport →
      (edit e).Ensures viewport.model (fun _ model ↦ holds (viewport.withModel model))
        fun model ↦ holds (viewport.withModel model))
    (h : ViewportHas holds s) :
    (call.lead edit source).Ensures s (fun _ ↦ ViewportHas holds) (ViewportHas holds) := by
  have hscroll (request : ScrollRequest S) :=
    scrolling_viewport (H := H) (requestScroll_viewport htended.passKeeps request h)
  have hselect (change : Selection Nat → Selection Nat × List (Selection.Change Nat)) :
      (changeSelection change).Ensures s (fun _ ↦ ViewportHas holds) (ViewportHas holds) := by
    refine (changeSelection_spec change).mono (fun _ t ⟨_, stock, ht⟩ ↦ ?_) fun _ ↦ nofun
    rw [ViewportHas, ht]
    exact h
  cases call
  case layout => exact h
  case refreshAll => exact h
  case lengthChanged => exact h
  case itemInvalidated index =>
    simp only [Call.lead, revise, Step.ensures_bind, Step.ensures_get, Step.ensures_pure]
    split
    · exact h
    · simp only [Step.ensures_ite, Step.ensures_bind, Step.ensures_get, Step.ensures_pure, onStock,
        Step.ensures_onPart]
      split
      · exact Step.ensures_of_forall (fun _ _ ↦ h) fun _ ↦ h
      · exact h
  case select index =>
    simp only [Call.lead, Step.ensures_bind, Step.ensures_pure]
    exact aim_viewport htended.passKeeps source index h
  all_goals simp only [Call.lead, Call.perform, Step.ensures_bind, Step.ensures_pure]
  case unselect index => exact hselect _
  case unselectAll => exact hselect _
  case setSelectionMode mode => exact hselect _
  case isSelected index => exact h
  case setViewportSize size => exact setViewportSize_viewport htended size h
  case scrollTo offset => exact hscroll _
  case scrollBy delta =>
    refine scrolling_viewport ?_
    simp only [Collection.scrollBy, Step.ensures_bind, Step.ensures_get]
    exact requestScroll_viewport htended.passKeeps _ h
  case reveal index => exact hscroll _
  case bring index align => exact hscroll _
  case scrollToStart => exact hscroll _
  case scrollToEnd => exact hscroll _
  case isFullyVisible index =>
    simp only [Step.ensures_get, Step.ensures_ofExcept]
    split <;> exact h
  case setItemExtent index extent =>
    exact scrolling_viewport (setItemExtent_viewport htended index extent h)
  case clearItemExtent index => exact clearItemExtent_viewport htended index h
  case model e =>
    simp only [Step.ensures_onHeld, onModel, Viewport.onModel, Step.ensures_bind,
      Step.ensures_modify, Step.ensures_within]
    exact hedit e rfl _ h
  case destroyAll => exact h
  case editView index change =>
    simp only [onStock, Step.ensures_onPart]
    exact Step.ensures_of_forall (fun _ _ ↦ h) fun _ ↦ h
  case host change => exact h

/-- A run keeps the property if the calls on the model that are part of it do. -/
theorem viewportHas_runAll {edit : E → Step M (Reply S)} (source : ItemSource H V)
    {calls : List (Call E H V S)}
    (hedit : ∀ e, .model e ∈ calls → ∀ viewport, holds viewport →
      (edit e).Ensures viewport.model (fun _ model ↦ holds (viewport.withModel model))
        fun model ↦ holds (viewport.withModel model))
    (h : ViewportHas holds s) :
    ViewportHas holds (Step.runAll (Call.perform edit source) calls s).2 := by
  refine Step.holds_runAll (ViewportHas holds) (fun call hcall t ht ↦ ?_) h
  have hlead := lead_viewport htended source call (fun e heq ↦ hedit e (heq ▸ hcall)) ht
  exact Call.holds_after_perform hlead fun _ ↦ layout_viewport htended.passKeeps source

end Tended

/-- A run keeps a property of the model if the calls on the model that are part of it do. -/
theorem modelHas_runAll [ViewHandle H V S] {holds : M → Prop} (hupheld : ExtentModel.Upheld holds)
    {edit : E → Step M (Reply S)} (source : ItemSource H V) {calls : List (Call E H V S)}
    (hedit : ∀ e, .model e ∈ calls → ∀ model, holds model →
      (edit e).Ensures model (fun _ ↦ holds) holds)
    (h : ModelHas holds s) :
    ModelHas holds (Step.runAll (Call.perform edit source) calls s).2 :=
  viewportHas_runAll hupheld.viewport.tended source (fun e he _ hmodel ↦ hedit e he _ hmodel) h

/-- All that a run does to the model is to make calls on it, where calls on it do whatever a
collection does to its model by itself. -/
theorem reached_runAll [ViewHandle H V S] {edit : E → Step M (Reply S)} {may : E → Prop}
    {start : M → Prop} (hupheld : ExtentModel.Upheld (Step.Reached edit may start))
    (source : ItemSource H V) {calls : List (Call E H V S)}
    (hcalls : ∀ e, .model e ∈ calls → may e) (h : ModelHas start s) :
    ModelHas (Step.Reached edit may start)
      (Step.runAll (Call.perform edit source) calls s).2 :=
  modelHas_runAll hupheld source
    (fun e he _ hreached ↦ Step.ensures_iff_after.mpr (hreached.call (hcalls e he))) (.start h)

omit [ResizableModel M S] [CrossPlacement M S] in
/-- As it is built, a collection has a fresh viewport over its model. -/
theorem fresh_initial {holds : M → Prop} {model : M} (h : holds model) (axis : Axis)
    (mode : SelectionMode) (lookahead : Nat) :
    let items : Collection M V S := initial model axis mode lookahead
    items.viewport.Fresh ∧ holds items.model :=
  ⟨Viewport.fresh_ofModel model Scalar.zero lookahead,
    (congrArg holds (model_initial model axis mode lookahead)).mpr h⟩

/-- A run keeps the viewport fresh, and a property of its model if the calls on the model that are
part of it do. -/
theorem fresh_runAll [ViewHandle H V S] {holds : M → Prop} (hupheld : ExtentModel.Upheld holds)
    {edit : E → Step M (Reply S)} (source : ItemSource H V) (calls : List (Call E H V S))
    (hedit : ∀ e, .model e ∈ calls → ∀ model, holds model →
      (edit e).Ensures model (fun _ ↦ holds) holds)
    (h : s.held.viewport.Fresh ∧ holds s.held.model) :
    let t := (Step.runAll (Call.perform edit source) calls s).2
    t.held.viewport.Fresh ∧ holds t.held.model :=
  viewportHas_runAll (Viewport.upheld_fresh.and hupheld.viewport).tended source
    (fun e he _ hviewport ↦ (hedit e he _ hviewport.2).mono
      (fun _ _ h ↦ ⟨Viewport.fresh_of_kept_eq_none rfl, h⟩)
      fun _ h ↦ ⟨Viewport.fresh_of_kept_eq_none rfl, h⟩) h

end Windowing.Collection
