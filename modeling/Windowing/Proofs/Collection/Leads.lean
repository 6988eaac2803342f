import Windowing.Proofs.Collection.Aside
import Windowing.Proofs.Collection.Runs
import Windowing.Proofs.Stock
import Windowing.Proofs.Viewports

/-!
# What calls do before their pass

The calls on a collection are many, but the sorts of work that they do before their pass are few.
Most calls scroll or edit: they move the viewport in the ways in which a collection moves it, and
leave the rest aside. Three change the selection so that nothing new is selected. What is left are
single calls: one selects an item, one fills a view again, one drops all views, one is made on the
model, and two are what the host does by itself.

So a property that each sort of work keeps is kept by the part of every call before its pass. Where
the property is one of the collection that does not look at the views, only half of the sorts are to
be looked at.

## Main definitions

* `Collection.Rolls` — one state comes to the other by scrolling and edits.
* `Collection.Call.LeadKeeps` — each sort of work that the call may do keeps a property.
* `Collection.Aimed` — what selecting an item comes to before its pass.

## Main results

* `Collection.Call.LeadKeeps.ensures` — the part of a call before its pass keeps the property.
* `Collection.Call.LeadKeeps.ofHeld` — what is to be shown of a property that leaves views aside.
* `Collection.changeSelection_spec`, `Collection.aim_spec` — what a change of the selection comes
  to, and selecting an item before the pass.
-/

namespace Windowing

/-! ### Changes that select nothing -/

namespace Selection

variable {K : Type} [BEq K] [Hashable K]

/-- The call selects nothing that was not selected. -/
def Call.Narrows (call : Call K) : Prop :=
  ∀ (selection : Selection K), ∀ key ∈ (call.perform selection).1.order, key ∈ selection.order

theorem narrows_unselect (key : K) : (Call.unselect key).Narrows := by
  intro selection other h
  rw [Call.perform, unselect] at h
  split at h
  · exact List.mem_of_mem_filter h
  · exact h

theorem narrows_unselectAll : (Call.unselectAll : Call K).Narrows := by
  intro selection key h
  simp [Call.perform, unselectAll] at h

theorem narrows_setMode (mode : SelectionMode) : (Call.setMode mode : Call K).Narrows := by
  intro selection key h
  rw [Call.perform, setMode] at h
  split at h
  · exact List.mem_of_mem_drop h
  · exact h

/-- Selecting a key changes nothing unless it reports a change. -/
theorem select_eq_self {selection : Selection K} {key : K} {inBounds : K → Bool}
    (h : (selection.select inBounds key).2 = []) :
    (selection.select inBounds key).1 = selection := by
  rw [select] at h ⊢
  split at h
  · next hignored => rw [if_pos hignored]
  · simp at h

/-- Selecting adds no key but the one that is selected, and only if it is in bounds. -/
theorem mem_order_select {selection : Selection K} {key other : K} {inBounds : K → Bool}
    (h : other ∈ (selection.select inBounds key).1.order) :
    other ∈ selection.order ∨ other = key ∧ inBounds key = true := by
  rw [select] at h
  split at h
  · exact .inl h
  · next hselects =>
    have hkey : inBounds key = true := by
      simp only [not_or, Bool.not_eq_false] at hselects
      exact hselects.2.1
    rcases List.mem_append.mp h with hold | hnew
    · split at hold
      · exact .inl (List.mem_of_mem_drop hold)
      · exact .inl hold
    · exact .inr ⟨List.mem_singleton.mp hnew, hkey⟩

end Selection

namespace Collection

variable {E H M V S : Type} [Scalar S] [ExtentModel M S] [ResizableModel M S] [CrossPlacement M S]

/-! ### Scrolling and edits -/

/-- The second state is one that a collection comes to from the first by scrolling and edits. -/
structure Rolls (before after : Collection M V S) : Prop extends before.Aside after where
  reaches : before.viewport.Reaches after.viewport

variable {items other : Collection M V S}

theorem Rolls.refl (items : Collection M V S) : items.Rolls items :=
  ⟨.refl items, .refl items.viewport⟩

theorem rolls_of_ensures {α : Type} {step : Step (Collection M V S) α}
    (haside : step.Ensures items (fun _ ↦ items.Aside) items.Aside)
    (hreaches : step.Ensures items (fun _ t ↦ items.viewport.Reaches t.viewport)
      fun t ↦ items.viewport.Reaches t.viewport) :
    step.Ensures items (fun _ ↦ items.Rolls) items.Rolls :=
  (haside.and hreaches).mono (fun _ _ h ↦ ⟨h.1, h.2⟩) fun _ h ↦ ⟨h.1, h.2⟩

theorem requestScroll_rolls (request : ScrollRequest S) (items : Collection M V S) :
    (requestScroll request).Ensures items (fun _ ↦ items.Rolls) items.Rolls := by
  refine rolls_of_ensures (requestScroll_ensures request items) ?_
  simp only [requestScroll, Step.ensures_bind, Step.ensures_modify, Step.ensures_get,
    Step.ensures_ofExcept]
  cases hmoved : request.apply items.viewport with
  | error fault => exact .refl items.viewport
  | ok moved => exact (Viewport.upheldAside_reaches items.viewport).apply (.refl _) hmoved

theorem scrollBy_rolls (delta : S) (items : Collection M V S) :
    (scrollBy delta).Ensures items (fun _ ↦ items.Rolls) items.Rolls := by
  simp only [scrollBy, Step.ensures_bind, Step.ensures_get]
  exact requestScroll_rolls _ items

theorem setViewportSize_rolls (size : Size S) (items : Collection M V S) :
    items.Rolls (items.setViewportSize size).1 := by
  refine ⟨setViewportSize_aside size items, ?_⟩
  have hupheld := Viewport.upheldAside_reaches items.viewport
  have hresized := hupheld.resize (items.axis.split size).1 (.refl items.viewport)
  rw [setViewportSize]
  by_cases hcross : Scalar.eq (items.axis.split size).2 items.crossExtent = true
  · simp only [if_pos hcross]
    split
    · exact hresized
    · exact .refl items.viewport
  · simp only [if_neg hcross, Bool.or_true, if_true]
    have hfitted := hupheld.fitCrossExtent (items.axis.split size).2 hresized
    change items.viewport.Reaches (ite _ _ _)
    split
    · exact hupheld.clamp hfitted
    · exact hfitted

theorem setItemExtent_rolls (index : Nat) (extent : S) (items : Collection M V S) :
    (setItemExtent index extent).Ensures items (fun _ ↦ items.Rolls) items.Rolls := by
  refine rolls_of_ensures (setItemExtent_ensures index extent items) ?_
  have hupheld := Viewport.upheldAside_reaches items.viewport
  simp only [setItemExtent, setItemExtent.onViewport, Viewport.onModel, Step.ensures_bind,
    Step.ensures_within]
  refine (hupheld.setItemExtent index extent (.refl _)).mono (fun applied model hmodel ↦ ?_)
    fun _ hmodel ↦ hmodel
  cases applied with
  | false => exact hmodel
  | true => exact hupheld.clamp hmodel

theorem clearItemExtent_rolls (index : Nat) (items : Collection M V S) :
    items.Rolls (items.clearItemExtent index).1 := by
  refine ⟨clearItemExtent_aside index items, ?_⟩
  have hupheld := Viewport.upheldAside_reaches items.viewport
  have hcleared := hupheld.clearItemExtent index (.refl items.viewport)
  rw [clearItemExtent]
  dsimp only
  split
  · exact hupheld.clamp hcleared
  · exact hcleared

/-! ### The part before the pass -/

section Leads

variable [ViewHandle H V S] {edit : E → Step M (Reply S)} {source : ItemSource H V}
  {call : Call E H V S} {s : Hosted H (Collection M V S)}

/-- Each sort of work that the call may do before its pass, from the state `s`, ends where the
property holds. -/
structure Call.LeadKeeps (edit : E → Step M (Reply S)) (source : ItemSource H V)
    (call : Call E H V S) (holds : Hosted H (Collection M V S) → Prop)
    (s : Hosted H (Collection M V S)) : Prop where
  rolls : ∀ {items}, s.held.Rolls items → holds ⟨s.host, items⟩
  model : ∀ e, call = .model e →
    (Hosted.onHeld (onModel (edit e))).Ensures s (fun _ ↦ holds) holds
  narrows : ∀ change : Selection.Call Nat, change.Narrows →
    (changeSelection change.perform).Ensures s (fun _ ↦ holds) holds
  aim : ∀ index, call = .select index → (aim source index).Ensures s (fun _ ↦ holds) holds
  revise : ∀ index, call = .itemInvalidated index →
    (revise source index).Ensures s (fun _ ↦ holds) holds
  destroyAll : call = .destroyAll → holds ⟨s.host, s.held.destroyAll.2⟩
  editView : ∀ index change, call = .editView index change →
    (call.perform edit source).Ensures s (fun _ ↦ holds) holds
  host : ∀ change, call = .host change → holds ⟨change s.host, s.held⟩

/-- The part of a call before its pass ends where the property holds. -/
theorem Call.LeadKeeps.ensures {holds : Hosted H (Collection M V S) → Prop}
    (h : call.LeadKeeps edit source holds s) :
    (call.lead edit source).Ensures s (fun _ ↦ holds) holds := by
  have hhere : holds s := h.rolls (.refl s.held)
  have hscrolls {step : Step (Collection M V S) Bool}
      (hstep : step.Ensures s.held (fun _ ↦ s.held.Rolls) s.held.Rolls) :
      (scrolling (H := H) step).Ensures s (fun _ ↦ holds) holds := by
    simp only [scrolling, Step.ensures_bind, Step.ensures_onHeld, Step.ensures_pure]
    exact hstep.mono (fun _ _ ↦ h.rolls) fun _ ↦ h.rolls
  have hscroll (request : ScrollRequest S) := hscrolls (requestScroll_rolls request s.held)
  cases call
  case layout => exact hhere
  case refreshAll => exact h.rolls ⟨⟨rfl, rfl, rfl, rfl, fun _ ↦ rfl, id⟩, .refl s.held.viewport⟩
  case lengthChanged => exact h.rolls ⟨⟨rfl, rfl, rfl, rfl, id, id⟩, .refl s.held.viewport⟩
  all_goals simp only [Call.lead, Step.ensures_bind, Step.ensures_pure]
  case itemInvalidated index => exact h.revise index rfl
  case select index => exact h.aim index rfl
  case editView index change => exact h.editView index change rfl
  all_goals simp only [Call.perform, Step.ensures_bind, Step.ensures_pure]
  case unselect index => exact h.narrows (.unselect index) (Selection.narrows_unselect index)
  case unselectAll => exact h.narrows .unselectAll Selection.narrows_unselectAll
  case setSelectionMode mode => exact h.narrows (.setMode mode) (Selection.narrows_setMode mode)
  case isSelected index => exact hhere
  case setViewportSize size => exact h.rolls (setViewportSize_rolls size s.held)
  case scrollTo offset => exact hscroll _
  case scrollBy delta => exact hscrolls (scrollBy_rolls delta s.held)
  case reveal index => exact hscroll _
  case bring index align => exact hscroll _
  case scrollToStart => exact hscroll _
  case scrollToEnd => exact hscroll _
  case isFullyVisible index =>
    simp only [Step.ensures_get, Step.ensures_ofExcept]
    split <;> exact hhere
  case setItemExtent index extent => exact hscrolls (setItemExtent_rolls index extent s.held)
  case clearItemExtent index => exact h.rolls (clearItemExtent_rolls index s.held)
  case model e => exact h.model e rfl
  case destroyAll => exact h.destroyAll rfl
  case host change => exact h.host change rfl

omit [Scalar S] [ExtentModel M S] [ResizableModel M S] [CrossPlacement M S] in
/-- A change of the selection is not cut short, and touches nothing else but the views. -/
theorem changeSelection_spec
    (change : Selection Nat → Selection Nat × List (Selection.Change Nat)) :
    (changeSelection change).Ensures s
      (fun changes t ↦ changes = (change s.held.selection).2 ∧ ∃ stock,
        t.held = { s.held with selection := (change s.held.selection).1, stock })
      fun _ ↦ False := by
  simp only [changeSelection, onStock, Step.ensures_bind, Step.ensures_onHeld,
    Step.ensures_modifyGet, Step.ensures_onPart, Step.ensures_pure]
  exact (ViewStock.restyle_answers _ _).mono (fun _ views _ ↦ ⟨trivial, views.held, rfl⟩)
    fun _ h ↦ h

/-- The collection with an item selected, if there are `len` items, and with other views. -/
def selecting (len index : Nat) (stock : ViewStock Nat V S) (items : Collection M V S) :
    Collection M V S :=
  { items with selection := (items.selection.select (Bounded.inBounds len) index).1, stock }

/-- What selecting an item comes to before its pass, for a source of `len` items: the item is
ignored, or else it is selected and the collection scrolls. Where the model has another length, the
one of the source is taken over in between. -/
inductive Aimed (len index : Nat) (before after : Collection M V S) : Prop
  | ignored (stock : ViewStock Nat V S) (hafter : after = { before with stock })
  | scrolled (stock : ViewStock Nat V S) (hlen : len = ExtentModel.len before.model)
    (hrolls : (before.selecting len index stock).Rolls after)
  | adopted (stock : ViewStock Nat V S)
    (hrolls : ((before.selecting len index stock).adoptLength len).1.Rolls after)

theorem aim_spec (source : ItemSource H V) (index : Nat) :
    (aim source index).Ensures s
      (fun _ t ↦ Aimed (source.len s.host).1 index s.held t.held)
      fun t ↦ Aimed (source.len s.host).1 index s.held t.held := by
  simp only [aim, pollLength, Step.ensures_bind, Step.ensures_onHost, Step.ensures_modifyGet]
  refine (changeSelection_spec _).mono (fun changes t ht ↦ ?_) fun _ ↦ False.elim
  obtain ⟨rfl, stock, ht⟩ := ht
  simp only [Step.ensures_ite, Step.ensures_pure, Step.ensures_bind, Step.ensures_onHeld,
    Step.ensures_modifyGet]
  split
  · next hnone =>
    have hsame := Selection.select_eq_self (List.isEmpty_iff.mp hnone)
    exact .ignored stock (by rw [ht, hsame])
  · split
    · have hrolls := requestScroll_rolls (.item index .nearest)
        (adoptLength (source.len s.host).1 t.held).1
      rw [ht] at hrolls ⊢
      exact hrolls.mono (fun _ _ ↦ .adopted stock) fun _ ↦ .adopted stock
    · next hlen =>
      have hrolls := requestScroll_rolls (.item index .nearest) t.held
      rw [ht] at hrolls hlen ⊢
      have hlen : (source.len s.host).1 = ExtentModel.len s.held.model :=
        not_not.mp fun hne ↦ hlen (bne_iff_ne.mpr hne)
      exact hrolls.mono (fun _ _ ↦ .scrolled stock hlen) fun _ ↦ .scrolled stock hlen

/-- A property of the collection that does not look at the views has less to be shown of it. -/
theorem Call.LeadKeeps.ofHeld (holds : Collection M V S → Prop)
    (hrolls : ∀ {items}, s.held.Rolls items → holds items)
    (hmodel : ∀ e, call = .model e →
      (onModel (edit e)).Ensures s.held (fun _ ↦ holds) holds)
    (hnarrows : ∀ change : Selection.Call Nat, change.Narrows → ∀ stock,
      holds { s.held with selection := (change.perform s.held.selection).1, stock })
    (haim : ∀ index, call = .select index →
      (Collection.aim source index).Ensures s (fun _ t ↦ holds t.held) fun t ↦ holds t.held)
    (hviews : ∀ stock window, holds { s.held with stock, window }) :
    call.LeadKeeps edit source (fun t ↦ holds t.held) s where
  rolls := hrolls
  model e he := Step.ensures_onHeld .. |>.mpr (hmodel e he)
  narrows change hchange := by
    refine (changeSelection_spec change.perform).mono (fun _ t ⟨_, stock, ht⟩ ↦ ?_) fun _ ↦ nofun
    exact ht ▸ hnarrows change hchange stock
  aim := haim
  revise index _ := by
    have hstock (stock : ViewStock Nat V S) := hviews stock s.held.window
    simp only [Collection.revise, Step.ensures_bind, Step.ensures_get]
    split
    · exact hstock s.held.stock
    · simp only [Step.ensures_ite, Step.ensures_bind, Step.ensures_get, Step.ensures_pure, onStock,
        Step.ensures_onPart]
      split
      · exact Step.ensures_of_forall (fun _ _ ↦ hstock _) fun _ ↦ hstock _
      · exact hstock s.held.stock
  destroyAll _ := hviews _ _
  editView index change hcall := by
    subst hcall
    simp only [Call.perform, onStock, Step.ensures_bind, Step.ensures_onPart, Step.ensures_pure]
    exact Step.ensures_of_forall (fun _ _ ↦ hviews _ _) fun _ ↦ hviews _ _
  host _ _ := hrolls (.refl s.held)

end Leads

end Collection

end Windowing
