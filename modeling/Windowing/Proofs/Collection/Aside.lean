import Windowing.Collection.Call
import Windowing.Proofs.Ensures
import Windowing.Proofs.WindowBounds

/-!
# What scrolling leaves alone

Scrolling, resizing and edits of the model only record what changed. They touch neither the views
nor the window that the last pass realized, and they forget no rebinding that is due. The part of
a pass before it works on views is of the same sort, once the selection has been cut to the length
of the source.

## Main definitions

* `Collection.Aside` — two states that differ in scrolling and in the work that is due only.

## Main results

* `Collection.approach_ensures` — the window that a pass finds lies within the items polled.
* `Collection.ensures_layout`, `Collection.layout_of_prepare` — a pass ensures what its parts do.
-/

namespace Windowing.Collection

variable {M V S : Type} [Scalar S] [ExtentModel M S]

/-- The two states differ in how the collection scrolls and in what is due only. A rebinding that
was due is still due, and no window is kept that is wrong for the model. -/
structure Aside (before after : Collection M V S) : Prop where
  stock_eq : after.stock = before.stock
  window_eq : after.window = before.window
  passOpen_eq : after.passOpen = before.passOpen
  selection_eq : after.selection = before.selection
  rebind : before.due.rebind = true → after.due.rebind = true
  settled : before.viewport.Settled → after.viewport.Settled

variable {items : Collection M V S}

omit [Scalar S] in
theorem Aside.refl (items : Collection M V S) : items.Aside items :=
  ⟨rfl, rfl, rfl, rfl, id, id⟩

omit [Scalar S] in
theorem Aside.trans {a b c : Collection M V S} (hab : a.Aside b) (hbc : b.Aside c) : a.Aside c where
  stock_eq := hbc.stock_eq.trans hab.stock_eq
  window_eq := hbc.window_eq.trans hab.window_eq
  passOpen_eq := hbc.passOpen_eq.trans hab.passOpen_eq
  selection_eq := hbc.selection_eq.trans hab.selection_eq
  rebind h := hbc.rebind (hab.rebind h)
  settled h := hbc.settled (hab.settled h)

omit [Scalar S] in
/-- Moving the viewport is aside. -/
theorem aside_of_steady {viewport : Viewport M S} (h : items.viewport.Steady viewport) :
    items.Aside { items with viewport } :=
  ⟨rfl, rfl, rfl, rfl, id, h.settled⟩

omit [Scalar S] in
/-- Editing the model is aside, since the kept window is forgotten. -/
theorem aside_of_withModel (items : Collection M V S) (model : M) :
    items.Aside { items with viewport := items.viewport.withModel model } :=
  ⟨rfl, rfl, rfl, rfl, id, fun _ ↦ Viewport.settled_of_kept_eq_none rfl⟩

/-! ### Scrolling and edits -/

theorem clampScroll_aside (items : Collection M V S) : items.Aside items.clampScroll :=
  aside_of_steady (Viewport.clamp_steady _)

/-- A request is recorded, and it moves the viewport unless the model lost the item. -/
theorem requestScroll_spec (request : ScrollRequest S) (items : Collection M V S) :
    (requestScroll request).Ensures items
      (fun _ t ↦ ∃ viewport, items.viewport.Steady viewport ∧
        t = { items with pending := some request, viewport })
      fun t ↦ t = { items with pending := some request } := by
  simp only [requestScroll, Step.ensures_bind, Step.ensures_modify, Step.ensures_get,
    Step.ensures_ofExcept]
  cases hmoved : request.apply items.viewport with
  | error fault => trivial
  | ok moved => exact ⟨moved.1, Viewport.apply_steady hmoved, rfl⟩

theorem requestScroll_ensures (request : ScrollRequest S) (items : Collection M V S) :
    (requestScroll request).Ensures items (fun _ ↦ items.Aside) items.Aside := by
  have hpending : items.Aside { items with pending := some request } := ⟨rfl, rfl, rfl, rfl, id, id⟩
  refine (requestScroll_spec request items).mono ?_ ?_
  · rintro _ _ ⟨viewport, hsteady, rfl⟩
    exact hpending.trans (aside_of_steady hsteady)
  · rintro _ rfl
    exact hpending

theorem scrollBy_ensures (delta : S) (items : Collection M V S) :
    (scrollBy delta).Ensures items (fun _ ↦ items.Aside) items.Aside := by
  simp only [scrollBy, Step.ensures_bind, Step.ensures_get]
  exact requestScroll_ensures _ items

variable [ResizableModel M S] [CrossPlacement M S]

omit [ResizableModel M S] in
theorem setViewportSize_aside (size : Size S) (items : Collection M V S) :
    items.Aside (items.setViewportSize size).1 := by
  have hresized := Viewport.resize_steady (items.axis.split size).1 items.viewport
  have hmodel (viewport : Viewport M S) (model : M) : (viewport.withModel model).Settled :=
    Viewport.settled_of_kept_eq_none rfl
  rw [setViewportSize]
  by_cases hcross : Scalar.eq (items.axis.split size).2 items.crossExtent = true
  · simp only [if_pos hcross]
    split
    · exact ⟨rfl, rfl, rfl, rfl, id, hresized.settled⟩
    · exact .refl items
  · simp only [if_neg hcross, Bool.or_true, if_true]
    refine ⟨rfl, rfl, rfl, rfl, id, fun _ ↦ ?_⟩
    dsimp only
    split
    · exact (Viewport.clamp_steady _).settled (hmodel _ _)
    · exact hmodel _ _

omit [CrossPlacement M S] in
theorem setItemExtent_ensures (index : Nat) (extent : S) (items : Collection M V S) :
    (setItemExtent index extent).Ensures items (fun _ ↦ items.Aside) items.Aside := by
  have hmodel (model : M) := aside_of_withModel items model
  simp only [setItemExtent, setItemExtent.onViewport, Viewport.onModel, Step.ensures_bind,
    Step.ensures_within]
  refine Step.ensures_of_forall (fun applied model ↦ ?_) hmodel
  split
  · exact (hmodel model).trans (clampScroll_aside _)
  · exact hmodel model

omit [CrossPlacement M S] in
theorem clearItemExtent_aside (index : Nat) (items : Collection M V S) :
    items.Aside (items.clearItemExtent index).1 := by
  have hmodel := aside_of_withModel items (ResizableModel.clearItemExtent index items.model).1
  rw [clearItemExtent]
  simp only
  split
  · exact hmodel.trans (clampScroll_aside _)
  · exact hmodel

omit [Scalar S] [ResizableModel M S] [CrossPlacement M S] in
theorem onModel_ensures {α : Type} (step : Step M α) (items : Collection M V S) :
    (onModel step).Ensures items (fun _ ↦ items.Aside) items.Aside := by
  have hplace : items.Aside { items with due := { items.due with place := true } } :=
    ⟨rfl, rfl, rfl, rfl, id, id⟩
  simp only [onModel, Viewport.onModel, Step.ensures_bind, Step.ensures_modify, Step.ensures_within]
  exact Step.ensures_of_forall (fun _ model ↦ hplace.trans (aside_of_withModel _ model))
    fun model ↦ hplace.trans (aside_of_withModel _ model)

/-! ### Parts of a pass -/

omit [Scalar S] [ExtentModel M S] [ResizableModel M S] [CrossPlacement M S] in
/-- Beginning a pass neither announces a change of the length nor forgets one. -/
theorem length_due_openPass (items : Collection M V S) :
    items.openPass.due.length = items.due.length := by
  rw [openPass]
  dsimp only
  split
  · rfl
  · rfl

omit [CrossPlacement M S] in
/-- Taking over a length only cuts the selection, beside scrolling. -/
theorem adoptLength_aside (len : Nat) (items : Collection M V S) :
    Aside { items with selection := (items.adoptLength len).1.selection }
      (items.adoptLength len).1 :=
  ⟨rfl, rfl, rfl, rfl, fun _ ↦ rfl,
    fun _ ↦ (Viewport.clamp_steady _).settled (Viewport.settled_of_kept_eq_none rfl)⟩

omit [CrossPlacement M S] in
theorem syncLength_aside (len : Nat) (items : Collection M V S) :
    Aside { items with selection := (items.syncLength len).1.selection }
      (items.syncLength len).1 := by
  rw [syncLength]
  split
  · exact adoptLength_aside len items
  · exact .refl items

omit [CrossPlacement M S] in
/-- A pass works with as many items as it polled. -/
theorem len_syncLength [LawfulCount M] (len : Nat) (items : Collection M V S) :
    ExtentModel.len (items.syncLength len).1.model = len := by
  rw [syncLength]
  split
  · have hmodel := (Viewport.clamp_steady
      (items.viewport.withModel (ResizableModel.setLen len items.model))).model_eq
    exact (congrArg ExtentModel.len hmodel).trans (LawfulCount.len_setLen len items.model)
  · next hsame =>
    simp only [Bool.or_eq_true, bne_iff_ne, ne_eq, not_or, not_not] at hsame
    exact hsame.2.symm

omit [ResizableModel M S] [CrossPlacement M S] in
/-- No request is pending afterwards, and the last one moved the viewport unless the model lost the
item. -/
theorem applyPending_spec (items : Collection M V S) :
    applyPending.Ensures items
      (fun _ t ↦ ∃ viewport, items.viewport.Steady viewport ∧
        t = { items with pending := none, viewport })
      fun t ↦ t = { items with pending := none } := by
  simp only [applyPending, Step.ensures_bind, Step.ensures_get]
  cases hpending : items.pending with
  | none => exact ⟨items.viewport, .refl _, by rw [← hpending]⟩
  | some request =>
    simp only [Step.ensures_bind, Step.ensures_modify, Step.ensures_get, Step.ensures_ofExcept]
    cases hmoved : request.apply items.viewport with
    | error fault => trivial
    | ok moved => exact ⟨moved.1, Viewport.apply_steady hmoved, rfl⟩

omit [ResizableModel M S] [CrossPlacement M S] in
theorem applyPending_ensures (items : Collection M V S) :
    applyPending.Ensures items
      (fun _ t ↦ items.Aside t ∧ t.model = items.model) items.Aside := by
  have hpending : items.Aside { items with pending := none } := ⟨rfl, rfl, rfl, rfl, id, id⟩
  refine (applyPending_spec items).mono ?_ ?_
  · rintro _ _ ⟨viewport, hsteady, rfl⟩
    exact ⟨hpending.trans (aside_of_steady hsteady), hsteady.model_eq⟩
  · rintro _ rfl
    exact hpending

omit [CrossPlacement M S] in
/-- Before it works on views, a pass cuts the selection to the length polled, and scrolls. The
window that it finds lies within the items polled, if the model keeps count of them. -/
theorem approach_ensures (len : Nat) (items : Collection M V S) :
    (approach len).Ensures items
      (fun answer t ↦ Aside (items.syncLength len).1 t ∧
        (items.viewport.Settled → LawfulCount M → answer.1.toIndexRange.Within len) ∧
        answer.2 = (items.syncLength len).2)
      (Aside (items.syncLength len).1) := by
  simp only [approach, Step.ensures_bind, Step.ensures_modify, Step.ensures_modifyGet]
  refine (applyPending_ensures _).mono (fun _ t ht ↦ ?_) fun _ ht ↦ ht
  obtain ⟨haside, hmodel⟩ := ht
  have hclamp := Viewport.clamp_steady t.viewport
  have hclamped := haside.trans (clampScroll_aside t)
  refine ⟨hclamped.trans ⟨rfl, rfl, rfl, rfl, id, Viewport.window_settled⟩,
    fun hsettled hlawful ↦ ?_, rfl⟩
  have hlen : ExtentModel.len t.viewport.clamp.1.model = len := by
    rw [hclamp.model_eq]
    exact (congrArg ExtentModel.len hmodel).trans (len_syncLength len items)
  have hsynced := (syncLength_aside len items).settled hsettled
  exact hlen ▸ Viewport.window_within (hclamped.settled hsynced)

/-! ### A pass in its parts -/

section Pass

variable {H : Type} [ViewHandle H V S] {source : ItemSource H V}
  {s : Hosted H (Collection M V S)}

omit [CrossPlacement M S] [ViewHandle H V S] in
/-- Before it works on views, a pass ensures what its scrolling does for the length polled. -/
theorem ensures_prepare {ok : VisibleWindow S × List (Selection.Change Nat) → _ → Prop}
    {cut : Hosted H (Collection M V S) → Prop} :
    (prepare source).Ensures s ok cut ↔
      (approach (source.len s.host).1).Ensures s.held.openPass
        (fun answer t ↦ ok answer ⟨(source.len s.host).2, t⟩)
        fun t ↦ cut ⟨(source.len s.host).2, t⟩ := by
  simp only [prepare, pollLength, Step.ensures_bind, Step.ensures_onHeld, Step.ensures_onHost,
    Step.ensures_modify, Step.ensures_modifyGet]

omit [CrossPlacement M S] [ViewHandle H V S] in
/-- Before it works on views, a pass polls the source, cuts the selection to the length polled, and
scrolls. -/
theorem prepare_aside (source : ItemSource H V) (s : Hosted H (Collection M V S)) :
    let synced := (s.held.openPass.syncLength (source.len s.host).1).1
    (prepare source).Ensures s (fun _ t ↦ t.host = (source.len s.host).2 ∧ synced.Aside t.held)
      fun t ↦ t.host = (source.len s.host).2 ∧ synced.Aside t.held := by
  intro synced
  rw [ensures_prepare]
  exact (approach_ensures _ _).mono (fun _ _ ht ↦ ⟨rfl, ht.1⟩) fun _ ht ↦ ⟨rfl, ht⟩

omit [ResizableModel M S] in
/-- The work of a pass on views ensures what following the window does, with the pass ended. -/
theorem ensures_realize {window : VisibleWindow S} {ok : Tally → _ → Prop}
    {cut : Hosted H (Collection M V S) → Prop} :
    (realize source window).Ensures s ok cut ↔
      (ViewStock.follow source.views (s.held.layoutFor s.held.due)
        (IndexRange.leaving s.held.window.toIndexRange window.toIndexRange) window.toList
        window.contains).Ensures ⟨s.host, s.held.stock⟩
        (fun tally t ↦
          ok tally ⟨t.host, { s.held with due := {}, stock := t.held, window, passOpen := false }⟩)
        fun t ↦ cut ⟨t.host, { s.held with due := {}, stock := t.held }⟩ := by
  simp only [realize, onStock, Step.ensures_bind, Step.ensures_get, Step.ensures_onHeld,
    Step.ensures_modify, Step.ensures_onPart, Step.ensures_pure]

/-- A pass ensures what its work on views does after the part before. -/
theorem ensures_layout {ok : Pass IndexRange Nat → _ → Prop}
    {cut : Hosted H (Collection M V S) → Prop} :
    (layout source).Ensures s ok cut ↔
      (prepare source).Ensures s
        (fun answer t ↦ (realize source answer.1).Ensures t
          (fun tally u ↦
            ok { tally with window := answer.1.toIndexRange, unselected := answer.2 } u) cut)
        cut := by
  simp only [layout, Step.ensures_bind, Step.ensures_pure]

/-- What a pass ensures without regard to views, its part before the work on views does. -/
theorem layout_of_prepare {ok : Pass IndexRange Nat → _ → Prop}
    {cut : Hosted H (Collection M V S) → Prop}
    (h : (prepare source).Ensures s
      (fun answer t ↦
        (∀ tally : Tally, ∀ host stock,
          ok { tally with window := answer.1.toIndexRange, unselected := answer.2 }
            ⟨host, { t.held with due := {}, stock, window := answer.1, passOpen := false }⟩) ∧
        ∀ host stock, cut ⟨host, { t.held with due := {}, stock }⟩)
      cut) :
    (layout source).Ensures s ok cut := by
  refine ensures_layout.mpr (h.mono (fun answer t ht ↦ ensures_realize.mpr ?_) fun _ ↦ id)
  exact Step.ensures_of_forall (fun tally u ↦ ht.1 tally u.host u.held) fun u ↦ ht.2 u.host u.held

end Pass

end Windowing.Collection
