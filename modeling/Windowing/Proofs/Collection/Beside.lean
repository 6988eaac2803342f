import Windowing.Proofs.Collection.Leads
import Windowing.Proofs.Following

/-!
# What calls on a collection do beside their passes

Before its pass, or where it runs none, a call scrolls or edits the model, changes the selection and
styles the views that this is about, polls the source, or reaches into a view. A property of
recorded collections that all of these keep is kept by the part of every call before its pass. Only
two calls do more there: one fills a view again, and one drops all views.

A property of the views and the journal alone needs less: scrolling and the selection do not touch
it.

## Main definitions

* `Collection.Upheld` — a property that is kept beside passes.
* `Collection.StockHas` — the views of the collection have a property.

## Main results

* `Collection.lead_upheld` — the part of a call before its pass keeps a property.
* `Collection.stockHas_runAll` — a run keeps a property of the views, if the work on views does.
-/

namespace Windowing.Collection

variable {E H M V S : Type} [ExtentModel M S] [ViewHandle H V S]
  {holds : Hosted (Journal H Nat S) (Collection M (Tracked Nat V S) S) → Prop}
  {s : Hosted (Journal H Nat S) (Collection M (Tracked Nat V S) S)}

/-- Scrolling, edits of the model, changes of the selection and of the host, and styling or changing
a view keep the property. -/
structure Upheld (holds : Hosted (Journal H Nat S) (Collection M (Tracked Nat V S) S) → Prop) :
    Prop where
  aside : ∀ {journal items other}, holds ⟨journal, items⟩ → items.Aside other →
    holds ⟨journal, other⟩
  withSelection : ∀ {journal items} (selection : Selection Nat), holds ⟨journal, items⟩ →
    holds ⟨journal, { items with selection }⟩
  withHost : ∀ {journal items} (host : H), holds ⟨journal, items⟩ →
    holds ⟨{ journal with host }, items⟩
  style : ∀ {s index slot} (selected : Bool), holds s →
    s.held.stock.live.find? index = some slot →
    let styled := Slot.style selected ⟨s.host, slot⟩
    holds ⟨styled.host, { s.held with stock := s.held.stock.put index styled.held }⟩
  editView : ∀ {s index slot} (change : V → V), holds s →
    s.held.stock.live.find? index = some slot →
    let view := { slot.view with view := change slot.view.view }
    holds ⟨s.host, { s.held with stock := s.held.stock.put index { slot with view } }⟩

section Upheld

variable (hupheld : Upheld holds)

include hupheld

theorem restyle_upheld (changes : List (Selection.Change Nat)) (h : holds s) :
    (onStock (ViewStock.restyle changes)).Ensures s (fun _ ↦ holds) holds := by
  simp only [onStock, Step.ensures_onPart]
  induction changes generalizing s with
  | nil => exact h
  | cons change rest ih =>
    simp only [ViewStock.restyle, Step.ensures_bind, ViewStock.ensures_onLive,
      Step.ensures_modify]
    cases hlive : s.held.stock.live.find? change.key with
    | none => exact ih h
    | some slot => exact ih (hupheld.style change.isSelected h hlive)

theorem changeSelection_upheld
    (change : Selection Nat → Selection Nat × List (Selection.Change Nat)) (h : holds s) :
    (changeSelection change).Ensures s (fun _ ↦ holds) holds := by
  simp only [changeSelection, Step.ensures_bind, Step.ensures_onHeld, Step.ensures_modifyGet,
    Step.ensures_pure]
  exact restyle_upheld hupheld _ (hupheld.withSelection _ h)

variable [Scalar S] [ResizableModel M S]

theorem aim_upheld (source : ItemSource H V) (index : Nat) (h : holds s) :
    (aim source.journaled index).Ensures s (fun _ ↦ holds) holds := by
  simp only [aim, pollLength, Step.ensures_bind, Step.ensures_onHost, Step.ensures_modifyGet]
  have hpolled := hupheld.withHost (source.len s.host.host).2 h
  refine (changeSelection_upheld hupheld _ hpolled).mono (fun changes t ht ↦ ?_) fun _ ht ↦ ht
  simp only [Step.ensures_ite, Step.ensures_pure, Step.ensures_bind, Step.ensures_onHeld,
    Step.ensures_modifyGet]
  split
  · exact ht
  · split
    · have hadopted := hupheld.aside (hupheld.withSelection _ ht)
        (adoptLength_aside (source.len s.host.host).1 t.held)
      exact (requestScroll_ensures _ _).mono (fun _ _ hu ↦ hupheld.aside hadopted hu)
        fun _ hu ↦ hupheld.aside hadopted hu
    · exact (requestScroll_ensures _ _).mono (fun _ _ hu ↦ hupheld.aside ht hu)
        fun _ hu ↦ hupheld.aside ht hu

/-- The part of a call before its pass keeps the property, where the call neither drops all views
nor fills one again, or filling it keeps the property too. -/
theorem lead_upheld [CrossPlacement M S] (edit : E → Step M (Reply S)) (source : ItemSource H V)
    (call : Call E H V S) (hcall : call.isDestroyAll = false) (h : holds s)
    (hrevise : ∀ index, call = .itemInvalidated index →
      (revise source.journaled index).Ensures s (fun _ ↦ holds) holds) :
    (call.journaled.lead edit source.journaled).Ensures s (fun _ ↦ holds) holds := by
  have haside {items : Collection M (Tracked Nat V S) S} : s.held.Aside items →
      holds ⟨s.host, items⟩ := hupheld.aside h
  have hkeeps : call.journaled.LeadKeeps edit source.journaled holds s := by
    refine ⟨fun hrolls ↦ haside hrolls.toAside, fun e _ ↦ ?model,
      fun change _ ↦ changeSelection_upheld hupheld change.perform h,
      fun index _ ↦ aim_upheld hupheld source index h, fun index hrevises ↦ ?revise,
      fun hdestroys ↦ ?destroyAll, fun index change hedits ↦ ?editView, fun change hhost ↦ ?host⟩
    case model =>
      rw [Step.ensures_onHeld]
      exact (onModel_ensures (edit e) s.held).mono (fun _ _ ↦ haside) fun _ ↦ haside
    case revise =>
      cases call with
      | itemInvalidated asked =>
        cases hrevises
        exact hrevise index rfl
      | _ => cases hrevises
    case destroyAll =>
      cases call with
      | destroyAll => cases hcall
      | _ => cases hdestroys
    case editView =>
      cases call with
      | editView edited own =>
        cases hedits
        simp only [Call.journaled, Call.perform, onStock, Step.ensures_bind, Step.ensures_onPart,
          ViewStock.ensures_onLive, Step.ensures_modify, Step.ensures_pure]
        cases hlive : s.held.stock.live.find? index with
        | none => exact h
        | some slot => exact hupheld.editView own h hlive
      | _ => cases hedits
    case host =>
      cases call with
      | host own =>
        cases hhost
        exact hupheld.withHost (own s.host.host) h
      | _ => cases hhost
  exact hkeeps.ensures

end Upheld

/-! ### Properties of the views -/

/-- The views of the collection, beside the journal, have a property. -/
def StockHas (holds : Hosted (Journal H Nat S) (ViewStock Nat (Tracked Nat V S) S) → Prop)
    (s : Hosted (Journal H Nat S) (Collection M (Tracked Nat V S) S)) : Prop :=
  holds ⟨s.host, s.held.stock⟩

variable {views : Hosted (Journal H Nat S) (ViewStock Nat (Tracked Nat V S) S) → Prop}

/-- A property that the work on views beside a pass keeps is kept beside passes. -/
theorem upheld_stockHas (hviews : ViewStock.Upheld views) :
    Upheld (StockHas views : Hosted (Journal H Nat S) (Collection M (Tracked Nat V S) S) → Prop)
    where
  aside {journal items other} h haside := by
    change views ⟨journal, other.stock⟩
    rw [haside.stock_eq]
    exact h
  withSelection _ h := h
  withHost host h := hviews.withHost host h
  style selected h hlive := hviews.style selected h hlive
  editView change h hlive := hviews.editView change h hlive

section StockHas

variable [Scalar S] [ResizableModel M S] [CrossPlacement M S] {source : ItemSource H V}

omit [CrossPlacement M S] in
theorem prepare_stockHas (hviews : ViewStock.Upheld views) (source : ItemSource H V)
    (h : StockHas views s) :
    (prepare source.journaled).Ensures s (fun _ ↦ StockHas views) (StockHas views) := by
  have hprepared {t : Hosted (Journal H Nat S) (Collection M (Tracked Nat V S) S)}
      (ht : t.host = (source.journaled.len s.host).2 ∧
        (s.held.openPass.syncLength (source.journaled.len s.host).1).1.Aside t.held) :
      StockHas views t := by
    have hstock : t.held.stock = s.held.stock :=
      ht.2.stock_eq.trans (syncLength_aside _ s.held.openPass).stock_eq
    change views ⟨t.host, t.held.stock⟩
    rw [ht.1, hstock]
    exact hviews.withHost _ h
  exact (prepare_aside source.journaled s).mono (fun _ _ ↦ hprepared) fun _ ↦ hprepared

theorem layout_stockHas (hviews : ViewStock.Upheld views)
    (hfollow : ∀ (layout : Layout Nat S) leaving keys inWindow {s}, views s →
      (ViewStock.follow source.journaled.views layout leaving keys inWindow).Ensures s
        (fun _ ↦ views) views)
    (h : StockHas views s) :
    (layout source.journaled).Ensures s (fun _ ↦ StockHas views) (StockHas views) := by
  rw [ensures_layout]
  refine (prepare_stockHas hviews source h).mono (fun answer t ht ↦ ?_) fun _ ht ↦ ht
  rw [ensures_realize]
  exact hfollow _ _ _ _ ht

/-- The part of a call before its pass keeps a property of the views, if filling a view again does,
and unless it drops all views. -/
theorem lead_stockHas (hviews : ViewStock.Upheld views) (edit : E → Step M (Reply S))
    (hrefill : ∀ index selected {s}, views s →
      (ViewStock.refill source.journaled.views index selected).Ensures s (fun _ ↦ views) views)
    (call : Call E H V S) (hcall : call.isDestroyAll = false) (h : StockHas views s) :
    (call.journaled.lead edit source.journaled).Ensures s (fun _ ↦ StockHas views)
      (StockHas views) := by
  refine lead_upheld (upheld_stockHas hviews) edit source call hcall h fun index _ ↦ ?_
  simp only [revise, Step.ensures_bind, Step.ensures_get]
  cases s.held.stock.kindOf? index with
  | none => exact h
  | some live =>
    simp only [Step.ensures_ite, Step.ensures_bind, Step.ensures_get, Step.ensures_pure, onStock,
      Step.ensures_onPart]
    split
    · exact hrefill index _ h
    · exact h

/-- A run keeps a property of the views, if all work on views does. -/
theorem stockHas_runAll (hviews : ViewStock.Upheld views) (edit : E → Step M (Reply S))
    (hempty : ∀ journal, views ⟨journal, .empty⟩)
    (hrefill : ∀ index selected {s}, views s →
      (ViewStock.refill source.journaled.views index selected).Ensures s (fun _ ↦ views) views)
    (hfollow : ∀ (layout : Layout Nat S) leaving keys inWindow {s}, views s →
      (ViewStock.follow source.journaled.views layout leaving keys inWindow).Ensures s
        (fun _ ↦ views) views)
    (calls : List (Call E H V S)) (h : StockHas views s) :
    StockHas views (Step.runAll (Call.record edit source) calls s).2 := by
  refine Step.holds_runAll (StockHas views) (fun call _ t ht ↦ ?_) h
  cases hcall : call.isDestroyAll with
  | true =>
    cases call with
    | destroyAll => exact hempty t.host
    | _ => cases hcall
  | false =>
    exact Call.holds_after_perform (lead_stockHas hviews edit hrefill call hcall ht) fun _ ↦
      layout_stockHas hviews hfollow

end StockHas

end Windowing.Collection
