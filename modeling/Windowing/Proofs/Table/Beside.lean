import Windowing.Proofs.Following
import Windowing.Proofs.Table.Aside
import Windowing.Proofs.Table.Runs

/-!
# What calls on a table do beside their passes

As in a collection, a call before its pass scrolls, changes row heights and column widths, changes
the selection and styles the views that this is about, or polls the source. A property of recorded
tables that all of these keep is kept by the part of every call before its pass, unless the call
fills a view again or drops all views.

## Main definitions

* `Table.Upheld` — a property that is kept beside passes.
* `Table.StockHas` — the views of the table have a property.

## Main results

* `Table.lead_upheld` — the part of a call before its pass keeps a property.
* `Table.stockHas_runAll` — a run keeps a property of the views, if the work on views does.
-/

namespace Windowing.Table

variable {H V S : Type} [Scalar S] [ViewHandle H V S]
  {holds : Hosted (Journal H CellId S) (Table (Tracked CellId V S) S) → Prop}
  {s : Hosted (Journal H CellId S) (Table (Tracked CellId V S) S)}

/-- Scrolling, changes of heights and widths, of the selection and of the host, and styling a view
keep the property. -/
structure Upheld (holds : Hosted (Journal H CellId S) (Table (Tracked CellId V S) S) → Prop) :
    Prop where
  aside : ∀ {journal table other}, holds ⟨journal, table⟩ → table.Aside other →
    holds ⟨journal, other⟩
  withSelection : ∀ {journal table} (selection : Selection CellId), holds ⟨journal, table⟩ →
    holds ⟨journal, { table with selection }⟩
  withHost : ∀ {journal table} (host : H), holds ⟨journal, table⟩ →
    holds ⟨{ journal with host }, table⟩
  style : ∀ {s cell slot} (selected : Bool), holds s →
    s.held.stock.live.find? cell = some slot →
    let styled := Slot.style selected ⟨s.host, slot⟩
    holds ⟨styled.host, { s.held with stock := s.held.stock.put cell styled.held }⟩

section Upheld

variable (hupheld : Upheld holds)

include hupheld

theorem restyle_upheld (changes : List (Selection.Change CellId)) (h : holds s) :
    (onStock (ViewStock.restyle changes)).Ensures s (fun _ ↦ holds) holds := by
  simp only [onStock, Step.ensures_onPart]
  induction changes generalizing s with
  | nil => exact h
  | cons change rest ih =>
    simp only [ViewStock.restyle, Step.ensures_bind, ViewStock.ensures_onLive,
      Step.ensures_modify]
    cases hlive : s.held.stock.live.find? change.key with
    | none => exact ih h
    | some slot => exact ih (hupheld.style change.isSelected h hlive)

theorem changeSelection_upheld
    (change : Selection CellId → Selection CellId × List (Selection.Change CellId)) (h : holds s) :
    (changeSelection change).Ensures s (fun _ ↦ holds) holds := by
  simp only [changeSelection, Step.ensures_bind, Step.ensures_onHeld, Step.ensures_modifyGet,
    Step.ensures_pure]
  exact restyle_upheld hupheld _ (hupheld.withSelection _ h)

theorem flagged_upheld {step : Step (Table (Tracked CellId V S) S) Bool} (h : holds s)
    (hstep : step.Ensures s.held (fun _ ↦ s.held.Aside) s.held.Aside) :
    (flagged (H := Journal H CellId S) step).Ensures s (fun _ ↦ holds) holds := by
  rw [flagged, Step.ensures_bind, Step.ensures_onHeld]
  exact hstep.mono (fun _ _ ht ↦ hupheld.aside h ht) fun _ ht ↦ hupheld.aside h ht

theorem aim_upheld (source : TableSource H V) (cell : CellId) (h : holds s) :
    (aim source.journaled cell).Ensures s (fun _ ↦ holds) holds := by
  simp only [aim, pollDimensions, Step.ensures_bind, Step.ensures_onHost, Step.ensures_modifyGet]
  have hpolled := hupheld.withHost (source.dimensions s.host.host).2 h
  refine (changeSelection_upheld hupheld _ hpolled).mono (fun changes t ht ↦ ?_) fun _ ht ↦ ht
  simp only [Step.ensures_ite, Step.ensures_pure, Step.ensures_bind, Step.ensures_onHeld,
    Step.ensures_modifyGet]
  split
  · exact ht
  · split
    · have hadopted := hupheld.aside (hupheld.withSelection _ ht)
        (adoptDimensions_aside (source.dimensions s.host.host).1 t.held)
      exact (scrollBoth_ensures _ _ _).mono (fun _ _ hu ↦ hupheld.aside hadopted hu)
        fun _ hu ↦ hupheld.aside hadopted hu
    · exact (scrollBoth_ensures _ _ _).mono (fun _ _ hu ↦ hupheld.aside ht hu)
        fun _ hu ↦ hupheld.aside ht hu

/-- The part of a call before its pass keeps the property, where the call neither drops all views
nor fills one again, or filling it keeps the property too. -/
theorem lead_upheld (source : TableSource H V) (call : Call H S)
    (hcall : call.isDestroyAll = false) (h : holds s)
    (hrefill : ∀ cell, call = .cellInvalidated cell →
      (cellInvalidated source.journaled cell).Ensures s (fun _ ↦ holds) holds) :
    (call.journaled.lead source.journaled).Ensures s (fun _ ↦ holds) holds := by
  have hrows (request : ScrollRequest S) :=
    flagged_upheld hupheld h (scrollRows_ensures request s.held)
  have hcols (request : ScrollRequest S) :=
    flagged_upheld hupheld h (scrollCols_ensures request s.held)
  cases call
  case layout => exact h
  case refreshAll => exact hupheld.aside h ⟨rfl, rfl, rfl, rfl, fun _ ↦ rfl, id⟩
  case dimensionsChanged => exact hupheld.aside h ⟨rfl, rfl, rfl, rfl, id, id⟩
  case destroyAll => cases hcall
  all_goals
    simp only [Call.journaled, Call.lead, Call.perform, Step.ensures_bind, Step.ensures_pure]
  case cellInvalidated cell => exact hrefill cell rfl
  case select cell => exact aim_upheld hupheld source cell h
  case unselect cell => exact changeSelection_upheld hupheld _ h
  case unselectAll => exact changeSelection_upheld hupheld _ h
  case isSelected cell => exact h
  case setViewportSize size => exact flagged_upheld hupheld h (setViewportSize_aside size s.held)
  case scrollTo offset => exact flagged_upheld hupheld h (scrollBoth_ensures _ _ s.held)
  case reveal cell => exact flagged_upheld hupheld h (scrollBoth_ensures _ _ s.held)
  case scrollToTop => exact hrows _
  case scrollToBottom => exact hrows _
  case scrollToLeading => exact hcols _
  case scrollToTrailing => exact hcols _
  case setRowHeight row height =>
    exact flagged_upheld hupheld h (setRowHeight_ensures row height s.held)
  case setColumnWidth col width =>
    exact flagged_upheld hupheld h (setColumnWidth_ensures col width s.held)
  case host change => exact hupheld.withHost (change s.host.host) h

end Upheld

/-! ### Properties of the views -/

/-- The views of the table, beside the journal, have a property. -/
def StockHas (holds : Hosted (Journal H CellId S) (ViewStock CellId (Tracked CellId V S) S) → Prop)
    (s : Hosted (Journal H CellId S) (Table (Tracked CellId V S) S)) : Prop :=
  holds ⟨s.host, s.held.stock⟩

section StockHas

variable {views : Hosted (Journal H CellId S) (ViewStock CellId (Tracked CellId V S) S) → Prop}
  {source : TableSource H V} (hviews : ViewStock.Upheld views)

include hviews

/-- A property that the work on views beside a pass keeps is kept beside passes. -/
theorem upheld_stockHas :
    Upheld (StockHas views : Hosted (Journal H CellId S) (Table (Tracked CellId V S) S) → Prop)
    where
  aside {journal table other} h haside := by
    change views ⟨journal, other.stock⟩
    rw [haside.stock_eq]
    exact h
  withSelection _ h := h
  withHost host h := hviews.withHost host h
  style selected h hlive := hviews.style selected h hlive

theorem prepare_stockHas (source : TableSource H V) (h : StockHas views s) :
    (prepare source.journaled).Ensures s (fun _ ↦ StockHas views) (StockHas views) := by
  have hprepared {t : Hosted (Journal H CellId S) (Table (Tracked CellId V S) S)}
      (ht : t.host = (source.journaled.dimensions s.host).2 ∧
        (s.held.openPass.syncDimensions (source.journaled.dimensions s.host).1).1.Aside t.held) :
      StockHas views t := by
    have hstock : t.held.stock = s.held.stock :=
      ht.2.stock_eq.trans (syncDimensions_aside _ s.held.openPass).stock_eq
    change views ⟨t.host, t.held.stock⟩
    rw [ht.1, hstock]
    exact hviews.withHost _ h
  exact (prepare_aside source.journaled s).mono (fun _ _ ↦ hprepared) fun _ ↦ hprepared

theorem layout_stockHas
    (hfollow : ∀ (layout : Layout CellId S) leaving cells inWindow {s}, views s →
      (ViewStock.follow source.journaled.views layout leaving cells inWindow).Ensures s
        (fun _ ↦ views) views)
    (h : StockHas views s) :
    (layout source.journaled).Ensures s (fun _ ↦ StockHas views) (StockHas views) := by
  rw [ensures_layout]
  refine (prepare_stockHas hviews source h).mono (fun answer t ht ↦ ?_) fun _ ht ↦ ht
  rw [ensures_realize]
  exact hfollow _ _ _ _ ht

/-- The part of a call before its pass keeps a property of the views, if filling a view again does,
and unless it drops all views. -/
theorem lead_stockHas
    (hrefill : ∀ cell selected {s}, views s →
      (ViewStock.refill source.journaled.views cell selected).Ensures s (fun _ ↦ views) views)
    (call : Call H S) (hcall : call.isDestroyAll = false) (h : StockHas views s) :
    (call.journaled.lead source.journaled).Ensures s (fun _ ↦ StockHas views)
      (StockHas views) := by
  refine lead_upheld (upheld_stockHas hviews) source call hcall h fun cell _ ↦ ?_
  simp only [cellInvalidated, onStock, Step.ensures_bind, Step.ensures_get, Step.ensures_onPart]
  exact hrefill cell _ h

/-- A run keeps a property of the views, if all work on views does. -/
theorem stockHas_runAll (hempty : ∀ journal, views ⟨journal, .empty⟩)
    (hrefill : ∀ cell selected {s}, views s →
      (ViewStock.refill source.journaled.views cell selected).Ensures s (fun _ ↦ views) views)
    (hfollow : ∀ (layout : Layout CellId S) leaving cells inWindow {s}, views s →
      (ViewStock.follow source.journaled.views layout leaving cells inWindow).Ensures s
        (fun _ ↦ views) views)
    (calls : List (Call H S)) (h : StockHas views s) :
    StockHas views (Step.runAll (Call.record source) calls s).2 := by
  refine Step.holds_runAll (StockHas views) (fun call _ t ht ↦ ?_) h
  cases hcall : call.isDestroyAll with
  | true =>
    cases call with
    | destroyAll => exact hempty t.host
    | _ => cases hcall
  | false =>
    exact Call.holds_after_perform (lead_stockHas hviews hrefill call hcall ht) fun _ ↦
      layout_stockHas hviews hfollow

end StockHas

end Windowing.Table
