import Windowing.Proofs.Collection.Coherence
import Windowing.Proofs.Collection.Reports
import Windowing.Proofs.Styling

/-!
# The style of the views of a collection

Between any two calls all live views are styled as their items are selected, unless the next pass
will fill them all again: where a pass was cut short, or where a length was taken over and its pass
is still to come. Selections that a pass drops are not announced to the views; this is right because
such a pass rebinds.

A run in which no call is cut short leaves no such work behind, so in it the views are always styled
right.

## Main definitions

* `Collection.Dressed` — the views are styled right, or are about to be filled again.
* `Collection.Idle` — no views are about to be filled again.

## Main results

* `Collection.layout_dressed`, `Collection.dressed_runAll` — passes and calls keep a collection
  dressed.
* `Collection.perform_idle` — a call that is not cut short leaves a collection idle.
-/

namespace Windowing.Collection

variable {E H M V S : Type}

/-! ### What is to be repaired -/

/-- No pass was cut short, and no rebinding is due. -/
def Idle (items : Collection M V S) : Prop :=
  items.passOpen = false ∧ items.due.rebind = false

/-- The selection is sound, and all live views are styled as their items are selected unless the
next pass fills them again. -/
structure Dressed [ViewHandle H V S]
    (s : Hosted (Journal H Nat S) (Collection M (Tracked Nat V S) S)) : Prop where
  sound : s.held.selection.Sound
  styled : s.held.Idle → s.held.stock.Styled s.held.selection.isSelected

variable [Scalar S] [ExtentModel M S] [ResizableModel M S] [CrossPlacement M S]

section Dressed

variable [ViewHandle H V S] {items : Collection M (Tracked Nat V S) S} {base : Nat}
  {s : Hosted (Journal H Nat S) (Collection M (Tracked Nat V S) S)}

omit [Scalar S] [ResizableModel M S] [CrossPlacement M S] in
/-- Scrolling and edits do not touch the views, and forget no work. -/
theorem Dressed.aside (h : Dressed s) (haside : s.held.Aside items) (journal : Journal H Nat S) :
    Dressed ⟨journal, items⟩ where
  sound := haside.selection_eq ▸ h.sound
  styled hidle := by
    have hbefore : s.held.Idle := by
      refine ⟨haside.passOpen_eq ▸ hidle.1, Bool.eq_false_iff.mpr fun hdue ↦ ?_⟩
      exact Bool.eq_false_iff.mp hidle.2 (haside.rebind hdue)
    rw [haside.stock_eq, haside.selection_eq]
    exact h.styled hbefore

omit [Scalar S] [ExtentModel M S] [ResizableModel M S] [CrossPlacement M S] in
/-- A change of the selection that reports what it does keeps the views dressed. -/
theorem changeSelection_dressed
    {change : Selection Nat → Selection Nat × List (Selection.Change Nat)}
    (hchange : ∀ {selection : Selection Nat}, selection.Sound →
      selection.Moves (change selection).2 (change selection).1)
    (h : Dressed s) : (changeSelection change).Ensures s (fun _ ↦ Dressed) Dressed := by
  have hmoves := hchange h.sound
  simp only [changeSelection, onStock, Step.ensures_bind, Step.ensures_onHeld,
    Step.ensures_modifyGet, Step.ensures_onPart, Step.ensures_pure]
  have hstyled := Step.ensures_forall fun hidle : s.held.Idle ↦
    ViewStock.restyle_styled (s := ⟨s.host, s.held.stock⟩) h.sound hmoves (h.styled hidle)
  exact hstyled.mono (fun _ _ ht ↦ ⟨hmoves.sound, ht⟩) fun _ ht ↦ ⟨hmoves.sound, fun hidle ↦
    (ht hidle).elim⟩

omit [CrossPlacement M S] in
theorem aim_dressed (source : ItemSource H V) (index : Nat) (h : Dressed s) :
    (aim source.journaled index).Ensures s (fun _ ↦ Dressed) Dressed := by
  simp only [aim, pollLength, Step.ensures_bind, Step.ensures_onHost, Step.ensures_modifyGet]
  have hpolled : Dressed ⟨(source.journaled.len s.host).2, s.held⟩ := ⟨h.sound, h.styled⟩
  refine (changeSelection_dressed (Selection.select_moves _ index) hpolled).mono
    (fun changes t ht ↦ ?_) fun _ ht ↦ ht
  simp only [Step.ensures_ite, Step.ensures_pure, Step.ensures_bind, Step.ensures_onHeld,
    Step.ensures_modifyGet]
  split
  · exact ht
  · split
    · -- Selections that are dropped here are not announced, but the pass to come rebinds.
      have hadopted : Dressed ⟨t.host, (t.held.adoptLength (source.len s.host.host).1).1⟩ :=
        ⟨(adoptLength_moves _ ht.sound).sound, fun hidle ↦ absurd hidle.2.symm Bool.false_ne_true⟩
      exact (requestScroll_ensures _ _).mono (fun _ _ hu ↦ hadopted.aside hu _)
        fun _ hu ↦ hadopted.aside hu _
    · exact (requestScroll_ensures _ _).mono (fun _ _ hu ↦ ht.aside hu _) fun _ hu ↦ ht.aside hu _

omit [Scalar S] [ExtentModel M S] [ResizableModel M S] [CrossPlacement M S] in
theorem revise_dressed (source : ItemSource H V) (index : Nat) (h : Dressed s) :
    (revise source.journaled index).Ensures s (fun _ ↦ Dressed) Dressed := by
  simp only [revise, Step.ensures_bind, Step.ensures_get]
  cases s.held.stock.kindOf? index with
  | none => exact h
  | some live =>
    simp only [Step.ensures_ite, Step.ensures_bind, Step.ensures_get, Step.ensures_pure, onStock,
      Step.ensures_onPart]
    split
    · have hstyled := Step.ensures_forall fun hidle : s.held.Idle ↦
        ViewStock.refill_styled (s := ⟨s.host, s.held.stock⟩) source.journals_views index
          (h.styled hidle)
      exact hstyled.mono (fun _ _ ht ↦ ⟨h.sound, ht⟩) fun _ ht ↦ ⟨h.sound, ht⟩
    · exact h

omit [Scalar S] [ExtentModel M S] [ResizableModel M S] [CrossPlacement M S] in
/-- The host reaches into what a view wraps, and not into what it was told. -/
theorem editView_dressed {index : Nat} {slot : Slot Nat (Tracked Nat V S) S} (change : V → V)
    (h : Dressed s) (hlive : s.held.stock.live.find? index = some slot) :
    let view := { slot.view with view := change slot.view.view }
    Dressed ⟨s.host, { s.held with stock := s.held.stock.put index { slot with view } }⟩ where
  sound := h.sound
  styled hidle := by
    have hstyled := h.styled hidle
    have hslot : slot.view.selected = some (s.held.selection.isSelected index) := hstyled hlive
    exact hstyled.put hslot

/-- The part of a call before its pass keeps a collection dressed. -/
theorem lead_dressed (edit : E → Step M (Reply S)) (source : ItemSource H V) (call : Call E H V S)
    (h : Dressed s) :
    (call.journaled.lead edit source.journaled).Ensures s (fun _ ↦ Dressed) Dressed := by
  have haside {items : Collection M (Tracked Nat V S) S} (haside : s.held.Aside items) :
      Dressed ⟨s.host, items⟩ := h.aside haside s.host
  have hkeeps : call.journaled.LeadKeeps edit source.journaled Dressed s := by
    refine ⟨fun hrolls ↦ haside hrolls.toAside, fun e _ ↦ ?model,
      fun change _ ↦ changeSelection_dressed change.perform_moves h,
      fun index _ ↦ aim_dressed source index h, fun index _ ↦ revise_dressed source index h,
      fun _ ↦ ⟨h.sound, fun _ ↦ ?destroyAll⟩, fun index change hedits ↦ ?editView,
      fun _ _ ↦ ⟨h.sound, h.styled⟩⟩
    case model =>
      rw [Step.ensures_onHeld]
      exact (onModel_ensures (edit e) s.held).mono (fun _ _ ↦ haside) fun _ ↦ haside
    case destroyAll =>
      intro index slot hslot
      cases hslot
    case editView =>
      cases call with
      | editView edited own =>
        cases hedits
        simp only [Call.journaled, Call.perform, onStock, Step.ensures_bind, Step.ensures_onPart,
          ViewStock.ensures_onLive, Step.ensures_modify, Step.ensures_pure]
        cases hlive : s.held.stock.live.find? index with
        | none => exact h
        | some slot => exact editView_dressed own h hlive
      | _ => cases hedits
  exact hkeeps.ensures

/-! ### A pass -/

omit [Scalar S] [ExtentModel M S] [ResizableModel M S] [CrossPlacement M S] [ViewHandle H V S] in
/-- A pass that does not rebind began where no pass was cut short and no rebinding was due. -/
theorem idle_of_openPass {items : Collection M V S} (h : items.openPass.due.rebind = false) :
    items.Idle := by
  rw [openPass] at h
  cases hclosed : items.passOpen with
  | false => exact ⟨hclosed, by simpa [hclosed] using h⟩
  | true => simp [hclosed, Due.refresh] at h

omit [CrossPlacement M S] [ViewHandle H V S] in
/-- A length that is taken over has all views filled again. -/
theorem syncLength_eq_self {len : Nat} {items : Collection M V S}
    (h : (items.syncLength len).1.due.rebind = false) : (items.syncLength len).1 = items := by
  rw [syncLength] at h ⊢
  split at h
  · cases h
  · next hsame => rw [if_neg hsame]

omit [CrossPlacement M S] in
/-- Before it works on views, a pass either finds them styled right or has them all filled again. -/
theorem prepare_dressed (source : ItemSource H V) (h : Dressed s) :
    (prepare source.journaled).Ensures s
      (fun _ t ↦ t.held.selection.Sound ∧
        (t.held.due.rebind = false → t.held.stock.Styled t.held.selection.isSelected) ∧
        t.held.passOpen = true)
      fun t ↦ t.held.selection.Sound ∧ t.held.passOpen = true := by
  let opened := s.held.openPass
  let len := (source.journaled.len s.host).1
  have hopened : opened.selection.Sound := h.sound
  have hsound : (opened.syncLength len).1.selection.Sound := (syncLength_moves len hopened).sound
  have hopen : (opened.syncLength len).1.passOpen = true :=
    (syncLength_aside len opened).passOpen_eq
  have hkept {t : Hosted (Journal H Nat S) (Collection M (Tracked Nat V S) S)}
      (ht : (opened.syncLength len).1.Aside t.held) :
      t.held.selection.Sound ∧ t.held.passOpen = true :=
    ⟨ht.selection_eq ▸ hsound, ht.passOpen_eq.trans hopen⟩
  refine (prepare_aside source.journaled s).mono (fun _ t ht ↦ ?_) fun t ht ↦ hkept ht.2
  have haside : (opened.syncLength len).1.Aside t.held := ht.2
  refine ⟨(hkept haside).1, fun hrebind ↦ ?_, (hkept haside).2⟩
  have hdue : (opened.syncLength len).1.due.rebind = false :=
    Bool.eq_false_iff.mpr fun hdue ↦ Bool.eq_false_iff.mp hrebind (haside.rebind hdue)
  have hsynced := syncLength_eq_self hdue
  rw [hsynced] at haside hdue
  rw [haside.stock_eq, haside.selection_eq]
  exact h.styled (idle_of_openPass hdue)

/-- After a pass that is completed all views are styled right, and where a pass is cut short the
next one fills them again. -/
theorem layout_dressed (source : ItemSource H V) (hcoherent : Coherent base s) (h : Dressed s) :
    (layout source.journaled).Ensures s
      (fun _ t ↦ Dressed t ∧ t.held.stock.Styled t.held.selection.isSelected) Dressed := by
  have hcut {t : Hosted (Journal H Nat S) (Collection M (Tracked Nat V S) S)}
      (ht : t.held.selection.Sound ∧ t.held.passOpen = true) : Dressed t :=
    ⟨ht.1, fun hidle ↦ absurd (ht.2.symm.trans hidle.1) (by decide)⟩
  rw [ensures_layout]
  refine ((prepare_ensures source hcoherent).and (prepare_dressed source h)).mono
    (fun answer t ht ↦ ?_) fun _ ht ↦ hcut ht.2
  obtain ⟨⟨hcoherent, -, -, -⟩, hsound, hstyled, hopen⟩ := ht
  let step := ViewStock.follow (source.journaled (S := S)).views (t.held.layoutFor t.held.due)
    (IndexRange.leaving t.held.window.toIndexRange answer.1.toIndexRange) answer.1.toList
    answer.1.contains
  have hfollow : step.Ensures ⟨t.host, t.held.stock⟩ _ _ :=
    ViewStock.follow_styled source.journals_views _ (fun _ ↦ IndexRange.contains_iff_mem_toList.mp)
      hcoherent.conserved hstyled
  rw [ensures_realize]
  exact hfollow.mono (fun _ _ hu ↦ ⟨⟨hsound, fun _ ↦ hu⟩, hu⟩) fun _ _ ↦ hcut ⟨hsound, hopen⟩

/-! ### Runs -/

/-- Every call keeps a collection dressed, however it ends. -/
theorem record_dressed (edit : E → Step M (Reply S)) (source : ItemSource H V)
    (call : Call E H V S) (hcoherent : Coherent base s) (h : Dressed s) :
    Dressed ((call.record edit source).after s) := by
  cases hcall : call.isDestroyAll with
  | true =>
    cases call with
    | destroyAll => exact ⟨h.sound, fun _ _ _ hslot ↦ nomatch hslot⟩
    | _ => cases hcall
  | false =>
    have hlead := (lead_coherent edit source call hcall hcoherent).and
      (lead_dressed edit source call h)
    refine (Call.holds_after_perform hlead fun t ht ↦ ?_).2
    exact ((layout_ensures source ht.1).and (layout_dressed source ht.1 ht.2)).mono
      (fun _ _ hu ↦ ⟨hu.1.1, hu.2.1⟩) fun _ hu ↦ hu

theorem dressed_runAll (edit : E → Step M (Reply S)) (source : ItemSource H V)
    (calls : List (Call E H V S)) (hcoherent : Coherent base s) (h : Dressed s) :
    Dressed (Step.runAll (Call.record edit source) calls s).2 := by
  have hboth := Step.holds_runAll (fun t ↦ (∃ base, Coherent base t) ∧ Dressed t)
    (fun call (_ : call ∈ calls) t ⟨⟨_, ht⟩, hdressed⟩ ↦
      ⟨⟨_, record_coherent edit source call ht⟩, record_dressed edit source call ht hdressed⟩)
    ⟨⟨base, hcoherent⟩, h⟩
  exact hboth.2

omit [ExtentModel M S] [ResizableModel M S] [CrossPlacement M S] in
theorem recorded_dressed (host : H) (model : M) (axis : Axis) (mode : SelectionMode)
    (lookahead : Nat) : Dressed (recorded (V := V) host model axis mode lookahead) where
  sound := Selection.sound_ofMode mode
  styled _ _ _ hslot := nomatch hslot

end Dressed

/-! ### Runs in which no call is cut short -/

section Idle

variable {items : Collection M V S}

omit [ResizableModel M S] [CrossPlacement M S] in
theorem requestScroll_idle (request : ScrollRequest S) (h : items.Idle) :
    (requestScroll request).Ensures items (fun _ ↦ Idle) fun _ ↦ True := by
  refine (requestScroll_spec request items).mono (fun _ _ ht ↦ ?_) fun _ _ ↦ trivial
  obtain ⟨viewport, -, rfl⟩ := ht
  exact h

omit [ResizableModel M S] in
theorem setViewportSize_idle (size : Size S) (h : items.Idle) :
    (items.setViewportSize size).1.Idle := by
  simp only [setViewportSize]
  split <;> split <;> exact h

omit [CrossPlacement M S] in
theorem setItemExtent_idle (index : Nat) (extent : S) (h : items.Idle) :
    (setItemExtent index extent).Ensures items (fun _ ↦ Idle) fun _ ↦ True := by
  simp only [setItemExtent, setItemExtent.onViewport, Step.ensures_bind, Step.ensures_within]
  refine Step.ensures_of_forall (fun applied _ ↦ ?_) fun _ ↦ trivial
  cases applied with
  | false => exact h
  | true => exact h

omit [CrossPlacement M S] in
theorem clearItemExtent_idle (index : Nat) (h : items.Idle) :
    (items.clearItemExtent index).1.Idle := by
  rw [clearItemExtent]
  dsimp only
  split
  · exact h
  · exact h

omit [Scalar S] [ExtentModel M S] [ResizableModel M S] [CrossPlacement M S] in
theorem onModel_idle {α : Type} (step : Step M α) (h : items.Idle) :
    (onModel step).Ensures items (fun _ ↦ Idle) fun _ ↦ True := by
  simp only [onModel, Step.ensures_bind, Step.ensures_modify, Step.ensures_within]
  exact Step.ensures_of_forall (fun _ _ ↦ h) fun _ ↦ trivial

variable [ViewHandle H V S] {s : Hosted H (Collection M V S)}

/-- A pass that is completed leaves nothing to be repaired. -/
theorem layout_idle (source : ItemSource H V) (s : Hosted H (Collection M V S)) :
    (layout source).Ensures s (fun _ t ↦ t.held.Idle) fun _ ↦ True :=
  layout_of_prepare (Step.ensures_of_forall
    (fun _ _ ↦ ⟨fun _ _ _ ↦ ⟨rfl, rfl⟩, fun _ _ ↦ trivial⟩) fun _ ↦ trivial)

omit [Scalar S] [ExtentModel M S] [ResizableModel M S] [CrossPlacement M S] in
theorem changeSelection_idle
    (change : Selection Nat → Selection Nat × List (Selection.Change Nat)) (h : s.held.Idle) :
    (changeSelection change).Ensures s (fun _ t ↦ t.held.Idle) fun _ ↦ True := by
  refine (changeSelection_spec change).mono (fun _ t ht ↦ ?_) fun _ _ ↦ trivial
  obtain ⟨-, stock, ht⟩ := ht
  exact ht ▸ h

omit [Scalar S] [ExtentModel M S] [ResizableModel M S] [CrossPlacement M S] [ViewHandle H V S] in
/-- Work on views leaves everything else. -/
theorem onStock_idle {α : Type} (step : Step (Hosted H (ViewStock Nat V S)) α) (h : s.held.Idle) :
    (onStock step).Ensures s (fun _ t ↦ t.held.Idle) fun _ ↦ True := by
  simp only [onStock, Step.ensures_onPart]
  exact Step.ensures_of_forall (fun _ _ ↦ h) fun _ ↦ trivial

omit [Scalar S] [ExtentModel M S] [ResizableModel M S] [CrossPlacement M S] in
theorem revise_idle (source : ItemSource H V) (index : Nat) (h : s.held.Idle) :
    (revise source index).Ensures s (fun _ t ↦ t.held.Idle) fun _ ↦ True := by
  simp only [revise, Step.ensures_bind, Step.ensures_get]
  split
  · exact h
  · simp only [Step.ensures_ite, Step.ensures_bind, Step.ensures_get, Step.ensures_pure]
    split
    · exact onStock_idle _ h
    · exact h

omit [CrossPlacement M S] in
/-- Where selecting an item takes over a length, a pass is to follow. -/
theorem aim_idle (source : ItemSource H V) (index : Nat) (h : s.held.Idle) :
    (aim source index).Ensures s (fun answer t ↦ answer.2 = false → t.held.Idle)
      fun _ ↦ True := by
  simp only [aim, pollLength, Step.ensures_bind, Step.ensures_onHost, Step.ensures_modifyGet]
  refine (changeSelection_idle (s := ⟨(source.len s.host).2, s.held⟩) _ h).mono
    (fun changes t ht ↦ ?_) fun _ _ ↦ trivial
  simp only [Step.ensures_ite, Step.ensures_pure, Step.ensures_bind, Step.ensures_onHeld,
    Step.ensures_modifyGet]
  split
  · exact fun _ ↦ ht
  · refine Step.ensures_of_forall (fun _ _ ↦ ?_) fun _ ↦ trivial
    exact fun hends ↦ absurd hends.symm Bool.false_ne_true

/-- A call that is not cut short leaves nothing to be repaired. -/
theorem perform_idle (edit : E → Step M (Reply S)) (source : ItemSource H V) (call : Call E H V S)
    (h : s.held.Idle) :
    (call.perform edit source).Ensures s (fun _ t ↦ t.held.Idle) fun _ ↦ True := by
  have hscroll (request : ScrollRequest S) := requestScroll_idle request h
  cases call
  all_goals simp only [Call.perform, flagged, scrolling, Step.ensures_bind, Step.ensures_pure,
    Step.ensures_onHeld, Step.ensures_modifyGet, Step.ensures_modify]
  case layout => exact layout_idle source s
  case refreshAll =>
    simp only [Collection.refreshAll, Step.ensures_bind, Step.ensures_onHeld, Step.ensures_modify]
    exact layout_idle source _
  case lengthChanged =>
    simp only [Collection.lengthChanged, Step.ensures_bind, Step.ensures_onHeld,
      Step.ensures_modify]
    exact layout_idle source _
  case itemInvalidated index =>
    simp only [Collection.itemInvalidated, Step.ensures_bind]
    refine (revise_idle source index h).mono (fun answer t ht ↦ ?_) fun _ _ ↦ trivial
    simp only [Step.ensures_ite, Step.ensures_bind, Step.ensures_pure]
    split
    · exact layout_idle source t
    · exact ht
  case select index =>
    simp only [Collection.select, Step.ensures_bind]
    refine (aim_idle source index h).mono (fun answer t ht ↦ ?_) fun _ _ ↦ trivial
    simp only [Step.ensures_ite, Step.ensures_bind, Step.ensures_pure]
    split
    · exact layout_idle source t
    · next hends => exact ht (Bool.eq_false_iff.mpr hends)
  case unselect index => exact changeSelection_idle _ h
  case unselectAll => exact changeSelection_idle _ h
  case setSelectionMode mode => exact changeSelection_idle _ h
  case isSelected index => exact h
  case setViewportSize size => exact setViewportSize_idle size h
  case scrollTo offset => exact hscroll _
  case scrollBy delta =>
    simp only [Collection.scrollBy, Step.ensures_bind, Step.ensures_get]
    exact hscroll _
  case reveal index => exact hscroll _
  case bring index align => exact hscroll _
  case scrollToStart => exact hscroll _
  case scrollToEnd => exact hscroll _
  case isFullyVisible index =>
    simp only [Step.ensures_get, Step.ensures_ofExcept]
    split
    · exact h
    · trivial
  case setItemExtent index extent => exact setItemExtent_idle index extent h
  case clearItemExtent index => exact clearItemExtent_idle index h
  case model e => exact onModel_idle (edit e) h
  case destroyAll => exact h
  case editView index change => exact onStock_idle _ h
  case host change => exact h

end Idle

/-- After a run in which no call is cut short all live views are styled as their items are
selected. -/
theorem styled_runAll [ViewHandle H V S] (edit : E → Step M (Reply S)) (source : ItemSource H V)
    (calls : List (Call E H V S)) {base : Nat}
    {s : Hosted (Journal H Nat S) (Collection M (Tracked Nat V S) S)} (hcoherent : Coherent base s)
    (h : Dressed s) (hidle : s.held.Idle)
    (hok : ∀ outcome ∈ (Step.runAll (Call.record edit source) calls s).1, outcome.isOk = true) :
    let t := (Step.runAll (Call.record edit source) calls s).2
    t.held.stock.Styled t.held.selection.isSelected :=
  (dressed_runAll edit source calls hcoherent h).styled <|
    Step.holds_runAll_of_isOk (fun t ↦ t.held.Idle)
      (fun call _ ↦ perform_idle edit source.journaled call.journaled) hidle hok

end Windowing.Collection
