import Windowing.Proofs.Styling
import Windowing.Proofs.Table.Coherence

/-!
# The style of the views of a table

As in a collection, all live views of a table are styled as their cells are selected between any two
calls, unless the next pass will fill them all again. The dimensions of the source may change at any
poll, and cells that it has lost are dropped from the selection without a word to their views.

## Main definitions

* `Table.Dressed` — the views are styled right, or are about to be filled again.
* `Table.Idle` — no views are about to be filled again.

## Main results

* `Table.layout_dressed`, `Table.dressed_runAll` — passes and calls keep a table dressed.
* `Table.styled_runAll` — the views after a run in which no call is cut short.
-/

namespace Windowing.Table

variable {H V S : Type} [Scalar S]

/-! ### What is to be repaired -/

/-- No pass was cut short, and no rebinding is due. -/
def Idle (table : Table V S) : Prop :=
  table.passOpen = false ∧ table.due.rebind = false

variable [ViewHandle H V S]

/-- The selection is sound, and all live views are styled as their cells are selected unless the
next pass fills them again. -/
structure Dressed (s : Hosted (Journal H CellId S) (Table (Tracked CellId V S) S)) : Prop where
  sound : s.held.selection.Sound
  styled : s.held.Idle → s.held.stock.Styled s.held.selection.isSelected

section Dressed

variable {table : Table (Tracked CellId V S) S} {base : Nat}
  {s : Hosted (Journal H CellId S) (Table (Tracked CellId V S) S)}

omit [ViewHandle H V S] in
/-- Scrolling and edits do not touch the views, and forget no work. -/
theorem Dressed.aside (h : Dressed s) (haside : s.held.Aside table) (journal : Journal H CellId S) :
    Dressed ⟨journal, table⟩ where
  sound := haside.selection_eq ▸ h.sound
  styled hidle := by
    have hbefore : s.held.Idle := by
      refine ⟨haside.passOpen_eq ▸ hidle.1, Bool.eq_false_iff.mpr fun hdue ↦ ?_⟩
      exact Bool.eq_false_iff.mp hidle.2 (haside.rebind hdue)
    rw [haside.stock_eq, haside.selection_eq]
    exact h.styled hbefore

omit [Scalar S] in
/-- A change of the selection that reports what it does keeps the views dressed. -/
theorem changeSelection_dressed
    {change : Selection CellId → Selection CellId × List (Selection.Change CellId)}
    (hchange : ∀ {selection : Selection CellId}, selection.Sound →
      selection.Moves (change selection).2 (change selection).1)
    (h : Dressed s) : (changeSelection change).Ensures s (fun _ ↦ Dressed) Dressed := by
  have hmoves := hchange h.sound
  simp only [changeSelection, onStock, Step.ensures_bind, Step.ensures_onHeld,
    Step.ensures_modifyGet, Step.ensures_onPart, Step.ensures_pure]
  have hstyled := Step.ensures_forall fun hidle : s.held.Idle ↦
    ViewStock.restyle_styled (s := ⟨s.host, s.held.stock⟩) h.sound hmoves (h.styled hidle)
  exact hstyled.mono (fun _ _ ht ↦ ⟨hmoves.sound, ht⟩) fun _ ht ↦ ⟨hmoves.sound, fun hidle ↦
    (ht hidle).elim⟩

theorem aim_dressed (source : TableSource H V) (cell : CellId) (h : Dressed s) :
    (aim source.journaled cell).Ensures s (fun _ ↦ Dressed) Dressed := by
  simp only [aim, pollDimensions, Step.ensures_bind, Step.ensures_onHost, Step.ensures_modifyGet]
  have hpolled : Dressed ⟨(source.journaled.dimensions s.host).2, s.held⟩ := ⟨h.sound, h.styled⟩
  refine (changeSelection_dressed (Selection.select_moves _ cell) hpolled).mono
    (fun changes t ht ↦ ?_) fun _ ht ↦ ht
  simp only [Step.ensures_ite, Step.ensures_pure, Step.ensures_bind, Step.ensures_onHeld,
    Step.ensures_modifyGet]
  split
  · exact ht
  · split
    · -- Selections that are dropped here are not announced, but the pass to come rebinds.
      have hadopted :
          Dressed ⟨t.host, (t.held.adoptDimensions (source.dimensions s.host.host).1).1⟩ :=
        ⟨(Selection.retain_moves _ ht.sound).sound,
          fun hidle ↦ absurd hidle.2.symm Bool.false_ne_true⟩
      exact (scrollBoth_ensures _ _ _).mono (fun _ _ hu ↦ hadopted.aside hu _)
        fun _ hu ↦ hadopted.aside hu _
    · exact (scrollBoth_ensures _ _ _).mono (fun _ _ hu ↦ ht.aside hu _) fun _ hu ↦ ht.aside hu _

omit [Scalar S] in
theorem cellInvalidated_dressed (source : TableSource H V) (cell : CellId) (h : Dressed s) :
    (cellInvalidated source.journaled cell).Ensures s (fun _ ↦ Dressed) Dressed := by
  simp only [cellInvalidated, onStock, Step.ensures_bind, Step.ensures_get, Step.ensures_onPart]
  have hstyled := Step.ensures_forall fun hidle : s.held.Idle ↦
    ViewStock.refill_styled (s := ⟨s.host, s.held.stock⟩) source.journals_views cell
      (h.styled hidle)
  exact hstyled.mono (fun _ _ ht ↦ ⟨h.sound, ht⟩) fun _ ht ↦ ⟨h.sound, ht⟩

omit [ViewHandle H V S] in
theorem flagged_dressed {step : Step (Table (Tracked CellId V S) S) Bool} (h : Dressed s)
    (hstep : step.Ensures s.held (fun _ ↦ s.held.Aside) s.held.Aside) :
    (flagged (H := Journal H CellId S) step).Ensures s (fun _ ↦ Dressed) Dressed := by
  rw [flagged, Step.ensures_bind, Step.ensures_onHeld]
  exact hstep.mono (fun _ _ ht ↦ h.aside ht _) fun _ ht ↦ h.aside ht _

/-- The part of a call before its pass keeps a table dressed. -/
theorem lead_dressed (source : TableSource H V) (call : Call H S) (h : Dressed s) :
    (call.journaled.lead source.journaled).Ensures s (fun _ ↦ Dressed) Dressed := by
  have hrows (request : ScrollRequest S) := flagged_dressed h (scrollRows_ensures request s.held)
  have hcols (request : ScrollRequest S) := flagged_dressed h (scrollCols_ensures request s.held)
  cases call
  case layout => exact h
  case refreshAll =>
    have haside : s.held.Aside s.held.announceRefresh := ⟨rfl, rfl, rfl, rfl, fun _ ↦ rfl, id⟩
    exact h.aside haside s.host
  case dimensionsChanged =>
    have haside : s.held.Aside s.held.announceDimensions := ⟨rfl, rfl, rfl, rfl, id, id⟩
    exact h.aside haside s.host
  case destroyAll => exact ⟨h.sound, fun _ _ _ hslot ↦ nomatch hslot⟩
  all_goals
    simp only [Call.journaled, Call.lead, Call.perform, Step.ensures_bind, Step.ensures_pure]
  case cellInvalidated cell => exact cellInvalidated_dressed source cell h
  case select cell => exact aim_dressed source cell h
  case unselect cell => exact changeSelection_dressed (Selection.unselect_moves cell) h
  case unselectAll =>
    exact changeSelection_dressed (fun {selection} _ ↦ Selection.unselectAll_moves selection) h
  case isSelected cell => exact h
  case setViewportSize size => exact flagged_dressed h (setViewportSize_aside size s.held)
  case scrollTo offset => exact flagged_dressed h (scrollBoth_ensures _ _ s.held)
  case reveal cell => exact flagged_dressed h (scrollBoth_ensures _ _ s.held)
  case scrollToTop => exact hrows _
  case scrollToBottom => exact hrows _
  case scrollToLeading => exact hcols _
  case scrollToTrailing => exact hcols _
  case setRowHeight row height => exact flagged_dressed h (setRowHeight_ensures row height s.held)
  case setColumnWidth col width => exact flagged_dressed h (setColumnWidth_ensures col width s.held)
  case host change => exact ⟨h.sound, h.styled⟩

/-! ### A pass -/

omit [Scalar S] [ViewHandle H V S] in
/-- A pass that does not rebind began where no pass was cut short and no rebinding was due. -/
theorem idle_of_openPass {table : Table V S} (h : table.openPass.due.rebind = false) :
    table.Idle := by
  rw [openPass] at h
  cases hclosed : table.passOpen with
  | false => exact ⟨hclosed, by simpa [hclosed] using h⟩
  | true => simp [hclosed, Due.refresh] at h

omit [ViewHandle H V S] in
/-- Dimensions that are taken over have all views filled again. -/
theorem syncDimensions_eq_self {dimensions : Nat × Nat} {table : Table V S}
    (h : (table.syncDimensions dimensions).1.due.rebind = false) :
    (table.syncDimensions dimensions).1 = table := by
  rw [syncDimensions] at h ⊢
  split at h
  · cases h
  · next hsame => rw [if_neg hsame]

omit [ViewHandle H V S] in
theorem syncDimensions_sound (dimensions : Nat × Nat) {table : Table V S}
    (h : table.selection.Sound) : (table.syncDimensions dimensions).1.selection.Sound := by
  rw [syncDimensions]
  split
  · exact (Selection.retain_moves _ h).sound
  · exact h

omit [ViewHandle H V S] in
/-- Before it works on views, a pass either finds them styled right or has them all filled again. -/
theorem prepare_dressed (source : TableSource H V) (h : Dressed s) :
    (prepare source.journaled).Ensures s
      (fun _ t ↦ t.held.selection.Sound ∧
        (t.held.due.rebind = false → t.held.stock.Styled t.held.selection.isSelected) ∧
        t.held.passOpen = true)
      fun t ↦ t.held.selection.Sound ∧ t.held.passOpen = true := by
  let opened := s.held.openPass
  let dimensions := (source.journaled.dimensions s.host).1
  have hopened : opened.selection.Sound := h.sound
  have hsound : (opened.syncDimensions dimensions).1.selection.Sound :=
    syncDimensions_sound dimensions hopened
  have hopen : (opened.syncDimensions dimensions).1.passOpen = true :=
    (syncDimensions_aside dimensions opened).passOpen_eq
  have hkept {t : Hosted (Journal H CellId S) (Table (Tracked CellId V S) S)}
      (ht : (opened.syncDimensions dimensions).1.Aside t.held) :
      t.held.selection.Sound ∧ t.held.passOpen = true :=
    ⟨ht.selection_eq ▸ hsound, ht.passOpen_eq.trans hopen⟩
  refine (prepare_aside source.journaled s).mono (fun _ t ht ↦ ?_) fun t ht ↦ hkept ht.2
  have haside : (opened.syncDimensions dimensions).1.Aside t.held := ht.2
  refine ⟨(hkept haside).1, fun hrebind ↦ ?_, (hkept haside).2⟩
  have hdue : (opened.syncDimensions dimensions).1.due.rebind = false :=
    Bool.eq_false_iff.mpr fun hdue ↦ Bool.eq_false_iff.mp hrebind (haside.rebind hdue)
  have hsynced := syncDimensions_eq_self hdue
  rw [hsynced] at haside hdue
  rw [haside.stock_eq, haside.selection_eq]
  exact h.styled (idle_of_openPass hdue)

/-- After a pass that is completed all views are styled right, and where a pass is cut short the
next one fills them again. -/
theorem layout_dressed (source : TableSource H V) (hcoherent : Coherent base s) (h : Dressed s) :
    (layout source.journaled).Ensures s
      (fun _ t ↦ Dressed t ∧ t.held.stock.Styled t.held.selection.isSelected) Dressed := by
  have hcut {t : Hosted (Journal H CellId S) (Table (Tracked CellId V S) S)}
      (ht : t.held.selection.Sound ∧ t.held.passOpen = true) : Dressed t :=
    ⟨ht.1, fun hidle ↦ absurd (ht.2.symm.trans hidle.1) (by decide)⟩
  rw [ensures_layout]
  refine ((prepare_ensures source hcoherent).and (prepare_dressed source h)).mono
    (fun answer t ht ↦ ?_) fun _ ht ↦ hcut ht.2
  obtain ⟨⟨hcoherent, -, -, -⟩, hsound, hstyled, hopen⟩ := ht
  let step := ViewStock.follow (source.journaled (S := S)).views (t.held.layoutFor t.held.due)
    (t.held.window.leaving answer.1) answer.1.cells answer.1.contains
  have hfollow : step.Ensures ⟨t.host, t.held.stock⟩ _ _ :=
    ViewStock.follow_styled source.journals_views _ (fun _ ↦ TableWindow.mem_cells_iff.mpr)
      hcoherent.conserved hstyled
  rw [ensures_realize]
  exact hfollow.mono (fun _ _ hu ↦ ⟨⟨hsound, fun _ ↦ hu⟩, hu⟩) fun _ _ ↦ hcut ⟨hsound, hopen⟩

/-! ### Runs -/

/-- Every call keeps a table dressed, however it ends. -/
theorem record_dressed (source : TableSource H V) (call : Call H S) (hcoherent : Coherent base s)
    (h : Dressed s) : Dressed ((call.record source).after s) := by
  cases hcall : call.isDestroyAll with
  | true =>
    cases call with
    | destroyAll => exact ⟨h.sound, fun _ _ _ hslot ↦ nomatch hslot⟩
    | _ => cases hcall
  | false =>
    have hlead := (lead_coherent source call hcall hcoherent).and (lead_dressed source call h)
    refine (Call.holds_after_perform hlead fun t ht ↦ ?_).2
    exact ((layout_ensures source ht.1).and (layout_dressed source ht.1 ht.2)).mono
      (fun _ _ hu ↦ ⟨hu.1.1, hu.2.1⟩) fun _ hu ↦ hu

theorem dressed_runAll (source : TableSource H V) (calls : List (Call H S))
    (hcoherent : Coherent base s) (h : Dressed s) :
    Dressed (Step.runAll (Call.record source) calls s).2 := by
  have hboth := Step.holds_runAll (fun t ↦ (∃ base, Coherent base t) ∧ Dressed t)
    (fun call (_ : call ∈ calls) t ⟨⟨_, ht⟩, hdressed⟩ ↦
      ⟨⟨_, record_coherent source call ht⟩, record_dressed source call ht hdressed⟩)
    ⟨⟨base, hcoherent⟩, h⟩
  exact hboth.2

omit [ViewHandle H V S] in
theorem recorded_dressed (host : H) (rows cols : Strip S) (mode : SelectionMode)
    (lookahead : Nat) : Dressed (recorded (V := V) host rows cols mode lookahead) where
  sound := Selection.sound_ofMode mode
  styled _ _ _ hslot := nomatch hslot

end Dressed

/-! ### Runs in which no call is cut short -/

section Idle

variable {table : Table V S} {s : Hosted H (Table V S)}

omit [ViewHandle H V S]

theorem scrollRows_idle (request : ScrollRequest S) (h : table.Idle) :
    (scrollRows request).Ensures table (fun _ ↦ Idle) fun _ ↦ True := by
  simp only [scrollRows, Step.ensures_bind, Step.ensures_modify, Step.ensures_get,
    Step.ensures_ofExcept, Step.ensures_pure]
  split
  · exact h
  · trivial

theorem scrollCols_idle (request : ScrollRequest S) (h : table.Idle) :
    (scrollCols request).Ensures table (fun _ ↦ Idle) fun _ ↦ True := by
  simp only [scrollCols, Step.ensures_bind, Step.ensures_modify, Step.ensures_get,
    Step.ensures_ofExcept, Step.ensures_pure]
  split
  · exact h
  · trivial

theorem scrollBoth_idle (rowRequest colRequest : ScrollRequest S) (h : table.Idle) :
    (scrollBoth rowRequest colRequest).Ensures table (fun _ ↦ Idle) fun _ ↦ True := by
  simp only [scrollBoth, Step.ensures_bind, Step.ensures_pure]
  exact (scrollRows_idle rowRequest h).mono (fun _ _ ht ↦ scrollCols_idle colRequest ht)
    fun _ _ ↦ trivial

theorem setViewportSize_idle (size : Size S) (h : table.Idle) :
    (table.setViewportSize size).1.Idle := by
  simp only [setViewportSize]
  split
  · exact h
  · exact h

theorem setRowHeight_idle (row : Nat) (height : S) (h : table.Idle) :
    (setRowHeight row height).Ensures table (fun _ ↦ Idle) fun _ ↦ True := by
  simp only [setRowHeight, Step.ensures_bind, Step.ensures_within]
  refine Step.ensures_of_forall (fun applied _ ↦ ?_) fun _ ↦ trivial
  cases applied with
  | false => exact h
  | true => exact h

theorem setColumnWidth_idle (col : Nat) (width : S) (h : table.Idle) :
    (setColumnWidth col width).Ensures table (fun _ ↦ Idle) fun _ ↦ True := by
  simp only [setColumnWidth, Step.ensures_bind, Step.ensures_within]
  refine Step.ensures_of_forall (fun applied _ ↦ ?_) fun _ ↦ trivial
  cases applied with
  | false => exact h
  | true => exact h

omit [Scalar S] in
/-- Work on views leaves everything else. -/
theorem onStock_idle {α : Type} (step : Step (Hosted H (ViewStock CellId V S)) α)
    (h : s.held.Idle) : (onStock step).Ensures s (fun _ t ↦ t.held.Idle) fun _ ↦ True := by
  simp only [onStock, Step.ensures_onPart]
  exact Step.ensures_of_forall (fun _ _ ↦ h) fun _ ↦ trivial

variable [ViewHandle H V S]

omit [Scalar S] in
theorem changeSelection_idle
    (change : Selection CellId → Selection CellId × List (Selection.Change CellId))
    (h : s.held.Idle) :
    (changeSelection change).Ensures s (fun _ t ↦ t.held.Idle) fun _ ↦ True := by
  simp only [changeSelection, Step.ensures_bind, Step.ensures_onHeld, Step.ensures_modifyGet,
    Step.ensures_pure]
  exact onStock_idle _ h

/-- Where selecting a cell takes over dimensions, a pass is to follow. -/
theorem aim_idle (source : TableSource H V) (cell : CellId) (h : s.held.Idle) :
    (aim source cell).Ensures s (fun answer t ↦ answer.2 = false → t.held.Idle)
      fun _ ↦ True := by
  simp only [aim, pollDimensions, Step.ensures_bind, Step.ensures_onHost, Step.ensures_modifyGet]
  refine (changeSelection_idle (s := ⟨(source.dimensions s.host).2, s.held⟩) _ h).mono
    (fun changes t ht ↦ ?_) fun _ _ ↦ trivial
  simp only [Step.ensures_ite, Step.ensures_pure, Step.ensures_bind, Step.ensures_onHeld,
    Step.ensures_modifyGet]
  split
  · exact fun _ ↦ ht
  · refine Step.ensures_of_forall (fun _ _ ↦ ?_) fun _ ↦ trivial
    exact fun hends ↦ absurd hends.symm Bool.false_ne_true

/-- A pass that is completed leaves nothing to be repaired. -/
theorem layout_idle (source : TableSource H V) (s : Hosted H (Table V S)) :
    (layout source).Ensures s (fun _ t ↦ t.held.Idle) fun _ ↦ True :=
  layout_of_prepare (Step.ensures_of_forall
    (fun _ _ ↦ ⟨fun _ _ _ ↦ ⟨rfl, rfl⟩, fun _ _ ↦ trivial⟩) fun _ ↦ trivial)

/-- A call that is not cut short leaves nothing to be repaired. -/
theorem perform_idle (source : TableSource H V) (call : Call H S) (h : s.held.Idle) :
    (call.perform source).Ensures s (fun _ t ↦ t.held.Idle) fun _ ↦ True := by
  cases call
  all_goals simp only [Call.perform, flagged, Step.ensures_bind, Step.ensures_pure,
    Step.ensures_onHeld, Step.ensures_modifyGet, Step.ensures_modify]
  case layout => exact layout_idle source s
  case refreshAll =>
    simp only [Table.refreshAll, Step.ensures_bind, Step.ensures_onHeld, Step.ensures_modify]
    exact layout_idle source _
  case dimensionsChanged =>
    simp only [Table.dimensionsChanged, Step.ensures_bind, Step.ensures_onHeld, Step.ensures_modify]
    exact layout_idle source _
  case cellInvalidated cell => exact onStock_idle _ h
  case select cell =>
    simp only [Table.select, Step.ensures_bind]
    refine (aim_idle source cell h).mono (fun answer t ht ↦ ?_) fun _ _ ↦ trivial
    simp only [Step.ensures_ite, Step.ensures_bind, Step.ensures_pure]
    split
    · exact layout_idle source t
    · next hends => exact ht (Bool.eq_false_iff.mpr hends)
  case unselect cell => exact changeSelection_idle _ h
  case unselectAll => exact changeSelection_idle _ h
  case isSelected cell => exact h
  case setViewportSize size => exact setViewportSize_idle size h
  case scrollTo offset => exact scrollBoth_idle _ _ h
  case reveal cell => exact scrollBoth_idle _ _ h
  case scrollToTop => exact scrollRows_idle _ h
  case scrollToBottom => exact scrollRows_idle _ h
  case scrollToLeading => exact scrollCols_idle _ h
  case scrollToTrailing => exact scrollCols_idle _ h
  case setRowHeight row height => exact setRowHeight_idle row height h
  case setColumnWidth col width => exact setColumnWidth_idle col width h
  case destroyAll => exact h
  case host change => exact h

end Idle

/-- After a run in which no call is cut short all live views are styled as their cells are
selected. -/
theorem styled_runAll (source : TableSource H V) (calls : List (Call H S)) {base : Nat}
    {s : Hosted (Journal H CellId S) (Table (Tracked CellId V S) S)} (hcoherent : Coherent base s)
    (h : Dressed s) (hidle : s.held.Idle)
    (hok : ∀ outcome ∈ (Step.runAll (Call.record source) calls s).1, outcome.isOk = true) :
    let t := (Step.runAll (Call.record source) calls s).2
    t.held.stock.Styled t.held.selection.isSelected :=
  (dressed_runAll source calls hcoherent h).styled <|
    Step.holds_runAll_of_isOk (fun t ↦ t.held.Idle)
      (fun call _ ↦ perform_idle source.journaled call.journaled) hidle hok

end Windowing.Table
