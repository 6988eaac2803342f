import Windowing.Proofs.Strands
import Windowing.Proofs.Table.Viewports
import Windowing.Rehearsal

/-!
# The axes of a table

A table scrolls its rows and its columns each with a viewport of its own. What a run of calls says
about one axis, in its *course*, is all that decides what is seen along this axis after each pass:
where the table is scrolled to, and which rows or which columns are realized. Two runs may differ as
they like about the other axis, and about the hosts and their views. Left out are calls that select,
which may scroll, and calls that are cut short.

There is one way in which the axes do get in each other's way. A resize along the other axis alone
has this one record where it is scrolled to. If then an extent is set along this axis that pulls the
table back, the next pass scrolls to where it was before, as it would not do without the resize.

## Main definitions

* `Table.strand` — one axis of a table.
* `Table.course` — what a run says about an axis.
* `Table.sightings` — what is seen along an axis after each pass of a run.
* `Table.undisturbed` — no pass of a run scrolls elsewhere along an axis than this one alone has it.

## Main results

* `Table.perform_turns` — what a call does to each axis.
* `Table.Poised.sightings_eq_iff` — what is seen along an axis is what is seen of the axis alone,
  exactly if the run is undisturbed.
* `Table.Poised.undisturbed` — so it is, as long as no extent is set.
* `Table.axes_independent_iff` — runs with the same course along an axis see the same along it.
-/

namespace Windowing

/-- What belongs to an axis, of what there is for the rows and for the columns. -/
def Axis.along {α : Type} (rows cols : α) : Axis → α
  | vertical => rows
  | horizontal => cols

namespace Table

open Strand (Event Turns)

variable {H V S : Type}

/-- One axis of a table. -/
def strand (axis : Axis) (table : Table V S) : Strand S where
  viewport := axis.along table.rows table.cols
  pending := axis.along table.pendingRows table.pendingCols

/-- The rows or the columns that the last pass realized. -/
def range (axis : Axis) (table : Table V S) : IndexRange :=
  axis.along table.window.rows table.window.cols

theorem ViewportsHave.strand {holds : Viewport (Strip S) S → Prop} {table : Table V S}
    (h : table.ViewportsHave holds) (axis : Axis) : holds (table.strand axis).viewport := by
  cases axis with
  | vertical => exact h.rows
  | horizontal => exact h.cols

variable [Scalar S] {table : Table V S} {s : Hosted H (Table V S)}

/-! ### What concerns an axis -/

/-- How a call concerns an axis, if at all. A pass finds what the source answers to the poll. -/
def Call.event? (axis : Axis) (source : TableSource H V) (host : H) :
    Call H S → Option (Event S)
  | layout | refreshAll | dimensionsChanged =>
    let dimensions := (source.dimensions host).1
    some (.pass (axis.along dimensions.1 dimensions.2))
  | setViewportSize size => some (.resize (axis.along size.height size.width))
  | scrollTo offset => some (.scroll (.offset (axis.along offset.y offset.x)))
  | reveal cell => some (.scroll (.item (axis.along cell.row cell.col) .nearest))
  | scrollToTop => axis.along (some (.scroll (.offset Scalar.zero))) none
  | scrollToBottom => axis.along (some (.scroll .stop)) none
  | scrollToLeading => axis.along none (some (.scroll (.offset Scalar.zero)))
  | scrollToTrailing => axis.along none (some (.scroll .stop))
  | setRowHeight row height => axis.along (some (.setExtent row height)) none
  | setColumnWidth col width => axis.along none (some (.setExtent col width))
  | _ => none

/-- Whether a call runs a pass, and does nothing but that. -/
def Call.isPass : Call H S → Bool
  | layout | refreshAll | dimensionsChanged => true
  | _ => false

variable [ViewHandle H V S]

/-- What a run of calls says about an axis. -/
def course (axis : Axis) (source : TableSource H V) :
    List (Call H S) → Hosted H (Table V S) → List (Event S)
  | [], _ => []
  | call :: rest, s =>
    (call.event? axis source s.host).toList ++
      course axis source rest ((call.perform source).after s)

/-- What is seen along an axis after each pass of a run: how far the table is scrolled, and which
rows or columns are realized. -/
def sightings (axis : Axis) (source : TableSource H V) :
    List (Call H S) → Hosted H (Table V S) → List (S × IndexRange)
  | [], _ => []
  | call :: rest, s =>
    let t := (call.perform source).after s
    (if call.isPass then [((t.held.strand axis).viewport.offset, t.held.range axis)] else []) ++
      sightings axis source rest t

/-- No pass of a run scrolls elsewhere along an axis than it would by `own` alone, the request that
is pending because of what concerns the axis: a resize of the other axis may have recorded another
one. -/
def undisturbed [DecidableEq S] (axis : Axis) (source : TableSource H V) :
    Option (ScrollRequest S) → List (Call H S) → Hosted H (Table V S) → Bool
  | _, [], _ => true
  | own, call :: rest, s =>
    let t := (call.perform source).after s
    let strand := s.held.strand axis
    match call.event? axis source s.host with
    | none => undisturbed axis source own rest t
    | some event =>
      let alone := Strand.turn event { strand with pending := own }
      (!event.isPass || alone.viewport.offset = (strand.turn event).viewport.offset) &&
        undisturbed axis source alone.pending rest t

/-! ### Scrolling and edits -/

omit [ViewHandle H V S]

theorem scrollRows_spec (request : ScrollRequest S) (table : Table V S) :
    (scrollRows request).Ensures table
      (fun _ t ↦ t = { table with
        rows := Strand.requested request table.rows, pendingRows := some request })
      fun _ ↦ False := by
  obtain ⟨moved, hmoved⟩ := Viewport.exists_apply_eq_ok request table.rows
  simp only [scrollRows, Step.ensures_bind, Step.ensures_modify, Step.ensures_get,
    Step.ensures_ofExcept, Step.ensures_pure, hmoved, Strand.requested]

theorem scrollCols_spec (request : ScrollRequest S) (table : Table V S) :
    (scrollCols request).Ensures table
      (fun _ t ↦ t = { table with
        cols := Strand.requested request table.cols, pendingCols := some request })
      fun _ ↦ False := by
  obtain ⟨moved, hmoved⟩ := Viewport.exists_apply_eq_ok request table.cols
  simp only [scrollCols, Step.ensures_bind, Step.ensures_modify, Step.ensures_get,
    Step.ensures_ofExcept, Step.ensures_pure, hmoved, Strand.requested]

theorem scrollRows_turns (axis : Axis) (request : ScrollRequest S) (table : Table V S) :
    (scrollRows request).Ensures table
      (fun _ t ↦ Turns (axis.along (some (.scroll request)) none) (table.strand axis)
        (t.strand axis)) fun _ ↦ False := by
  refine (scrollRows_spec request table).mono ?_ fun _ ↦ id
  rintro _ _ rfl
  cases axis with
  | vertical => exact .event (.scroll request) _
  | horizontal => exact .idle _

theorem scrollCols_turns (axis : Axis) (request : ScrollRequest S) (table : Table V S) :
    (scrollCols request).Ensures table
      (fun _ t ↦ Turns (axis.along none (some (.scroll request))) (table.strand axis)
        (t.strand axis)) fun _ ↦ False := by
  refine (scrollCols_spec request table).mono ?_ fun _ ↦ id
  rintro _ _ rfl
  cases axis with
  | vertical => exact .idle _
  | horizontal => exact .event (.scroll request) _

theorem scrollBoth_turns {axis : Axis} {request rowRequest colRequest : ScrollRequest S}
    (hrequest : axis.along rowRequest colRequest = request) (table : Table V S) :
    (scrollBoth rowRequest colRequest).Ensures table
      (fun _ t ↦ Turns (some (.scroll request)) (table.strand axis) (t.strand axis))
      fun _ ↦ False := by
  simp only [scrollBoth, Step.ensures_bind, Step.ensures_pure]
  refine (scrollRows_spec rowRequest table).mono ?_ fun _ ↦ id
  rintro _ _ rfl
  refine (scrollCols_spec colRequest _).mono ?_ fun _ ↦ id
  rintro _ _ rfl
  subst hrequest
  cases axis <;> exact .event (.scroll _) _

theorem setRowHeight_turns (axis : Axis) (row : Nat) (height : S) (table : Table V S) :
    (setRowHeight row height).Ensures table
      (fun _ t ↦ Turns (axis.along (some (.setExtent row height)) none) (table.strand axis)
        (t.strand axis)) fun _ ↦ True := by
  simp only [setRowHeight, Viewport.onModel, Step.ensures_bind, Step.ensures_within]
  cases hr : Strip.setOverride row height table.rows.model with
  | error fault rows => simp only [Step.Ensures, hr]
  | ok applied rows =>
    rw [Step.ensures_of_eq_ok hr]
    have hset := Turns.event (.setExtent row height) (table.strand .vertical)
    simp only [Strand.turn, Strand.setExtent, Strand.extended, strand, Axis.along, hr] at hset
    cases applied <;> cases axis
    case false.horizontal | true.horizontal => exact .idle _
    case false.vertical | true.vertical => exact hset

theorem setColumnWidth_turns (axis : Axis) (col : Nat) (width : S) (table : Table V S) :
    (setColumnWidth col width).Ensures table
      (fun _ t ↦ Turns (axis.along none (some (.setExtent col width))) (table.strand axis)
        (t.strand axis)) fun _ ↦ True := by
  simp only [setColumnWidth, Viewport.onModel, Step.ensures_bind, Step.ensures_within]
  cases hr : Strip.setOverride col width table.cols.model with
  | error fault cols => simp only [Step.Ensures, hr]
  | ok applied cols =>
    rw [Step.ensures_of_eq_ok hr]
    have hset := Turns.event (.setExtent col width) (table.strand .horizontal)
    simp only [Strand.turn, Strand.setExtent, Strand.extended, strand, Axis.along, hr] at hset
    cases applied <;> cases axis
    case false.vertical | true.vertical => exact .idle _
    case false.horizontal | true.horizontal => exact hset

theorem setViewportSize_turns (axis : Axis) (size : Size S) (table : Table V S) :
    Turns (some (.resize (axis.along size.height size.width))) (table.strand axis)
      ((table.setViewportSize size).1.strand axis) := by
  simp only [setViewportSize]
  split
  · cases axis with
    | vertical => exact Strand.turns_resize size.height (table.strand .vertical)
    | horizontal => exact Strand.turns_resize size.width (table.strand .horizontal)
  · next hnot =>
    rw [Bool.not_eq_true, Bool.or_eq_false_iff] at hnot
    cases axis with
    | vertical => exact Strand.turns_resize_self hnot.1
    | horizontal => exact Strand.turns_resize_self hnot.2

/-! ### Passes -/

theorem applyPendingRows_caughtUp (table : Table V S) :
    applyPendingRows.Ensures table
      (fun _ t ↦ t = { table with
        rows := (table.strand .vertical).caughtUp, pendingRows := none })
      fun _ ↦ False := by
  simp only [applyPendingRows, Step.ensures_bind, Step.ensures_get, Strand.caughtUp, strand,
    Axis.along]
  cases hpending : table.pendingRows with
  | none =>
    rw [Step.ensures_pure, Option.elim_none, ← hpending]
  | some request =>
    obtain ⟨moved, hmoved⟩ := Viewport.exists_apply_eq_ok request table.rows
    simp only [Step.ensures_bind, Step.ensures_modify, Step.ensures_get, Step.ensures_ofExcept,
      hmoved, Option.elim_some, Strand.requested]

theorem applyPendingCols_caughtUp (table : Table V S) :
    applyPendingCols.Ensures table
      (fun _ t ↦ t = { table with
        cols := (table.strand .horizontal).caughtUp, pendingCols := none })
      fun _ ↦ False := by
  simp only [applyPendingCols, Step.ensures_bind, Step.ensures_get, Strand.caughtUp, strand,
    Axis.along]
  cases hpending : table.pendingCols with
  | none =>
    rw [Step.ensures_pure, Option.elim_none, ← hpending]
  | some request =>
    obtain ⟨moved, hmoved⟩ := Viewport.exists_apply_eq_ok request table.cols
    simp only [Step.ensures_bind, Step.ensures_modify, Step.ensures_get, Step.ensures_ofExcept,
      hmoved, Option.elim_some, Strand.requested]

/-- The part of a pass that concerns scrolling takes each axis through a pass, and finds what shows
along it. -/
theorem approach_turns (axis : Axis) (dimensions : Nat × Nat)
    (h : table.ViewportsHave Viewport.Fresh) :
    (approach dimensions).Ensures table
      (fun answer t ↦
        Turns (some (.pass (axis.along dimensions.1 dimensions.2))) (table.strand axis)
          (t.strand axis) ∧
        axis.along answer.1.rows answer.1.cols =
          (t.strand axis).viewport.freshWindow.toIndexRange)
      fun _ ↦ False := by
  have hfresh := syncDimensions_viewports Viewport.upheld_fresh.tended dimensions h
  have hturns : Turns (some (.pass (axis.along dimensions.1 dimensions.2))) (table.strand axis)
      ((table.syncDimensions dimensions).1.strand axis).finish := by
    rw [syncDimensions]
    split
    · cases axis with
      | vertical => exact .event (.pass dimensions.1) (table.strand .vertical)
      | horizontal => exact .event (.pass dimensions.2) (table.strand .horizontal)
    · next hsame =>
      simp only [Bool.or_eq_true, bne_iff_ne, ne_eq, not_or, not_not] at hsame
      rw [hsame.2]
      cases axis <;> exact .keep rfl
  simp only [approach, Step.ensures_bind, Step.ensures_modify, Step.ensures_modifyGet,
    Prod.snd_swap]
  refine (applyPendingRows_caughtUp _).mono ?_ fun _ ↦ id
  rintro _ _ rfl
  refine (applyPendingCols_caughtUp _).mono ?_ fun _ ↦ id
  rintro _ _ rfl
  generalize (table.syncDimensions dimensions).1 = synced at hturns hfresh
  have hwindow := (Strand.fresh_caughtUp (hfresh.strand axis)).clamp.window_eq
  cases axis with
  | vertical => exact ⟨hturns, congrArg VisibleWindow.toIndexRange hwindow⟩
  | horizontal => exact ⟨hturns, congrArg VisibleWindow.toIndexRange hwindow⟩

/-! ### Calls -/

variable [ViewHandle H V S]

theorem layout_turns (axis : Axis) (source : TableSource H V)
    (h : s.held.ViewportsHave Viewport.Fresh) :
    (layout source).Ensures s
      (fun _ t ↦
        Turns ((Call.layout : Call H S).event? axis source s.host) (s.held.strand axis)
          (t.held.strand axis) ∧
        t.held.range axis = (t.held.strand axis).viewport.freshWindow.toIndexRange)
      fun _ ↦ True := by
  have hopened : s.held.openPass.ViewportsHave Viewport.Fresh := ⟨h.rows, h.cols⟩
  refine layout_of_prepare (ensures_prepare.mpr ?_)
  refine (approach_turns axis (source.dimensions s.host).1 hopened).mono (fun _ _ ht ↦ ?_)
    fun _ ↦ False.elim
  exact ⟨fun _ _ _ ↦ ht, fun _ _ ↦ trivial⟩

/-- A call that is a pass takes each axis through the pass, and realizes what shows along it. -/
theorem pass_turns (axis : Axis) (source : TableSource H V) {call : Call H S}
    (hcall : call.isPass = true) (h : s.held.ViewportsHave Viewport.Fresh) :
    (call.perform source).Ensures s
      (fun _ t ↦
        Turns (call.event? axis source s.host) (s.held.strand axis) (t.held.strand axis) ∧
        t.held.range axis = (t.held.strand axis).viewport.freshWindow.toIndexRange)
      fun _ ↦ True := by
  cases call
  case layout =>
    simp only [Call.perform, Step.ensures_bind, Step.ensures_pure]
    exact layout_turns axis source h
  case refreshAll =>
    simp only [Call.perform, refreshAll, Step.ensures_bind, Step.ensures_onHeld,
      Step.ensures_modify, Step.ensures_pure]
    exact layout_turns (s := ⟨s.host, s.held.announceRefresh⟩) axis source ⟨h.rows, h.cols⟩
  case dimensionsChanged =>
    simp only [Call.perform, dimensionsChanged, Step.ensures_bind, Step.ensures_onHeld,
      Step.ensures_modify, Step.ensures_pure]
    exact layout_turns (s := ⟨s.host, s.held.announceDimensions⟩) axis source ⟨h.rows, h.cols⟩
  all_goals cases hcall

omit [ViewHandle H V S] in
theorem flagged_turns {axis : Axis} {event? : Option (Event S)} {cut : Prop}
    {step : Step (Table V S) Bool}
    (hstep : step.Ensures s.held (fun _ t ↦ Turns event? (s.held.strand axis) (t.strand axis))
      fun _ ↦ cut) :
    (flagged (H := H) step).Ensures s
      (fun _ t ↦ Turns event? (s.held.strand axis) (t.held.strand axis)) fun _ ↦ True := by
  rw [flagged, Step.ensures_bind, Step.ensures_onHeld]
  exact hstep.mono (fun _ _ ht ↦ ht) fun _ _ ↦ trivial

theorem changeSelection_turns (axis : Axis)
    (change : Selection CellId → Selection CellId × List (Selection.Change CellId)) :
    (changeSelection change).Ensures s
      (fun _ t ↦ Turns none (s.held.strand axis) (t.held.strand axis)) fun _ ↦ True := by
  simp only [changeSelection, onStock, Step.ensures_bind, Step.ensures_onHeld,
    Step.ensures_modifyGet, Step.ensures_onPart, Step.ensures_pure]
  exact Step.ensures_of_forall (fun _ _ ↦ .idle _) fun _ ↦ trivial

/-- What a call does to an axis, if it ends and does not select. -/
theorem perform_turns (axis : Axis) (source : TableSource H V) {call : Call H S}
    (hcall : ∀ cell, call ≠ .select cell) (h : s.held.ViewportsHave Viewport.Fresh) :
    (call.perform source).Ensures s
      (fun _ t ↦ Turns (call.event? axis source s.host) (s.held.strand axis) (t.held.strand axis))
      fun _ ↦ True := by
  cases call
  case select cell => exact absurd rfl (hcall cell)
  case layout | refreshAll | dimensionsChanged =>
    exact (pass_turns axis source rfl h).mono (fun _ _ ht ↦ ht.1) fun _ ↦ id
  all_goals simp only [Call.perform, Step.ensures_bind, Step.ensures_pure]
  case cellInvalidated cell =>
    simp only [cellInvalidated, onStock, Step.ensures_bind, Step.ensures_get, Step.ensures_onPart]
    exact Step.ensures_of_forall (fun _ _ ↦ .idle _) fun _ ↦ trivial
  case unselect cell => exact changeSelection_turns axis _
  case unselectAll => exact changeSelection_turns axis _
  case isSelected cell => exact .idle _
  case setViewportSize size => exact setViewportSize_turns axis size s.held
  case scrollTo offset => exact flagged_turns (scrollBoth_turns (by cases axis <;> rfl) s.held)
  case reveal cell => exact flagged_turns (scrollBoth_turns (by cases axis <;> rfl) s.held)
  case scrollToTop => exact flagged_turns (scrollRows_turns axis _ s.held)
  case scrollToBottom => exact flagged_turns (scrollRows_turns axis _ s.held)
  case scrollToLeading => exact flagged_turns (scrollCols_turns axis _ s.held)
  case scrollToTrailing => exact flagged_turns (scrollCols_turns axis _ s.held)
  case setRowHeight row height => exact flagged_turns (setRowHeight_turns axis row height s.held)
  case setColumnWidth col width => exact flagged_turns (setColumnWidth_turns axis col width s.held)
  case destroyAll => exact .idle _
  case host change => exact .idle _

/-! ### Runs -/

omit [ViewHandle H V S] in
theorem isPass_eq (axis : Axis) (source : TableSource H V) (host : H) (call : Call H S) :
    call.isPass = (call.event? axis source host).any Event.isPass := by
  cases call <;> cases axis <;> rfl

omit [ViewHandle H V S] in
theorem strand_initial (axis : Axis) (rows cols : Strip S) (mode : SelectionMode)
    (lookahead : Nat) : (initial rows cols mode lookahead : Table V S).strand axis =
      ⟨(Viewport.ofModel (axis.along rows cols) Scalar.zero).setLookahead lookahead, none⟩ := by
  cases axis <;> rfl

omit [ViewHandle H V S] in
/-- Both viewports of the table are scrolled to where they can be, and keep no window but the one
that they would find anew. -/
structure Poised (table : Table V S) : Prop where
  seated : table.ViewportsHave Viewport.Seated
  fresh : table.ViewportsHave Viewport.Fresh

variable {axis : Axis} {source : TableSource H V} {call : Call H S} {calls : List (Call H S)}

/-- What a call that ends does to an axis, if it does not select. -/
theorem Poised.turns (h : s.held.Poised) (axis : Axis) (hcall : ∀ cell, call ≠ .select cell)
    (hok : ((call.perform source).outcome s).isOk = true) :
    Turns (call.event? axis source s.host) (s.held.strand axis)
      (((call.perform source).after s).held.strand axis) := by
  obtain ⟨answer, t, hr⟩ := Step.exists_eq_ok hok
  rw [Step.after_of_eq_ok hr]
  exact (perform_turns axis source hcall h.fresh).of_ok hr

/-- What is seen along an axis after a pass is what the strand shows. -/
theorem Poised.sight_eq (h : s.held.Poised) (axis : Axis) (hpass : call.isPass = true)
    (hok : ((call.perform source).outcome s).isOk = true) :
    let t := (call.perform source).after s
    ((t.held.strand axis).viewport.offset, t.held.range axis) = (t.held.strand axis).sight := by
  obtain ⟨answer, t, hr⟩ := Step.exists_eq_ok hok
  rw [Step.after_of_eq_ok hr]
  exact congrArg (Prod.mk _) ((pass_turns axis source hpass h.fresh).of_ok hr).2

variable [LawfulClamp S]

omit [ViewHandle H V S] in
theorem poised_initial (rows cols : Strip S) (mode : SelectionMode) (lookahead : Nat) :
    (initial rows cols mode lookahead : Table V S).Poised where
  seated := ⟨Viewport.seated_ofModel .., Viewport.seated_ofModel ..⟩
  fresh := ⟨Viewport.fresh_ofModel rows Scalar.zero lookahead,
    Viewport.fresh_ofModel cols Scalar.zero lookahead⟩

theorem Poised.after_perform (h : s.held.Poised) (source : TableSource H V) (call : Call H S) :
    ((call.perform source).after s).held.Poised where
  seated := viewportsHave_runAll Viewport.tended_seated source [call] h.seated
  fresh := viewportsHave_runAll Viewport.upheld_fresh.tended source [call] h.fresh

/-- What is seen along an axis in a run is what is seen of the axis alone, in its course, exactly if
the run is undisturbed. -/
theorem Poised.sightings_eq_iff [DecidableEq S] {ideal : Strand S} (hpoised : s.held.Poised)
    (hcalls : ∀ cell, .select cell ∉ calls)
    (hok : ∀ outcome ∈ (Step.runAll (Call.perform source) calls s).1, outcome.isOk = true)
    (h : (s.held.strand axis).viewport.Matches ideal.viewport) :
    sightings axis source calls s = Strand.sights (course axis source calls s) ideal ↔
      undisturbed axis source ideal.pending calls s = true := by
  induction calls generalizing s ideal with
  | nil => exact iff_of_true rfl rfl
  | cons call rest ih =>
    obtain ⟨hcall, hrest⟩ := List.forall_mem_cons.mp hok
    have hturns := hpoised.turns axis (fun cell heq ↦ hcalls cell (heq ▸ .head _)) hcall
    have hnext (ideal : Strand S) := @ih _ ideal (hpoised.after_perform source call)
      (fun cell hmem ↦ hcalls cell (.tail _ hmem)) hrest
    have hpass := isPass_eq axis source s.host call
    rw [sightings, course, undisturbed]
    cases hevent : call.event? axis source s.host with
    | none =>
      rw [hevent] at hturns hpass
      rw [hpass, Option.any_none, if_neg Bool.false_ne_true]
      exact hnext ideal (hturns.eq_of_none ▸ h)
    | some event =>
      rw [hevent] at hturns hpass
      change call.isPass = event.isPass at hpass
      have hown : Viewport.Matches
          ({ s.held.strand axis with pending := ideal.pending } : Strand S).viewport
          ideal.viewport := h
      have halone := Strand.matches_turn hown rfl event
      have hpending := Strand.pending_turn hown rfl event
      have hactual := hturns.matches h.left_sound (hpoised.seated.strand axis)
      have hmatches (hoffset : event.isPass = true → (ideal.turn event).viewport.offset =
          (((call.perform source).after s).held.strand axis).viewport.offset) :=
        hactual.symm.trans <| Strand.matches_turn_of_offset_eq h fun hpass ↦
          (hoffset hpass).trans hactual.offset_eq
      simp only [Option.toList_some, List.singleton_append, Strand.sights, ← hpass, ← hpending,
        ← halone.offset_eq, ← hactual.offset_eq]
      cases hcallPass : call.isPass with
      | false =>
        simp only [Bool.false_eq_true, if_false, List.nil_append, Bool.not_false, Bool.true_or,
          Bool.true_and]
        exact hnext _ (hmatches fun hevent ↦
          absurd (hcallPass.symm.trans (hpass.trans hevent)) nofun)
      | true =>
        rw [if_pos rfl, if_pos rfl, hpoised.sight_eq axis hcallPass hcall]
        simp only [List.singleton_append, List.cons.injEq, Bool.not_true, Bool.false_or,
          Bool.and_eq_true, decide_eq_true_eq]
        constructor
        · rintro ⟨hsight, hsights⟩
          have hoffset := (congrArg Prod.fst hsight).symm
          exact ⟨hoffset, (hnext _ (hmatches fun _ ↦ hoffset)).mp hsights⟩
        · rintro ⟨hoffset, hundisturbed⟩
          have hsame := hmatches fun _ ↦ hoffset
          exact ⟨(Strand.sight_eq hsame).symm, (hnext _ hsame).mpr hundisturbed⟩

/-- A run in which no extent is set along an axis is undisturbed along it. -/
theorem Poised.undisturbed [DecidableEq S] {own : Option (ScrollRequest S)}
    (hpoised : s.held.Poised) (hcalls : ∀ cell, .select cell ∉ calls)
    (hok : ∀ outcome ∈ (Step.runAll (Call.perform source) calls s).1, outcome.isOk = true)
    (hcourse : ∀ index extent, .setExtent index extent ∉ course axis source calls s)
    (h : Strand.Owes own (s.held.strand axis)) :
    Table.undisturbed axis source own calls s = true := by
  induction calls generalizing s own with
  | nil => rfl
  | cons call rest ih =>
    obtain ⟨hcall, hrest⟩ := List.forall_mem_cons.mp hok
    have hturns := hpoised.turns axis (fun cell heq ↦ hcalls cell (heq ▸ .head _)) hcall
    rw [course] at hcourse
    have hnext (own : Option (ScrollRequest S)) := @ih _ own (hpoised.after_perform source call)
      (fun cell hmem ↦ hcalls cell (.tail _ hmem)) hrest
      fun index extent hmem ↦ hcourse index extent (List.mem_append_right _ hmem)
    rw [Table.undisturbed]
    cases hevent : call.event? axis source s.host with
    | none =>
      rw [hevent] at hturns
      exact hnext own (hturns.eq_of_none ▸ h)
    | some event =>
      rw [hevent] at hturns hcourse
      have howes := hturns.owes h fun index extent heq ↦
        hcourse index extent (heq ▸ List.mem_append_left _ (.head _))
      refine Bool.and_eq_true_iff.mpr ⟨?_, hnext _ howes⟩
      cases event with
      | pass count =>
        rw [h.viewport_pass (hpoised.seated.strand axis) count]
        simp
      | _ => rfl

/-! ### Two runs -/

/-- What is seen along an axis, from a table as it is built. -/
theorem sightings_initial_iff [DecidableEq S] (axis : Axis)
    (source : TableSource H V) (host : H) {rows cols strip : Strip S}
    (hmodel : axis.along rows cols = strip) (hbuilt : strip.Built) (mode : SelectionMode)
    (lookahead : Nat) {calls : List (Call H S)} (hcalls : ∀ cell, .select cell ∉ calls) :
    let s : Hosted H (Table V S) := ⟨host, initial rows cols mode lookahead⟩
    (∀ outcome ∈ (Step.runAll (Call.perform source) calls s).1, outcome.isOk = true) →
    (sightings axis source calls s = Strand.sights (course axis source calls s)
        ⟨(Viewport.ofModel strip Scalar.zero).setLookahead lookahead, none⟩ ↔
      undisturbed axis source none calls s = true) := by
  intro s hok
  have hsound : ((Viewport.ofModel strip Scalar.zero).setLookahead lookahead).model.Sound :=
    (congrArg Strip.Sound (Viewport.setLookahead_steady lookahead _).model_eq).mpr hbuilt.sound
  have hstrand : s.held.strand axis = _ := strand_initial axis rows cols mode lookahead
  rw [hmodel] at hstrand
  refine (poised_initial rows cols mode lookahead).sightings_eq_iff (s := s) hcalls hok ?_
  rw [hstrand]
  exact .refl hsound

/-- Take two runs of calls on tables, over sources, hosts and views of their own, that have the same
model and the same course along an axis: the same resizes, requests to scroll, extents of single
items and passes with the same counts, in the same order. In neither of them a call selects or is
cut short. If the course sets no extents, the runs see the same along the axis, after each pass the
same offset and the same rows or columns, whatever they do to the other axis. If it does, and one
run is undisturbed along the axis, they see the same exactly if the other one is undisturbed too: no
pass scrolls elsewhere because a resize of the other axis recorded a request. -/
theorem axes_independent_iff {H' V' : Type} [ViewHandle H' V' S] [DecidableEq S]
    (axis : Axis) (source : TableSource H V) (source' : TableSource H' V') (host : H) (host' : H')
    {rows cols rows' cols' strip : Strip S} (hmodel : axis.along rows cols = strip)
    (hmodel' : axis.along rows' cols' = strip) (hbuilt : strip.Built) (mode mode' : SelectionMode)
    (lookahead : Nat) {calls : List (Call H S)} {calls' : List (Call H' S)}
    (hcalls : ∀ cell, .select cell ∉ calls) (hcalls' : ∀ cell, .select cell ∉ calls') :
    let s : Hosted H (Table V S) := ⟨host, initial rows cols mode lookahead⟩
    let s' : Hosted H' (Table V' S) := ⟨host', initial rows' cols' mode' lookahead⟩
    (∀ outcome ∈ (Step.runAll (Call.perform source) calls s).1, outcome.isOk = true) →
    (∀ outcome ∈ (Step.runAll (Call.perform source') calls' s').1, outcome.isOk = true) →
    course axis source' calls' s' = course axis source calls s →
    ((∀ index extent, .setExtent index extent ∉ course axis source calls s) →
      sightings axis source' calls' s' = sightings axis source calls s) ∧
    (undisturbed axis source none calls s = true →
      (sightings axis source' calls' s' = sightings axis source calls s ↔
        undisturbed axis source' none calls' s' = true)) := by
  intro s s' hok hok' hcourse
  have hfirst := sightings_initial_iff axis source host hmodel hbuilt mode lookahead hcalls hok
  have hsecond := sightings_initial_iff axis source' host' hmodel' hbuilt mode' lookahead hcalls'
    hok'
  rw [hcourse] at hsecond
  refine ⟨fun hnone ↦ ?_, fun hundisturbed ↦ ?_⟩
  · have hundisturbed : undisturbed axis source none calls s = true :=
      (poised_initial rows cols mode lookahead).undisturbed hcalls hok hnone (.inl (by
        rw [strand_initial]))
    have hundisturbed' : undisturbed axis source' none calls' s' = true :=
      (poised_initial rows' cols' mode' lookahead).undisturbed hcalls' hok' (hcourse ▸ hnone)
        (.inl (by rw [strand_initial]))
    exact (hsecond.mpr hundisturbed').trans (hfirst.mpr hundisturbed).symm
  · rw [hfirst.mpr hundisturbed]
    exact hsecond

/-- The columns of a table are scrolled to their end, and the first one gets narrower and wider
again before the next pass. A table with other rows, which are scrolled and get shorter while it is
resized along them, shows the same of its columns. One that is resized along its rows just before
the change of the column does not. -/
theorem axes_independent_iff_rehearsal :
    let source : TableSource (Rehearsal (Nat × Nat) CellId) (BlankView Rat) := Rehearsal.cells
    let rows : Strip Rat := { Strip.empty with uniform := 20 }
    let cols : Strip Rat := { Strip.empty with uniform := 10 }
    let run (height : Rat) (calls : List (Call (Rehearsal (Nat × Nat) CellId) Rat)) :
        List (Call (Rehearsal (Nat × Nat) CellId) Rat) :=
      [.setViewportSize ⟨50, 30⟩, .scrollTo ⟨50, 0⟩, .layout] ++ calls ++
        [.setViewportSize ⟨50, height⟩, .setColumnWidth 0 0, .setColumnWidth 0 10, .layout]
    let still := run 30 [.setViewportSize ⟨50, 30⟩, .layout]
    let moving := run 40 [.scrollToBottom, .setViewportSize ⟨50, 40⟩, .setRowHeight 1 5, .layout]
    let resized := run 40 [.setViewportSize ⟨50, 30⟩, .layout]
    let s : Hosted (Rehearsal (Nat × Nat) CellId) (Table (BlankView Rat) Rat) :=
      ⟨Rehearsal.ofPoll (5, 10), initial rows cols .none 0⟩
    let s' : Hosted (Rehearsal (Nat × Nat) CellId) (Table (BlankView Rat) Rat) :=
      ⟨Rehearsal.ofPoll (7, 10), initial cols cols .multiple 0⟩
    sightings .horizontal source moving s' = sightings .horizontal source still s ∧
      sightings .horizontal source resized s' ≠ sightings .horizontal source still s := by
  intro source rows cols run still moving resized s s'
  have hmodel : Axis.along rows cols .horizontal = cols := rfl
  have hmodel' : Axis.along cols cols .horizontal = cols := rfl
  have hbuilt : cols.Built := ⟨0, 10, cols, [], rfl, rfl⟩
  have hstill : ∀ cell, .select cell ∉ still := by simp [still, run]
  have hmoving : ∀ cell, .select cell ∉ moving := by simp [moving, run]
  have hresized : ∀ cell, .select cell ∉ resized := by simp [resized, run]
  have hok {calls : List (Call (Rehearsal (Nat × Nat) CellId) Rat)}
      {t : Hosted (Rehearsal (Nat × Nat) CellId) (Table (BlankView Rat) Rat)}
      (hall : (Step.runAll (Call.perform source) calls t).1.all Except.isOk = true) :
      ∀ outcome ∈ (Step.runAll (Call.perform source) calls t).1, outcome.isOk = true :=
    List.all_eq_true.mp hall
  have hundisturbed : undisturbed .horizontal source none still s = true := by decide +kernel
  have hsame := (axes_independent_iff .horizontal source source (Rehearsal.ofPoll (5, 10))
    (Rehearsal.ofPoll (7, 10)) hmodel hmodel' hbuilt .none .multiple 0 hstill hmoving
    (hok (by decide +kernel)) (hok (by decide +kernel)) (by decide +kernel)).2 hundisturbed
  have hother := (axes_independent_iff .horizontal source source (Rehearsal.ofPoll (5, 10))
    (Rehearsal.ofPoll (7, 10)) hmodel hmodel' hbuilt .none .multiple 0 hstill hresized
    (hok (by decide +kernel)) (hok (by decide +kernel)) (by decide +kernel)).2 hundisturbed
  exact ⟨hsame.mpr (by decide +kernel), hother.not.mpr (by decide +kernel)⟩

end Table

end Windowing
