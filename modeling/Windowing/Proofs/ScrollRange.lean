import Windowing.Proofs.Collection.Viewports
import Windowing.Proofs.KeptWindow
import Windowing.Proofs.Seated
import Windowing.Proofs.Table.Viewports
import Windowing.Rehearsal

/-!
# The scrollable range

A viewport over exact numbers is in its range if it is scrolled neither before the start of the
content nor further than it takes to show the end of it. Everything that moves the viewport leaves
it in its range. What can take it out of there is content that gets shorter: so whoever edits the
model has to pull the viewport back, and that is enough, also if it happens some calls later.

A collection pulls its viewport back whenever one of its own edits has changed something, so that it
is out of its range only after the host has reached into the model, and in its range again after the
next pass. The host of a table has no calls on the models, so a table never leaves its range.

## Main definitions

* `Viewport.InRange` — the viewport is in its scrollable range.
* `Viewport.EditsPulledBack` — a run in which every edit of the model is followed by a pull back.

## Main results

* `Viewport.tended_inRange` — a collection keeps its viewport in its range.
* `Viewport.Runs.inRange` — so does the run of a viewport that is pulled back after edits.
* `offset_in_range` — the offset is in its range, for viewports, collections and tables.
-/

namespace Windowing

open ExtentModel (totalExtent)

/-! ### Viewports -/

namespace Viewport

variable {M : Type} [ExtentModel M Rat] {viewport : Viewport M Rat}

/-- The viewport is scrolled neither before the start of the content nor past what it takes to show
the end of it. -/
def InRange (viewport : Viewport M Rat) : Prop :=
  0 ≤ viewport.offset ∧
    viewport.offset ≤ max 0 (totalExtent viewport.model - viewport.extent)

/-- Over exact numbers a viewport is in its range if it is scrolled to where it can be. -/
theorem inRange_iff_seated : viewport.InRange ↔ viewport.Seated := by
  have hseated : viewport.Seated ↔ Scalar.IsOffset viewport.offset ∧
      Scalar.gt viewport.offset viewport.maxOffset = false :=
    ⟨fun h ↦ ⟨h.isOffset, h.not_gt⟩, fun h ↦ ⟨h.1, h.2⟩⟩
  rw [hseated, InRange, maxOffset_eq, max_comm, Scalar.isOffset_iff, Scalar.gt_eq,
    decide_eq_false_iff_not, not_lt]

theorem inRange_of_offset_eq_zero (h : viewport.offset = 0) : viewport.InRange := by
  rw [InRange, h]
  exact ⟨le_rfl, le_max_left _ _⟩

theorem inRange_ofModel (model : M) (extent : Rat) (lookahead : Nat) :
    ((ofModel model extent).setLookahead lookahead).InRange :=
  inRange_iff_seated.mpr (seated_ofModel model extent lookahead)

/-- Whatever is scrolled to, the viewport ends in its range. -/
theorem inRange_scrollTo (target : Rat) (viewport : Viewport M Rat) :
    (viewport.scrollTo target).1.InRange := by
  have hmax : (viewport.scrollTo target).1.maxOffset = viewport.maxOffset := by
    rw [scrollTo]
    split <;> rfl
  rw [InRange, max_comm, ← maxOffset_eq, offset_scrollTo, hmax]
  refine ⟨le_min (le_max_left _ _) ?_, min_le_right _ _⟩
  rw [maxOffset_eq]
  exact le_max_right _ _

/-- A viewport that is not before the start is in its range once it is pulled back. -/
theorem inRange_clamp (h : 0 ≤ viewport.offset) : viewport.clamp.1.InRange :=
  inRange_iff_seated.mpr (seated_clamp ((Scalar.isOffset_iff _).mpr h))

theorem offset_nonneg_resize (h : 0 ≤ viewport.offset) (extent : Rat) :
    0 ≤ (viewport.resize extent).1.offset := by
  rw [resize]
  split
  · exact h
  · have hresized :
        0 ≤ ({ viewport with extent := Scalar.nonNegative extent }.invalidate).offset := h
    exact (inRange_clamp hresized).1

theorem InRange.resize (h : viewport.InRange) (extent : Rat) :
    (viewport.resize extent).1.InRange :=
  inRange_iff_seated.mpr ((inRange_iff_seated.mp h).resize extent)

/-- An edit that leaves the content as long as it was takes no viewport out of its range. -/
theorem InRange.withModel {model : M} (h : viewport.InRange)
    (hextent : totalExtent model = totalExtent viewport.model) :
    (viewport.withModel model).InRange :=
  inRange_iff_seated.mpr ((inRange_iff_seated.mp h).withModel hextent)

theorem InRange.window [LawfulSettle M] (h : viewport.InRange) : viewport.window.2.InRange :=
  inRange_iff_seated.mpr (inRange_iff_seated.mp h).window

/-- A collection keeps its viewport in its range. -/
theorem tended_inRange [ResizableModel M Rat] [CrossPlacement M Rat] [LawfulSettle M]
    [LawfulEdits M] : Tended (InRange : Viewport M Rat → Prop) := by
  have hseated : (InRange : Viewport M Rat → Prop) = Seated :=
    funext fun _ ↦ propext inRange_iff_seated
  rw [hseated]
  exact tended_seated

/-- No edit scrolls before the start of the content, whether the viewport is pulled back or not. -/
theorem upheld_offset_nonneg [ResizableModel M Rat] [CrossPlacement M Rat] :
    Upheld fun viewport : Viewport M Rat ↦ 0 ≤ viewport.offset where
  scrollTo {viewport} target _ := (inRange_scrollTo target viewport).1
  clamp h := (inRange_clamp h).1
  resize extent h := offset_nonneg_resize h extent
  window {viewport} h := (offset_window viewport).symm ▸ h
  setLen _ h := h
  setItemExtent _ _ h := Step.ensures_of_forall (fun _ _ ↦ h) fun _ ↦ h
  clearItemExtent _ h := h
  fitCrossExtent _ h := h

/-! ### Runs of viewports -/

section Runs

variable {E : Type} {edit : E → Step M (Reply Rat)} {valid : M → Prop} {call : Call E Rat}
  {calls : List (Call E Rat)} {first last : Viewport M Rat}

/-- Every edit of the model in the run that may change how long the content is, is followed by a
pull back at some time. -/
def EditsPulledBack (edit : E → Step M (Reply Rat)) (valid : M → Prop)
    (calls : List (Call E Rat)) : Prop :=
  ∀ e rest, .model e :: rest <:+ calls → .clamp ∈ rest ∨
    ∀ model, valid model → totalExtent ((edit e).after model) = totalExtent model

theorem EditsPulledBack.of_append (h : EditsPulledBack edit valid (calls ++ [call]))
    (hcall : call ≠ .clamp) : EditsPulledBack edit valid calls := by
  rintro e rest ⟨front, rfl⟩
  refine (h e (rest ++ [call]) ⟨front, by simp⟩).imp_left fun hmem ↦ ?_
  rcases List.mem_append.mp hmem with hrest | hlast
  · exact hrest
  · exact absurd (List.mem_singleton.mp hlast).symm hcall

/-- An edit that the run ends with leaves the content as long as it was. -/
theorem EditsPulledBack.totalExtent_eq {e : E} {model : M}
    (h : EditsPulledBack edit valid (calls ++ [.model e])) (hvalid : valid model) :
    totalExtent ((edit e).after model) = totalExtent model :=
  (h e [] (List.suffix_append calls [.model e])).resolve_left List.not_mem_nil model hvalid

/-- One pull back at the end makes up for all edits before it. -/
theorem editsPulledBack_append_clamp (edit : E → Step M (Reply Rat)) (valid : M → Prop)
    (calls : List (Call E Rat)) : EditsPulledBack edit valid (calls ++ [.clamp]) := by
  intro e rest h
  rcases List.suffix_concat_iff.mp h with hnil | ⟨front, heq, -⟩
  · cases hnil
  · cases front with
    | nil => cases heq
    | cons first front =>
      obtain ⟨-, rfl⟩ := List.cons.inj heq
      exact .inl (by simp)

/-- Calls beside those on the model do not depend on what these do. -/
theorem Call.perform_eq_of_ne_model {other : E → Step M (Reply Rat)}
    (hcall : ∀ e, call ≠ .model e) : call.perform edit = call.perform other := by
  cases call with
  | model e => exact absurd rfl (hcall e)
  | _ => rfl

theorem callsKeep_inRange [LawfulSettle M] :
    CallsKeep (fun _ : E ↦ pure .done) (InRange : Viewport M Rat → Prop) where
  setLookahead lookahead h := by
    rw [setLookahead]
    split <;> exact h
  model _ h := h
  invalidate h := h
  scrollTo {viewport} target _ := inRange_scrollTo target viewport
  resize extent h := h.resize extent
  clamp h := inRange_clamp h.1
  window h := h.window

theorem InRange.perform [LawfulSettle M] (h : viewport.InRange) (hcall : ∀ e, call ≠ .model e) :
    ((call.perform edit).after viewport).InRange := by
  rw [Call.perform_eq_of_ne_model hcall]
  exact callsKeep_inRange.perform call h

theorem callsKeep_offset_nonneg (edit : E → Step M (Reply Rat)) :
    CallsKeep edit fun viewport : Viewport M Rat ↦ 0 ≤ viewport.offset where
  setLookahead lookahead h := by
    rw [setLookahead]
    split <;> exact h
  model _ h := h
  invalidate h := h
  scrollTo {viewport} target _ := (inRange_scrollTo target viewport).1
  resize extent h := offset_nonneg_resize h extent
  clamp h := (inRange_clamp h).1
  window {viewport} h := (offset_window viewport).symm ▸ h

theorem Runs.offset_nonneg (h : Runs edit valid calls first last) (hfirst : 0 ≤ first.offset) :
    0 ≤ last.offset := by
  induction h with
  | start => exact hfirst
  | call call _ ih => exact (callsKeep_offset_nonneg edit).perform call (ih hfirst)
  | store _ _ _ ih => exact ih hfirst

/-- A viewport that is pulled back after edits ends in its range. The run may pass through states
out of the range: from an edit up to the pull back only the lower bound is kept. -/
theorem Runs.inRange [LawfulSettle M] (h : Runs edit valid calls first last)
    (hquiet : ExtentModel.Quiet edit valid) (hfirst : valid first.model) (hrange : first.InRange)
    (hpulled : EditsPulledBack edit valid calls) : last.InRange := by
  induction h with
  | start => exact hrange
  | @call calls first last call run ih =>
    by_cases hclamp : call = .clamp
    · subst hclamp
      exact inRange_clamp (run.offset_nonneg hrange.1)
    · have hlast := ih hfirst hrange (hpulled.of_append hclamp)
      by_cases hmodel : ∃ e, call = .model e
      · obtain ⟨e, rfl⟩ := hmodel
        have hextent := hpulled.totalExtent_eq (run.model_valid hquiet hfirst)
        refine Step.ensures_iff_after.mp ?_
        simp only [Call.perform, onModel, Step.ensures_bind, Step.ensures_within,
          Step.ensures_pure]
        have hedited : (last.withModel ((edit e).after last.model)).InRange :=
          hlast.withModel hextent
        exact Step.ensures_iff_after.mpr hedited
      · exact hlast.perform (not_exists.mp hmodel)
  | @store calls first last model hsame _ _ ih =>
    have hlast := (ih hfirst hrange hpulled).withModel hsame.totalExtent_eq
    exact hlast

end Runs

end Viewport

/-! ### Collections -/

namespace Collection

variable {H M V : Type} [ExtentModel M Rat] [ResizableModel M Rat] [CrossPlacement M Rat]
  [LawfulSettle M]

/-- A pass pulls the viewport back before it finds the window, whatever the host did to the
model. -/
theorem approach_inRange (len : Nat) {items : Collection M V Rat}
    (h : 0 ≤ items.viewport.offset) :
    (approach len).Ensures items (fun _ t ↦ t.viewport.InRange) fun _ ↦ True := by
  have hupheld := Viewport.upheld_offset_nonneg (M := M)
  simp only [approach, Step.ensures_bind, Step.ensures_modify, Step.ensures_modifyGet]
  refine (applyPending_viewport (fun viewport ↦ 0 ≤ viewport.offset) hupheld.scrollTo
    (syncLength_viewport hupheld.passKeeps len h)).mono (fun _ t ht ↦ ?_) fun _ _ ↦ trivial
  exact (Viewport.inRange_clamp ht).window

theorem layout_inRange [ViewHandle H V Rat] (source : ItemSource H V)
    {s : Hosted H (Collection M V Rat)} (h : 0 ≤ s.held.viewport.offset) :
    (layout source).Ensures s (fun _ t ↦ t.held.viewport.InRange) fun _ ↦ True := by
  have hopened : 0 ≤ s.held.openPass.viewport.offset := h
  refine layout_of_prepare (ensures_prepare.mpr ?_)
  exact (approach_inRange (source.len s.host).1 hopened).mono
    (fun _ _ ht ↦ ⟨fun _ _ _ ↦ ht, fun _ _ ↦ trivial⟩) fun _ _ ↦ trivial

end Collection

/-! ### Runs -/

/-- Over exact numbers the scroll offset is between zero and the extent of the content less that of
the viewport. It is after every run of a viewport in which edits of the model are followed by a pull
back. It is after every run of a collection without calls on its model, whatever calls were cut
short, and after every completed pass of a run with such calls. It is after every run of a table,
along both axes. -/
theorem offset_in_range {E H M V : Type} [ExtentModel M Rat] [ResizableModel M Rat]
    [CrossPlacement M Rat] [LawfulSettle M] [LawfulEdits M] [ViewHandle H V Rat]
    (edit : E → Step M (Reply Rat)) (host : H) (mode : SelectionMode) (lookahead : Nat) :
    (∀ {valid : M → Prop} {model : M} {extent : Rat} {calls : List (Viewport.Call E Rat)}
      {viewport : Viewport M Rat}, ExtentModel.Quiet edit valid → valid model →
      Viewport.EditsPulledBack edit valid calls →
      Viewport.Runs edit valid calls (.ofModel model extent) viewport → viewport.InRange) ∧
    (∀ (source : ItemSource H V) (model : M) (axis : Axis)
      (calls : List (Collection.Call E H V Rat)),
      let ended := (Step.runAll (Collection.Call.perform edit source) calls
        ⟨host, Collection.initial model axis mode lookahead⟩).2
      ((∀ e, .model e ∉ calls) → ended.held.viewport.InRange) ∧
      ∀ (call : Collection.Call E H V Rat) {pass : Pass IndexRange Nat}
        {s t : Hosted H (Collection M V Rat)},
        call.lead edit source ended = .ok true s → Collection.layout source s = .ok pass t →
        (call.perform edit source).after ended = t ∧ t.held.viewport.InRange) ∧
    ∀ (source : TableSource H V) (rows cols : Strip Rat) (calls : List (Table.Call H Rat)),
      let ended := (Step.runAll (Table.Call.perform source) calls
        ⟨host, Table.initial rows cols mode lookahead⟩).2
      ended.held.rows.InRange ∧ ended.held.cols.InRange := by
  refine ⟨fun hquiet hvalid hpulled hrun ↦ ?viewport, fun source model axis calls ↦ ?collection,
    fun source rows cols calls ↦ ?table⟩
  case viewport =>
    exact hrun.inRange hquiet hvalid (Viewport.inRange_of_offset_eq_zero rfl) hpulled
  case collection =>
    intro ended
    have hstart := Viewport.inRange_ofModel model 0 lookahead
    refine ⟨fun hcalls ↦ ?_, fun call {pass s t} hlead hpass ↦ ?_⟩
    · exact Collection.viewportHas_runAll Viewport.tended_inRange source
        (fun e he ↦ absurd he (hcalls e)) hstart
    · have hupheld := Viewport.upheld_offset_nonneg (M := M)
      have hended : Collection.ViewportHas (0 ≤ Viewport.offset ·) ended :=
        Collection.viewportHas_runAll hupheld.tended source
          (fun e _ _ h ↦ Step.ensures_of_forall (fun _ _ ↦ h) fun _ ↦ h) hstart.1
      have hs := (Collection.lead_viewport hupheld.tended source call
        (fun e _ _ h ↦ Step.ensures_of_forall (fun _ _ ↦ h) fun _ ↦ h) hended).of_ok hlead
      exact ⟨Collection.Call.after_perform_of_lead hlead hpass,
        (Collection.layout_inRange source hs).of_ok hpass⟩
  case table =>
    intro ended
    have hended := Table.viewportsHave_runAll Viewport.tended_inRange source calls
      (s := ⟨host, Table.initial rows cols mode lookahead⟩)
      ⟨Viewport.inRange_ofModel rows 0 lookahead, Viewport.inRange_ofModel cols 0 lookahead⟩
    exact ⟨hended.rows, hended.cols⟩

/-- The content of a strip gets shorter under the viewport that shows its end; a grid in which a
view could not be filled gets wider; the host makes the items of a list smaller before the next
pass; and a table loses height and width while both of its ends are shown. -/
theorem offset_in_range_rehearsal :
    (let calls : List (Viewport.Call (Strip.Call Rat) Rat) :=
        [.model (.edit (.setLen 10)), .model (.setUniform 10), .resize 30, .clamp, .scrollToEnd,
          .model (.edit (.setLen 5))]
      ∃ viewport, Viewport.Runs Strip.Call.perform Strip.Sound (calls ++ [.clamp])
        (.ofModel .empty 0) viewport ∧ viewport.offset = 20 ∧ viewport.InRange) ∧
    (let grid : Grid (Strip Rat) Rat := .ofTracks { Strip.empty with uniform := 10 } 10 0
      let host : Rehearsal Nat Nat :=
        { (Rehearsal.ofPoll 6 : Rehearsal Nat Nat) with bindFails := some 1 }
      let calls : List (Collection.Call (Grid.Call Rat) (Rehearsal Nat Nat) (BlankView Rat) Rat) :=
        [.setViewportSize ⟨10, 20⟩, .layout, .scrollToEnd, .setViewportSize ⟨20, 25⟩]
      let ended := (Step.runAll (Collection.Call.perform Grid.Call.perform Rehearsal.items) calls
        ⟨host, Collection.initial grid .vertical .none 1⟩).2
      ended.held.viewport.offset = 5 ∧ ended.held.viewport.InRange) ∧
    (let strip : Strip Rat := { Strip.empty with uniform := 10 }
      let calls : List (Collection.Call (Strip.Call Rat) (Rehearsal Nat Nat) (BlankView Rat) Rat) :=
        [.setViewportSize ⟨100, 20⟩, .layout, .scrollTo 30, .model (.setUniform 6)]
      let ended := (Step.runAll (Collection.Call.perform Strip.Call.perform Rehearsal.items) calls
        ⟨Rehearsal.ofPoll 5, Collection.initial strip .vertical .none 1⟩).2
      ¬ ended.held.viewport.InRange ∧
        ∃ pass t, Collection.layout Rehearsal.items ended = .ok pass t ∧
          t.held.viewport.offset = 10 ∧ t.held.viewport.InRange) ∧
    (let strip : Strip Rat := { Strip.empty with uniform := 10 }
      let calls : List (Table.Call (Rehearsal (Nat × Nat) CellId) Rat) :=
        [.setViewportSize ⟨20, 20⟩, .layout, .scrollTo ⟨90, 90⟩, .setColumnWidth 0 4,
          .setRowHeight 2 1]
      let ended := (Step.runAll (Table.Call.perform (V := BlankView Rat) Rehearsal.cells) calls
        ⟨Rehearsal.ofPoll (5, 4), Table.initial strip strip .none 1⟩).2
      ended.held.offset = ⟨14, 21⟩ ∧ ended.held.rows.InRange ∧ ended.held.cols.InRange) := by
  refine ⟨?_, ?_, ?_, ?_⟩
  · intro calls
    have hsound : (Strip.empty : Strip Rat).Sound :=
      Strip.sound_of_isUniform Std.TreeMap.isEmpty_emptyc
    have hrun : Viewport.Runs Strip.Call.perform Strip.Sound (calls ++ [.clamp])
        (.ofModel .empty 0) _ := (Viewport.Runs.start _).append _
    exact ⟨_, hrun, by decide +kernel,
      (offset_in_range (V := BlankView Rat) Strip.Call.perform () .none 1).1 Strip.quiet hsound
        (Viewport.editsPulledBack_append_clamp _ _ calls) hrun⟩
  · intro grid host calls ended
    exact ⟨by decide +kernel, ((offset_in_range Grid.Call.perform host .none 1).2.1
      Rehearsal.items grid .vertical calls).1 (by simp [calls])⟩
  · intro strip calls ended
    obtain ⟨pass, t, hpass, htest⟩ := Step.exists_eq_ok_and
      (Collection.layout Rehearsal.items) ended
      (fun _ t ↦ decide (t.held.viewport.offset = 10)) (by decide +kernel)
    have hrange := ((offset_in_range Strip.Call.perform (Rehearsal.ofPoll 5) .none 1).2.1
      Rehearsal.items strip .vertical calls).2 .layout rfl hpass
    have hbefore : ¬ ended.held.viewport.InRange := by
      rw [Viewport.InRange]
      decide +kernel
    exact ⟨hbefore, pass, t, hpass, of_decide_eq_true htest, hrange.2⟩
  · intro strip calls ended
    have hx : ended.held.cols.offset = 14 := by decide +kernel
    have hy : ended.held.rows.offset = 21 := by decide +kernel
    refine ⟨by rw [Table.offset, hx, hy], ?_⟩
    exact (offset_in_range Strip.Call.perform (Rehearsal.ofPoll (5, 4)) .none 1).2.2
      Rehearsal.cells strip strip calls

end Windowing
