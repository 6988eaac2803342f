import Windowing.Proofs.Collection.Showing
import Windowing.Proofs.ScrollRange
import Windowing.Proofs.Table.Axes

/-!
# Resizes between two passes

A resize pulls the viewport back at once, against a number of items that may be out of date and,
for a grid, against every number of lanes that it passes through. The first resize that changes
something records where the viewport was, and the later ones leave that alone. So the next pass,
which knows the number of items, finds the way back: it ends where the last pass ended, or as far
towards it as the content reaches. The sizes in between do not matter.

Of the scalars this takes that comparing and clamping agree with each other. Nothing is said about
sums and differences, so rounding does not matter.

## Main definitions

* `LawfulOffsets` — the laws of a scalar by which clamped offsets compare.
* `Viewport.Regains` — the viewport is at an offset as far as its content allows.
* `Viewport.Recalls` — the viewport is at an offset, or asked to return there.

## Main results

* `Collection.layout_regains` — a pass returns to the offset that a collection recalls.
* `offset_regained_after_resizes` — resizes between two passes do not lose the offset, of
  collections and of tables.
-/

namespace Windowing

open Scalar (IsOffset)

/-! ### Scalars -/

/-- Scalars whose offsets compare alike whichever way they were clamped. The laws are about numbers
that compare and not about sums, so they hold of the exact numbers and of the rounded ones: values
that compare by their places in a linear order obey them, and those of the binary formats do. -/
class LawfulOffsets (S : Type) [Scalar S] : Prop extends LawfulClamp S where
  eq_symm : ∀ {a b : S}, Scalar.eq a b = true → Scalar.eq b a = true
  eq_trans : ∀ {a b c : S}, Scalar.eq a b = true → Scalar.eq b c = true → Scalar.eq a c = true
  gt_congr : ∀ {a b : S} (c : S), Scalar.eq a b = true → Scalar.gt a c = Scalar.gt b c
  eq_min : ∀ {a b : S}, IsOffset a → IsOffset b →
    Scalar.eq (Scalar.min a b) (if Scalar.gt a b then b else a) = true

instance : LawfulOffsets Rat where
  eq_symm h := by simpa [eq_comm] using h
  eq_trans hab hbc := by
    simp only [Scalar.eq_eq, decide_eq_true_eq] at hab hbc ⊢
    exact hab.trans hbc
  gt_congr c h := by
    simp only [Scalar.eq_eq, decide_eq_true_eq] at h
    rw [h]
  eq_min {a b} _ _ := by
    simp only [Scalar.min_eq, Scalar.gt_eq, Scalar.eq_eq, decide_eq_true_eq]
    split
    · next hlt => exact min_eq_right hlt.le
    · next hle => exact min_eq_left (not_lt.mp hle)

/-! ### Viewports -/

namespace Viewport

variable {M S : Type} [Scalar S] [ExtentModel M S] {viewport : Viewport M S} {offset : S}

/-- The viewport is at the offset, or as far towards it as the content reaches. -/
def Regains (offset : S) (viewport : Viewport M S) : Prop :=
  Scalar.eq viewport.offset (Scalar.min offset viewport.maxOffset) = true

/-- The viewport is at the offset and no request is pending, or it is asked to return there. -/
def Recalls (offset : S) (viewport : Viewport M S) (pending : Option (ScrollRequest S)) : Prop :=
  pending = none ∧ viewport.offset = offset ∨ pending = some (.offset offset)

/-- Over exact numbers the offset is the smaller one of the two. -/
theorem regains_iff {M : Type} [ExtentModel M Rat] {viewport : Viewport M Rat} {offset : Rat} :
    viewport.Regains offset ↔ viewport.offset =
      min offset (max 0 (ExtentModel.totalExtent viewport.model - viewport.extent)) := by
  rw [Regains, Scalar.eq_eq, decide_eq_true_eq, Scalar.min_eq, maxOffset_eq, max_comm]

section Lawful

variable [LawfulOffsets S]

/-- Pulled back, the viewport is where it was as far as the content reaches. -/
theorem regains_clamp (h : IsOffset viewport.offset) :
    viewport.clamp.1.Regains viewport.offset := by
  rw [Regains, maxOffset_clamp, offset_clamp_eq_ite]
  exact LawfulOffsets.eq_symm (LawfulOffsets.eq_min h viewport.isOffset_maxOffset)

/-- Scrolled to an offset, the viewport is there as far as the content reaches. -/
theorem regains_scrollTo (h : IsOffset offset) : (viewport.scrollTo offset).1.Regains offset := by
  have hmax := viewport.isOffset_maxOffset
  have hclamped : Scalar.eq (Scalar.min (Scalar.nonNegative offset) viewport.maxOffset)
      (Scalar.min offset viewport.maxOffset) = true :=
    LawfulOffsets.eq_trans (LawfulClamp.eq_clamped offset _ h hmax)
      (LawfulOffsets.eq_symm (LawfulOffsets.eq_min h hmax))
  rw [scrollTo]
  split
  · next hthere => exact LawfulOffsets.eq_trans (LawfulOffsets.eq_symm hthere) hclamped
  · exact hclamped

/-- A viewport that is at an offset as far as the content reaches needs no pulling back. -/
theorem Regains.clamp (h : viewport.Regains offset) : viewport.clamp.1.Regains offset := by
  have hinside : Scalar.gt viewport.offset viewport.maxOffset = false := by
    rw [LawfulOffsets.gt_congr _ h]
    exact LawfulClamp.gt_min _ _
  rwa [Viewport.clamp, hinside, if_neg Bool.false_ne_true]

/-- A pass ends by pulling the viewport back and finding the window. Both leave the viewport at an
offset at which it was put before, or from which it was pulled back. -/
theorem regains_clamp_window [LawfulSettle M] (hoffset : IsOffset offset)
    (h : viewport.offset = offset ∨ viewport.Regains offset) :
    viewport.clamp.1.window.2.Regains offset := by
  have hclamp : viewport.clamp.1.Regains offset := by
    rcases h with rfl | hregains
    · exact regains_clamp hoffset
    · exact hregains.clamp
  rw [window]
  split
  · exact hclamp
  · rwa [Regains, maxOffset, LawfulSettle.totalExtent_settleAll]

/-- No edit takes a viewport to what is no offset. -/
theorem upheld_isOffset [ResizableModel M S] [CrossPlacement M S] :
    Upheld fun viewport : Viewport M S ↦ IsOffset viewport.offset where
  scrollTo {viewport} target h := by
    rw [scrollTo]
    split
    · exact h
    · exact LawfulClamp.isOffset_min _ _ viewport.isOffset_maxOffset
  clamp h := (seated_clamp h).isOffset
  resize {viewport} extent h := by
    rw [resize]
    split
    · exact h
    · have hresized :
          IsOffset ({ viewport with extent := Scalar.nonNegative extent }.invalidate).offset := h
      exact (seated_clamp hresized).isOffset
  window {viewport} h := by
    rw [window]
    split <;> exact h
  setLen _ h := h
  setItemExtent _ _ h := Step.ensures_of_forall (fun _ _ ↦ h) fun _ ↦ h
  clearItemExtent _ h := h
  fitCrossExtent _ h := h

end Lawful

end Viewport

/-! ### Collections -/

namespace Collection

variable {E H M V S : Type} [Scalar S] [ExtentModel M S] {offset : S}

/-- The collection is at the offset, or it is asked to return there. -/
def Recalls (offset : S) (items : Collection M V S) : Prop :=
  items.viewport.Recalls offset items.pending

/-- Whether a call resizes the collection at most; it may be the host that changes by itself. -/
def Call.resizes : Call E H V S → Bool
  | setViewportSize _ | host _ => true
  | _ => false

variable [ResizableModel M S] [CrossPlacement M S] {items : Collection M V S}
  {s : Hosted H (Collection M V S)}

omit [ResizableModel M S] in
/-- Whatever the size, a resize records the offset if it changes anything, unless a request is
pending. -/
theorem Recalls.setViewportSize (h : items.Recalls offset) (size : Size S) :
    (items.setViewportSize size).1.Recalls offset := by
  rcases h with ⟨hpending, rfl⟩ | hpending
  · have hkept : items.Recalls items.viewport.offset := .inl ⟨hpending, rfl⟩
    have hrecorded : some (items.pending.getD (.offset items.viewport.offset)) =
        some (.offset items.viewport.offset) := by rw [hpending, Option.getD_none]
    rw [Collection.setViewportSize]
    by_cases hcross : Scalar.eq (items.axis.split size).2 items.crossExtent = true
    · simp only [if_pos hcross]
      split
      · exact .inr hrecorded
      · exact hkept
    · simp only [if_neg hcross, Bool.or_true, if_true]
      exact .inr hrecorded
  · exact .inr (pending_setViewportSize size hpending)

theorem Recalls.runAll [ViewHandle H V S] {edit : E → Step M (Reply S)} (source : ItemSource H V)
    {between : List (Call E H V S)} (hbetween : ∀ call ∈ between, call.resizes = true)
    (h : s.held.Recalls offset) :
    (Step.runAll (Call.perform edit source) between s).2.held.Recalls offset := by
  refine Step.holds_runAll (fun t : Hosted H (Collection M V S) ↦ t.held.Recalls offset)
    (fun call hmem t ht ↦ ?_) h
  cases call
  case setViewportSize size => exact ht.setViewportSize size
  case host change => exact ht
  all_goals cases hbetween _ hmem

/-- Only selecting an item scrolls before its pass. -/
theorem Recalls.lead [ViewHandle H V S] {edit : E → Step M (Reply S)} {source : ItemSource H V}
    {call : Call E H V S} {t : Hosted H (Collection M V S)} (hcall : ∀ index, call ≠ .select index)
    (hlead : call.lead edit source s = .ok true t) (h : s.held.Recalls offset) :
    t.held.Recalls offset := by
  have hpass : (call.lead edit source).Ensures s
      (fun follows (t : Hosted H (Collection M V S)) ↦ follows = true → t.held.Recalls offset)
      fun _ ↦ True := by
    cases call
    case select index => exact absurd rfl (hcall index)
    case layout | refreshAll | lengthChanged => exact fun _ ↦ h
    case itemInvalidated index =>
      simp only [Call.lead, revise, Step.ensures_bind, Step.ensures_get, Step.ensures_pure]
      split
      · exact fun _ ↦ h
      · simp only [Step.ensures_ite, Step.ensures_bind, Step.ensures_get, Step.ensures_pure,
          onStock, Step.ensures_onPart]
        split
        · exact Step.ensures_of_forall (fun _ _ hfollows ↦ absurd hfollows Bool.false_ne_true)
            fun _ ↦ trivial
        · exact fun _ ↦ h
    all_goals
      simp only [Call.lead, Step.ensures_bind, Step.ensures_pure]
      exact Step.ensures_of_forall (fun _ _ hfollows ↦ absurd hfollows Bool.false_ne_true)
        fun _ ↦ trivial
  exact hpass.of_ok hlead rfl

variable [LawfulOffsets S] [LawfulSettle M]

omit [CrossPlacement M S] in
/-- The part of a pass that concerns scrolling returns to the offset that the collection recalls,
whatever the number of items has become. -/
theorem approach_regains (hoffset : IsOffset offset) (len : Nat) (h : items.Recalls offset) :
    (approach len).Ensures items (fun _ t ↦ t.viewport.Regains offset) fun _ ↦ True := by
  have hadopted (hoffset : IsOffset items.viewport.offset) : IsOffset
      (items.viewport.withModel (ResizableModel.setLen len items.model)).offset := hoffset
  have hsynced : (items.syncLength len).1.pending = none ∧
      ((items.syncLength len).1.viewport.offset = offset ∨
        (items.syncLength len).1.viewport.Regains offset) ∨
      (items.syncLength len).1.pending = some (.offset offset) := by
    rw [syncLength]
    rcases h with ⟨hpending, rfl⟩ | hpending
    · split
      · exact .inl ⟨hpending, .inr (Viewport.regains_clamp (hadopted hoffset))⟩
      · exact .inl ⟨hpending, .inl rfl⟩
    · split <;> exact .inr hpending
  simp only [approach, applyPending, Step.ensures_bind, Step.ensures_modify, Step.ensures_modifyGet,
    Step.ensures_get, Prod.snd_swap]
  rcases hsynced with ⟨hpending, hthere⟩ | hpending
  · rw [hpending]
    exact Viewport.regains_clamp_window hoffset hthere
  · rw [hpending]
    simp only [ScrollRequest.apply, Step.ensures_bind, Step.ensures_modify, Step.ensures_get,
      Step.ensures_ofExcept]
    exact Viewport.regains_clamp_window hoffset (.inr (Viewport.regains_scrollTo hoffset))

variable [ViewHandle H V S]

/-- A pass returns to the offset that the collection recalls. -/
theorem layout_regains (hoffset : IsOffset offset) (source : ItemSource H V)
    (h : s.held.Recalls offset) :
    (layout source).Ensures s (fun _ t ↦ t.held.viewport.Regains offset) fun _ ↦ True := by
  have hopened : s.held.openPass.Recalls offset := h
  refine layout_of_prepare (ensures_prepare.mpr ?_)
  exact (approach_regains hoffset (source.len s.host).1 hopened).mono
    (fun _ _ ht ↦ ⟨fun _ _ _ ↦ ht, fun _ _ ↦ trivial⟩) fun _ _ ↦ trivial

omit [LawfulOffsets S] [LawfulSettle M] in
/-- A completed pass leaves no request pending, so the collection recalls where the pass ended. -/
theorem recalls_of_layout {source : ItemSource H V} {pass : Pass IndexRange Nat}
    {t : Hosted H (Collection M V S)} (hpass : layout source s = .ok pass t) :
    t.held.Recalls t.held.viewport.offset := by
  have happroach (len : Nat) : (approach len).Ensures s.held.openPass
      (fun _ t ↦ t.pending = none) fun _ ↦ True := by
    simp only [approach, Step.ensures_bind, Step.ensures_modify, Step.ensures_modifyGet]
    refine (applyPending_spec _).mono ?_ fun _ _ ↦ trivial
    rintro _ _ ⟨viewport, -, rfl⟩
    rfl
  have hlayout : (layout source).Ensures s (fun _ t ↦ t.held.pending = none) fun _ ↦ True := by
    refine layout_of_prepare (ensures_prepare.mpr ?_)
    exact (happroach _).mono (fun _ _ ht ↦ ⟨fun _ _ _ ↦ ht, fun _ _ ↦ trivial⟩) fun _ _ ↦ trivial
  exact .inl ⟨hlayout.of_ok hpass, rfl⟩

end Collection

/-! ### Tables -/

namespace Strand

variable {S : Type} [Scalar S] {strand after : Strand S} {offset : S}

/-- The axis is at the offset, or it is asked to return there. -/
def Recalls (offset : S) (strand : Strand S) : Prop :=
  strand.viewport.Recalls offset strand.pending

/-- Whatever the extent, a resize records the offset if it changes anything, unless a request is
pending. What the axis borrows is the same request. -/
theorem Turns.recalls_resize {extent : S} (hturns : Turns (some (.resize extent)) strand after)
    (h : strand.Recalls offset) : after.Recalls offset := by
  cases hturns with
  | event =>
    rw [turn, resize]
    split
    · rcases h with ⟨hpending, rfl⟩ | hpending <;> exact .inr (by rw [hpending]; rfl)
    · exact h
  | borrow _ hnone =>
    rcases h with ⟨-, rfl⟩ | hpending
    · exact .inr rfl
    · cases hnone.symm.trans hpending

/-- A pass leaves no request pending, so the axis recalls where the pass ended. -/
theorem Turns.recalls_pass {count : Nat} (hturns : Turns (some (.pass count)) strand after) :
    after.Recalls after.viewport.offset := by
  cases hturns <;> exact .inl ⟨rfl, rfl⟩

variable [LawfulOffsets S]

/-- The part of a pass after the number of items is known returns to the offset that is asked for,
or stays where it is already. -/
theorem finish_regains (hoffset : IsOffset offset)
    (h : strand.pending = none ∧
        (strand.viewport.offset = offset ∨ strand.viewport.Regains offset) ∨
      strand.pending = some (.offset offset)) : strand.finish.viewport.Regains offset := by
  refine Viewport.regains_clamp_window hoffset ?_
  rw [caughtUp]
  rcases h with ⟨hpending, hthere⟩ | hpending
  · rw [hpending]
    exact hthere
  · rw [hpending]
    exact .inr (Viewport.regains_scrollTo hoffset)

/-- A pass returns to the offset that the axis recalls, whatever the number of items has become. -/
theorem Turns.regains {count : Nat} (hturns : Turns (some (.pass count)) strand after)
    (hoffset : IsOffset offset) (h : strand.Recalls offset) : after.viewport.Regains offset := by
  cases hturns with
  | event =>
    refine finish_regains hoffset ?_
    rcases h with ⟨hpending, rfl⟩ | hpending
    · have hadopted : IsOffset
          (strand.viewport.withModel (strand.viewport.model.setLen count)).offset := hoffset
      exact .inl ⟨hpending, .inr (Viewport.regains_clamp hadopted)⟩
    · exact .inr hpending
  | keep =>
    refine finish_regains hoffset ?_
    rcases h with ⟨hpending, hthere⟩ | hpending
    · exact .inl ⟨hpending, .inl hthere⟩
    · exact .inr hpending

end Strand

namespace Table

variable {H V S : Type} [Scalar S] {offset : S} {s t : Hosted H (Table V S)} {axis : Axis}

/-- Whether a call resizes the table at most; it may be the host that changes by itself. -/
def Call.resizes : Call H S → Bool
  | setViewportSize _ | host _ => true
  | _ => false

variable [ViewHandle H V S] {source : TableSource H V}

theorem recalls_runAll {between : List (Call H S)}
    (hbetween : ∀ call ∈ between, call.resizes = true) (h : (s.held.strand axis).Recalls offset) :
    ((Step.runAll (Call.perform source) between s).2.held.strand axis).Recalls offset := by
  refine Step.holds_runAll (fun t : Hosted H (Table V S) ↦ (t.held.strand axis).Recalls offset)
    (fun call hmem t ht ↦ ?_) h
  cases call
  case setViewportSize size => exact (setViewportSize_turns axis size t.held).recalls_resize ht
  case host change => exact ht
  all_goals cases hbetween _ hmem

/-- Only selecting a cell scrolls before its pass. -/
theorem strand_of_lead {call : Call H S} (hcall : ∀ cell, call ≠ .select cell)
    (hlead : call.lead source s = .ok true t) : t.held.strand axis = s.held.strand axis := by
  have hpass : (call.lead source).Ensures s
      (fun follows (t : Hosted H (Table V S)) ↦
        follows = true → t.held.strand axis = s.held.strand axis) fun _ ↦ True := by
    cases call
    case select cell => exact absurd rfl (hcall cell)
    case layout | refreshAll | dimensionsChanged => exact fun _ ↦ rfl
    all_goals
      simp only [Call.lead, Step.ensures_bind, Step.ensures_pure]
      exact Step.ensures_of_forall (fun _ _ hfollows ↦ absurd hfollows Bool.false_ne_true)
        fun _ ↦ trivial
  exact hpass.of_ok hlead rfl

variable [LawfulOffsets S]

/-- Both viewports of a table are where they can be after any run. -/
theorem poised_runAll (calls : List (Call H S)) (h : s.held.Poised) :
    (Step.runAll (Call.perform source) calls s).2.held.Poised :=
  Step.holds_runAll (fun t : Hosted H (Table V S) ↦ t.held.Poised)
    (fun call _ _ ht ↦ ht.after_perform source call) h

/-- A pass of a poised table returns to the offset that an axis recalls. -/
theorem layout_regains (source : TableSource H V) (h : s.held.ViewportsHave Viewport.Fresh)
    (hoffset : IsOffset offset) (hrecalls : (s.held.strand axis).Recalls offset) :
    (layout source).Ensures s (fun _ t ↦ (t.held.strand axis).viewport.Regains offset)
      fun _ ↦ True :=
  (layout_turns axis source h).mono (fun _ _ ht ↦ ht.1.regains hoffset hrecalls) fun _ ↦ id

end Table

/-! ### Runs -/

/-- Take a run of calls that ends in a completed pass, then any number of resizes to any sizes,
while the host changes as it likes, and then a call that ends in another completed pass and does not
select. The second pass ends at the offset at which the first one did, or as far towards it as the
content then reaches. This is so of collections, whatever calls the run makes on the model and
however they end, and of tables along both axes. -/
theorem offset_regained_after_resizes {E H M V S : Type} [Scalar S] [ExtentModel M S]
    [ResizableModel M S] [CrossPlacement M S] [LawfulSettle M] [LawfulOffsets S]
    [ViewHandle H V S] (host : H) (mode : SelectionMode) (lookahead : Nat) :
    (∀ (edit : E → Step M (Reply S)) (source : ItemSource H V) (model : M) (axis : Axis)
      (calls between : List (Collection.Call E H V S)) (call again : Collection.Call E H V S)
      {pass pass' : Pass IndexRange Nat} {s t u v : Hosted H (Collection M V S)},
      let ended := (Step.runAll (Collection.Call.perform edit source) calls
        ⟨host, Collection.initial model axis mode lookahead⟩).2
      let resized := (Step.runAll (Collection.Call.perform edit source) between t).2
      call.lead edit source ended = .ok true s → Collection.layout source s = .ok pass t →
      (∀ call ∈ between, call.resizes = true) → (∀ index, again ≠ .select index) →
      again.lead edit source resized = .ok true u → Collection.layout source u = .ok pass' v →
      (call.perform edit source).after ended = t ∧ (again.perform edit source).after resized = v ∧
        v.held.viewport.Regains t.held.viewport.offset) ∧
    ∀ (source : TableSource H V) (rows cols : Strip S) (calls between : List (Table.Call H S))
      (call again : Table.Call H S) {pass pass' : Pass TableWindow CellId}
      {s t u v : Hosted H (Table V S)},
      let ended := (Step.runAll (Table.Call.perform source) calls
        ⟨host, Table.initial rows cols mode lookahead⟩).2
      let resized := (Step.runAll (Table.Call.perform source) between t).2
      call.lead source ended = .ok true s → Table.layout source s = .ok pass t →
      (∀ call ∈ between, call.resizes = true) → (∀ cell, again ≠ .select cell) →
      again.lead source resized = .ok true u → Table.layout source u = .ok pass' v →
      (call.perform source).after ended = t ∧ (again.perform source).after resized = v ∧
        v.held.rows.Regains t.held.rows.offset ∧ v.held.cols.Regains t.held.cols.offset := by
  constructor
  · intro edit source model axis calls between call again pass pass' s t u v ended resized hlead
      hpass hbetween hagain hlead' hpass'
    have hafter := Collection.Call.after_perform_of_lead hlead hpass
    have hoffset : IsOffset t.held.viewport.offset := by
      have hrun : Collection.ViewportHas (fun viewport ↦ IsOffset viewport.offset)
          (Step.runAll (Collection.Call.perform edit source) (calls ++ [call])
            ⟨host, Collection.initial model axis mode lookahead⟩).2 :=
        Collection.viewportHas_runAll Viewport.upheld_isOffset.tended source
          (fun e _ _ h ↦ Step.ensures_of_forall (fun _ _ ↦ h) fun _ ↦ h)
          (Viewport.seated_ofModel model Scalar.zero lookahead).isOffset
      rw [Step.snd_runAll_concat, hafter] at hrun
      exact hrun
    have hrecalls : resized.held.Recalls t.held.viewport.offset :=
      (Collection.recalls_of_layout hpass).runAll source hbetween
    exact ⟨hafter, Collection.Call.after_perform_of_lead hlead' hpass',
      (Collection.layout_regains hoffset source (hrecalls.lead hagain hlead')).of_ok hpass'⟩
  · intro source rows cols calls between call again pass pass' s t u v ended resized hlead hpass
      hbetween hagain hlead' hpass'
    have hafter := Table.Call.after_perform_of_lead hlead hpass
    have hended : ended.held.Poised :=
      Table.poised_runAll calls (Table.poised_initial rows cols mode lookahead)
    have ht : t.held.Poised := hafter ▸ hended.after_perform source call
    have hresized : resized.held.Poised := Table.poised_runAll between ht
    have hfresh := Viewport.upheld_fresh.tended (M := Strip S) (S := S)
    have hs := (Table.lead_viewports hfresh source call hended.fresh).of_ok hlead
    have hu := (Table.lead_viewports hfresh source again hresized.fresh).of_ok hlead'
    have hregains (axis : Axis) :
        (v.held.strand axis).viewport.Regains (t.held.strand axis).viewport.offset := by
      have hrecalls : (resized.held.strand axis).Recalls (t.held.strand axis).viewport.offset :=
        Table.recalls_runAll hbetween
          ((Table.layout_turns axis source hs).of_ok hpass).1.recalls_pass
      rw [← Table.strand_of_lead hagain hlead'] at hrecalls
      exact (Table.layout_regains source hu (ht.seated.strand axis).isOffset hrecalls).of_ok hpass'
    exact ⟨hafter, Table.Call.after_perform_of_lead hlead' hpass', hregains .vertical,
      hregains .horizontal⟩

/-- A grid is scrolled to its end, gets four lanes, with which it cannot be scrolled that far, and
two again, and loses three items. A table gets as large as its content, and small again. -/
theorem offset_regained_after_resizes_rehearsal :
    (let source : ItemSource (Rehearsal Nat Nat) (BlankView Rat) := Rehearsal.items
      let grid : Grid (Strip Rat) Rat := .ofTracks { Strip.empty with uniform := 10 } 10 0
      let calls : List (Collection.Call (Grid.Call Rat) (Rehearsal Nat Nat) (BlankView Rat) Rat) :=
        [.setViewportSize ⟨20, 20⟩, .layout, .scrollToEnd]
      let between :
          List (Collection.Call (Grid.Call Rat) (Rehearsal Nat Nat) (BlankView Rat) Rat) :=
        [.setViewportSize ⟨40, 20⟩, .setViewportSize ⟨20, 50⟩, .host fun _ ↦ Rehearsal.ofPoll 9,
          .setViewportSize ⟨20, 25⟩]
      let run := Step.runAll (Collection.Call.perform Grid.Call.perform source)
      let ended := (run calls
        ⟨Rehearsal.ofPoll 12, Collection.initial grid .vertical .none 0⟩).2
      ∃ pass t pass' v, Collection.layout source ended = .ok pass t ∧
        Collection.layout source (run between t).2 = .ok pass' v ∧
        t.held.viewport.offset = 40 ∧ (run between t).2.held.viewport.offset = 0 ∧
        v.held.viewport.offset = 25 ∧ v.held.viewport.offset = min 40
          (max 0 (ExtentModel.totalExtent v.held.model - v.held.viewport.extent))) ∧
    (let source : TableSource (Rehearsal (Nat × Nat) CellId) (BlankView Rat) := Rehearsal.cells
      let strip : Strip Rat := { Strip.empty with uniform := 10 }
      let calls : List (Table.Call (Rehearsal (Nat × Nat) CellId) Rat) :=
        [.setViewportSize ⟨20, 20⟩, .layout, .scrollTo ⟨15, 90⟩]
      let between : List (Table.Call (Rehearsal (Nat × Nat) CellId) Rat) :=
        [.setViewportSize ⟨60, 60⟩, .setViewportSize ⟨20, 10⟩]
      let run := Step.runAll (Table.Call.perform source)
      let ended := (run calls ⟨Rehearsal.ofPoll (6, 5), Table.initial strip strip .none 0⟩).2
      ∃ pass t pass' v, Table.layout source ended = .ok pass t ∧
        Table.layout source (run between t).2 = .ok pass' v ∧
        t.held.rows.offset = 40 ∧ t.held.cols.offset = 15 ∧
        (run between t).2.held.rows.offset = 0 ∧ (run between t).2.held.cols.offset = 0 ∧
        v.held.rows.Regains 40 ∧ v.held.cols.Regains 15) := by
  constructor
  · intro source grid calls between run ended
    obtain ⟨pass, t, hpass, ht⟩ := Step.exists_eq_ok_and (Collection.layout source) ended
      (fun _ t ↦ decide (t.held.viewport.offset = 40)) (by decide +kernel)
    obtain rfl := Step.after_of_eq_ok hpass
    obtain ⟨pass', v, hpass', hv⟩ := Step.exists_eq_ok_and (Collection.layout source)
      (run between ((Collection.layout source).after ended)).2
      (fun _ v ↦ decide (v.held.viewport.offset = 25)) (by decide +kernel)
    have hoffset : ((Collection.layout source).after ended).held.viewport.offset = 40 :=
      of_decide_eq_true ht
    have hregains := ((offset_regained_after_resizes (Rehearsal.ofPoll 12) .none 0).1
      Grid.Call.perform source grid .vertical calls between .layout .layout rfl hpass
      (by simp [between, Collection.Call.resizes]) nofun rfl hpass').2.2
    rw [hoffset] at hregains
    exact ⟨pass, _, pass', v, hpass, hpass', hoffset, by decide +kernel, of_decide_eq_true hv,
      Viewport.regains_iff.mp hregains⟩
  · intro source strip calls between run ended
    obtain ⟨pass, t, hpass, ht⟩ := Step.exists_eq_ok_and (Table.layout source) ended
      (fun _ t ↦ decide (t.held.rows.offset = 40 ∧ t.held.cols.offset = 15)) (by decide +kernel)
    obtain rfl := Step.after_of_eq_ok hpass
    obtain ⟨pass', v, hpass', -⟩ := Step.exists_eq_ok_and (Table.layout source)
      (run between ((Table.layout source).after ended)).2 (fun _ _ ↦ true) (by decide +kernel)
    have hoffset : ((Table.layout source).after ended).held.rows.offset = 40 ∧
        ((Table.layout source).after ended).held.cols.offset = 15 := of_decide_eq_true ht
    have hregains := ((offset_regained_after_resizes (M := Strip Rat) (E := Strip.Call Rat)
      (Rehearsal.ofPoll (6, 5)) .none 0).2 source strip strip calls between .layout .layout rfl
      hpass (by simp [between, Table.Call.resizes]) nofun rfl hpass').2.2
    rw [hoffset.1, hoffset.2] at hregains
    exact ⟨pass, _, pass', v, hpass, hpass', hoffset.1, hoffset.2, by decide +kernel,
      by decide +kernel, hregains⟩

end Windowing
