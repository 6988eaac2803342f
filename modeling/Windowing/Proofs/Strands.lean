import Windowing.Proofs.KeptWindow
import Windowing.Proofs.Seated
import Windowing.Proofs.Showing

/-!
# One axis of a table

What a table does along one of its axes concerns a viewport and the request to scroll it that is
pending: a *strand*. A strand is resized, scrolled, edited and taken through passes, and nothing of
the other axis comes into it, with one exception. A resize of the table has every axis that has no
request pending record where it is scrolled to, also if it was not resized along this axis. Such a
request is *borrowed*: alone, the strand would have none.

A borrowed request asks for the offset that the viewport has. As long as that is so, the pass that
makes the request changes nothing by it, whatever the number of items has become. It may change
something if meanwhile an extent is set that pulls the viewport back: the pass then scrolls to where
the viewport was before.

Two strands are compared by what they show. A strip may store more or less of what it can compute,
and a viewport may keep its window or not: neither shows.

## Main definitions

* `Viewport.Matches` — two viewports over strips that show the same.
* `Strand`, `Strand.Event` — one axis, and what concerns it.
* `Strand.turn` — what becomes of an axis that is alone.
* `Strand.Turns` — what becomes of an axis of a table.
* `Strand.Owes` — whose request is pending, if the axis alone would have a certain one.

## Main results

* `Strand.matches_turn` — strands that show the same, with the same request pending, go on to.
* `Strand.Turns.matches` — what becomes of an axis of a table shows as what becomes of it alone.
* `Strand.Turns.owes`, `Strand.Owes.viewport_pass` — a borrowed request shows in no pass before an
  extent is set.
-/

namespace Windowing

namespace Viewport

/-! ### Viewports that show the same -/

section Matches

variable {S : Type} [Scalar S] {a b c : Viewport (Strip S) S}

/-- The viewports show parts of strips that are equal but for what they store, and show equally
much. -/
structure Abreast (a b : Viewport (Strip S) S) : Prop where
  left_sound : a.model.Sound
  right_sound : b.model.Sound
  measures_eq : b.model.measures = a.model.measures
  extent_eq : b.extent = a.extent
  lookahead_eq : b.lookahead = a.lookahead

/-- The viewports are also scrolled equally far. -/
structure Matches (a b : Viewport (Strip S) S) : Prop extends Abreast a b where
  offset_eq : b.offset = a.offset

theorem Abreast.symm (h : a.Abreast b) : b.Abreast a :=
  ⟨h.right_sound, h.left_sound, h.measures_eq.symm, h.extent_eq.symm, h.lookahead_eq.symm⟩

theorem Abreast.trans (h : a.Abreast b) (h' : b.Abreast c) : a.Abreast c where
  left_sound := h.left_sound
  right_sound := h'.right_sound
  measures_eq := h'.measures_eq.trans h.measures_eq
  extent_eq := h'.extent_eq.trans h.extent_eq
  lookahead_eq := h'.lookahead_eq.trans h.lookahead_eq

theorem Matches.refl (h : a.model.Sound) : a.Matches a :=
  ⟨⟨h, h, rfl, rfl, rfl⟩, rfl⟩

theorem Matches.symm (h : a.Matches b) : b.Matches a :=
  ⟨h.toAbreast.symm, h.offset_eq.symm⟩

theorem Matches.trans (h : a.Matches b) (h' : b.Matches c) : a.Matches c :=
  ⟨h.toAbreast.trans h'.toAbreast, h'.offset_eq.trans h.offset_eq⟩

theorem abreast_scrollTo (h : a.model.Sound) (target : S) : a.Abreast (a.scrollTo target).1 := by
  rw [scrollTo]
  split <;> exact ⟨h, h, rfl, rfl, rfl⟩

theorem abreast_clamp (h : a.model.Sound) : a.Abreast a.clamp.1 := by
  rw [clamp]
  split <;> exact ⟨h, h, rfl, rfl, rfl⟩

theorem Matches.sameAnswers (h : a.Matches b) : ExtentModel.SameAnswers a.model b.model :=
  h.left_sound.sameAnswers h.right_sound h.measures_eq

theorem Matches.maxOffset_eq (h : a.Matches b) : b.maxOffset = a.maxOffset := by
  rw [maxOffset, maxOffset, h.sameAnswers.totalExtent_eq, h.extent_eq]

/-- The windows are the same, if they are found anew. -/
theorem Matches.freshWindow_eq (h : a.Matches b) : b.freshWindow = a.freshWindow := by
  rw [freshWindow, freshWindow, h.offset_eq, h.extent_eq, h.lookahead_eq]
  exact h.sameAnswers.visibleWindow_eq _ _ _

theorem Matches.scrollTo (h : a.Matches b) (target : S) :
    (a.scrollTo target).1.Matches (b.scrollTo target).1 := by
  rw [Viewport.scrollTo, Viewport.scrollTo, h.maxOffset_eq, h.offset_eq]
  split
  · exact h
  · exact { h with offset_eq := rfl }

theorem Matches.clamp (h : a.Matches b) : a.clamp.1.Matches b.clamp.1 := by
  rw [Viewport.clamp, Viewport.clamp, h.maxOffset_eq, h.offset_eq]
  split
  · exact { h with offset_eq := rfl }
  · exact h

theorem Matches.resize (h : a.Matches b) (extent : S) :
    (a.resize extent).1.Matches (b.resize extent).1 := by
  rw [Viewport.resize, Viewport.resize, h.extent_eq]
  split
  · exact h
  · have hresized : Matches { a with extent := Scalar.nonNegative extent }.invalidate
        { b with extent := Scalar.nonNegative extent }.invalidate := { h with extent_eq := rfl }
    exact hresized.clamp

theorem Matches.resize_eq (h : a.Matches b) (extent : S) :
    (b.resize extent).2 = (a.resize extent).2 := by
  rw [Viewport.resize, Viewport.resize, h.extent_eq]
  split <;> rfl

theorem Matches.bring (h : a.Matches b) {index : Nat} {align : ScrollAlign}
    {moved moved' : Viewport (Strip S) S × Bool} (ha : a.bring index align = .ok moved)
    (hb : b.bring index align = .ok moved') : moved.1.Matches moved'.1 := by
  have hsame := h.sameAnswers
  have hspan (i : Nat) : b.spanOf? i = a.spanOf? i := by
    rw [spanOf?, spanOf?, hsame.len_eq, hsame.offsetOf_eq, hsame.extentOf_eq]
  have haligned (start stop : S) :
      b.alignedOffset start stop align = a.alignedOffset start stop align := by
    unfold alignedOffset trailingEdge
    rw [h.offset_eq, h.extent_eq]
  rw [Viewport.bring] at ha hb
  rw [hsame.len_eq, hspan] at hb
  split at ha
  · next hlen =>
    rw [if_pos hlen] at hb
    obtain rfl := Except.ok.inj ha
    obtain rfl := Except.ok.inj hb
    exact h.scrollTo _
  · next hlen =>
    rw [if_neg hlen] at hb
    cases hfound : a.spanOf? (Nat.min index (ExtentModel.len a.model - 1)) with
    | error fault =>
      rw [hfound] at ha
      cases ha
    | ok span =>
      rw [hfound] at ha hb
      cases span with
      | none =>
        obtain rfl := Except.ok.inj ha
        obtain rfl := Except.ok.inj hb
        exact h
      | some span =>
        obtain rfl := Except.ok.inj ha
        obtain rfl := Except.ok.inj hb
        rw [haligned]
        exact h.scrollTo _

theorem Matches.withModel {model model' : Strip S} (h : a.Matches b) (hsound : model.Sound)
    (hsound' : model'.Sound) (hmeasures : model'.measures = model.measures) :
    (a.withModel model).Matches (b.withModel model') :=
  { h with left_sound := hsound, right_sound := hsound', measures_eq := hmeasures }

theorem Matches.clampIf (h : a.Matches b) (edited : Bool) :
    (a.clampIf edited).Matches (b.clampIf edited) := by
  cases edited with
  | false => exact h
  | true => exact h.clamp

/-- What a viewport stores when it is asked for its window does not show. -/
theorem matches_window (h : a.model.Sound) : a.Matches a.window.2 := by
  rw [window]
  split
  · exact .refl h
  · exact ⟨⟨h, h.settleAll, Strip.measures_settleAll a.model, rfl, rfl⟩, rfl⟩

theorem Matches.window (h : a.Matches b) : a.window.2.Matches b.window.2 :=
  ((matches_window h.left_sound).symm.trans h).trans (matches_window h.right_sound)

end Matches

end Viewport

/-! ### Strands -/

/-- One axis of a table: its viewport, and the request to scroll it that is pending. -/
structure Strand (S : Type) where
  /-- The scroll state. -/
  viewport : Viewport (Strip S) S
  /-- The latest request to scroll since the last pass. -/
  pending : Option (ScrollRequest S)

namespace Strand

deriving instance DecidableEq for ScrollRequest

/-- What concerns an axis. -/
inductive Event (S : Type) where
  /-- The viewport is to have an extent, which may be the one that it has. -/
  | resize (extent : S)
  /-- A request to scroll is made. -/
  | scroll (request : ScrollRequest S)
  /-- An item is to have an extent of its own. -/
  | setExtent (index : Nat) (extent : S)
  /-- A pass finds this many items. -/
  | pass (count : Nat)
deriving DecidableEq

/-- Whether a pass concerns the axis. -/
def Event.isPass {S : Type} : Event S → Bool
  | pass _ => true
  | _ => false

section Events

variable {S : Type} [Scalar S] {strand : Strand S}

/-- Resizes the viewport. Where that changes it, its offset is to be restored by the next pass,
unless a request is pending already. -/
def resize (extent : S) (strand : Strand S) : Strand S :=
  if (strand.viewport.resize extent).2 then
    { viewport := (strand.viewport.resize extent).1
      pending := some (strand.pending.getD (.offset strand.viewport.offset)) }
  else
    strand

/-- The viewport after a request to scroll it. -/
def requested (request : ScrollRequest S) (viewport : Viewport (Strip S) S) :
    Viewport (Strip S) S :=
  match request.apply viewport with
  | .ok moved => moved.1
  | .error _ => viewport

/-- Records a request to scroll, and scrolls. -/
def scroll (request : ScrollRequest S) (strand : Strand S) : Strand S where
  viewport := requested request strand.viewport
  pending := some request

/-- The viewport after an item is given an extent of its own: it is pulled back if the item
exists. -/
def extended (index : Nat) (extent : S) (viewport : Viewport (Strip S) S) :
    Viewport (Strip S) S :=
  match Strip.setOverride index extent viewport.model with
  | .ok applied model => (viewport.withModel model).clampIf applied
  | .error _ model => viewport.withModel model

/-- Gives an item an extent of its own. -/
def setExtent (index : Nat) (extent : S) (strand : Strand S) : Strand S :=
  { strand with viewport := extended index extent strand.viewport }

/-- Takes over the number of items. -/
def sync (count : Nat) (strand : Strand S) : Strand S :=
  { strand with
    viewport := (strand.viewport.withModel (strand.viewport.model.setLen count)).clamp.1 }

/-- The viewport after the pending request, if there is one. -/
def caughtUp (strand : Strand S) : Viewport (Strip S) S :=
  strand.pending.elim strand.viewport fun request ↦ requested request strand.viewport

/-- The part of a pass after the number of items is known: the pending request is made once more,
and the window is found. -/
def finish (strand : Strand S) : Strand S where
  viewport := strand.caughtUp.clamp.1.window.2
  pending := none

/-- What becomes of an axis that is alone. -/
def turn (event : Event S) (strand : Strand S) : Strand S :=
  match event with
  | .resize extent => strand.resize extent
  | .scroll request => strand.scroll request
  | .setExtent index extent => strand.setExtent index extent
  | .pass count => (strand.sync count).finish

/-- What becomes of an axis of a table by a call that concerns it in a certain way, if at all. There
are two differences to an axis that is alone: a request may be borrowed, and a pass that finds the
number of items unchanged may or may not take it over. -/
inductive Turns : Option (Event S) → Strand S → Strand S → Prop
  | idle (strand : Strand S) : Turns none strand strand
  | event (event : Event S) (strand : Strand S) : Turns (some event) strand (strand.turn event)
  | borrow {extent : S} {strand : Strand S} (hsame : (strand.viewport.resize extent).2 = false)
      (hnone : strand.pending = none) :
      Turns (some (.resize extent)) strand
        { strand with pending := some (.offset strand.viewport.offset) }
  | keep {count : Nat} {strand : Strand S} (hlen : strand.viewport.model.len = count) :
      Turns (some (.pass count)) strand strand.finish

/-- The scroll offset, and the range of items that shows. -/
def sight (strand : Strand S) : S × IndexRange :=
  (strand.viewport.offset, strand.viewport.freshWindow.toIndexRange)

/-- What is seen of an axis that is alone after each pass. -/
def sights : List (Event S) → Strand S → List (S × IndexRange)
  | [], _ => []
  | event :: rest, strand =>
    let turned := strand.turn event
    (if event.isPass then [turned.sight] else []) ++ sights rest turned

theorem Turns.eq_of_none {after : Strand S} (h : Turns none strand after) : after = strand := by
  cases h
  rfl

theorem resize_eq_self {extent : S} (h : (strand.viewport.resize extent).2 = false) :
    strand.resize extent = strand := by
  rw [resize, h, if_neg Bool.false_ne_true]

theorem viewport_resize (extent : S) (strand : Strand S) :
    (strand.resize extent).viewport = (strand.viewport.resize extent).1 := by
  rw [resize]
  split
  · rfl
  · next hnot => exact (Viewport.fst_resize_of_eq_false (Bool.eq_false_iff.mpr hnot)).symm

/-- A resize that changes nothing along the axis. -/
theorem turns_resize_self {extent : S} (h : (strand.viewport.resize extent).2 = false) :
    Turns (some (.resize extent)) strand strand := by
  have hturns := Turns.event (.resize extent) strand
  rwa [turn, resize_eq_self h] at hturns

/-- A resize of which the axis takes note, whether it is resized itself or not. -/
theorem turns_resize (extent : S) (strand : Strand S) :
    Turns (some (.resize extent)) strand
      { viewport := (strand.viewport.resize extent).1
        pending := some (strand.pending.getD (.offset strand.viewport.offset)) } := by
  cases hresized : (strand.viewport.resize extent).2 with
  | true =>
    have hturns := Turns.event (.resize extent) strand
    rwa [turn, resize, if_pos hresized] at hturns
  | false =>
    rw [Viewport.fst_resize_of_eq_false hresized]
    cases hpending : strand.pending with
    | none => exact .borrow hresized hpending
    | some request =>
      rw [Option.getD_some, ← hpending]
      exact turns_resize_self hresized

theorem fresh_caughtUp (h : strand.viewport.Fresh) : strand.caughtUp.Fresh := by
  rw [caughtUp]
  cases strand.pending with
  | none => exact h
  | some request =>
    obtain ⟨moved, hmoved⟩ := Viewport.exists_apply_eq_ok request strand.viewport
    rw [Option.elim_some, requested, hmoved]
    exact Viewport.apply_keeps (fun target h ↦ h.scrollTo target) h hmoved

end Events

/-! ### Strands that show the same -/

section Matches

variable {S : Type} [Scalar S] {a b : Strand S} {event : Event S}

theorem matches_requested {a b : Viewport (Strip S) S} (h : a.Matches b)
    (request : ScrollRequest S) : (requested request a).Matches (requested request b) := by
  obtain ⟨moved, ha⟩ := Viewport.exists_apply_eq_ok request a
  obtain ⟨moved', hb⟩ := Viewport.exists_apply_eq_ok request b
  rw [requested, requested, ha, hb]
  cases request with
  | offset target =>
    obtain rfl := Except.ok.inj ha
    obtain rfl := Except.ok.inj hb
    exact h.scrollTo target
  | item index align => exact h.bring ha hb
  | stop =>
    obtain rfl := Except.ok.inj ha
    obtain rfl := Except.ok.inj hb
    change (a.scrollTo a.maxOffset).1.Matches (b.scrollTo b.maxOffset).1
    rw [h.maxOffset_eq]
    exact h.scrollTo _

theorem matches_extended {a b : Viewport (Strip S) S} (h : a.Matches b) (index : Nat)
    (extent : S) : (extended index extent a).Matches (extended index extent b) := by
  have hshown := Strip.setOverride_mirrors index extent a.model
  have hshown' := Strip.setOverride_mirrors index extent b.model
  have hsound := h.left_sound.setOverride index extent
  have hsound' := h.right_sound.setOverride index extent
  rw [h.measures_eq, hshown] at hshown'
  rw [Step.Ensures] at hsound hsound'
  rw [extended, extended]
  cases hr : Strip.setOverride index extent a.model with
  | ok applied model =>
    cases hr' : Strip.setOverride index extent b.model with
    | ok applied' model' =>
      rw [hr, hr'] at hshown'
      rw [hr] at hsound
      rw [hr'] at hsound'
      obtain ⟨rfl, hmeasures⟩ := EStateM.Result.ok.inj hshown'
      exact (h.withModel hsound hsound' hmeasures.symm).clampIf applied
    | error fault model' =>
      rw [hr, hr'] at hshown'
      cases hshown'
  | error fault model =>
    cases hr' : Strip.setOverride index extent b.model with
    | ok applied' model' =>
      rw [hr, hr'] at hshown'
      cases hshown'
    | error fault' model' =>
      rw [hr, hr'] at hshown'
      rw [hr] at hsound
      rw [hr'] at hsound'
      obtain ⟨-, hmeasures⟩ := EStateM.Result.error.inj hshown'
      exact h.withModel hsound hsound' hmeasures.symm

theorem matches_sync (h : a.viewport.Matches b.viewport) (count : Nat) :
    (a.sync count).viewport.Matches (b.sync count).viewport := by
  have hmeasures : (b.viewport.model.setLen count).measures =
      (a.viewport.model.setLen count).measures :=
    congrArg (Measures.setLen count) h.measures_eq
  exact (h.withModel (h.left_sound.setLen count) (h.right_sound.setLen count) hmeasures).clamp

/-- Taking over the number of items that there are changes nothing. -/
theorem matches_sync_len (h : a.viewport.model.Sound) (hseated : a.viewport.Seated) :
    (a.sync a.viewport.model.len).viewport.Matches a.viewport := by
  have hmeasures : (a.viewport.model.setLen a.viewport.model.len).measures =
      a.viewport.model.measures := by
    change a.viewport.model.measures.setLen a.viewport.model.measures.len = _
    simp only [Measures.setLen, Nat.lt_irrefl, if_false]
  have hmodel : (a.viewport.withModel (a.viewport.model.setLen a.viewport.model.len)).Matches
      a.viewport := ⟨⟨h.setLen _, h, hmeasures.symm, rfl, rfl⟩, rfl⟩
  have hclamp := hmodel.clamp
  rw [hseated.clamp_eq] at hclamp
  exact hclamp

theorem matches_finish (h : a.viewport.Matches b.viewport) (hpending : b.pending = a.pending) :
    a.finish.viewport.Matches b.finish.viewport := by
  have hcaughtUp : a.caughtUp.Matches b.caughtUp := by
    rw [caughtUp, caughtUp, hpending]
    cases a.pending with
    | none => exact h
    | some request => exact matches_requested h request
  exact hcaughtUp.clamp.window

/-- A pass changes no more than where the viewport is scrolled to, once it has taken over the number
of items. -/
theorem abreast_finish (h : a.viewport.model.Sound) : a.viewport.Abreast a.finish.viewport := by
  have hcaughtUp : a.viewport.Abreast a.caughtUp := by
    rw [caughtUp]
    cases a.pending with
    | none => exact (Viewport.Matches.refl h).toAbreast
    | some request =>
      obtain ⟨moved, hmoved⟩ := Viewport.exists_apply_eq_ok request a.viewport
      rw [Option.elim_some, requested, hmoved]
      rcases Viewport.apply_moves hmoved with hsame | ⟨target, rfl⟩
      · exact hsame ▸ (Viewport.Matches.refl h).toAbreast
      · exact Viewport.abreast_scrollTo h target
  have hclamp := hcaughtUp.trans (Viewport.abreast_clamp hcaughtUp.right_sound)
  exact hclamp.trans (Viewport.matches_window hclamp.right_sound).toAbreast

theorem sight_eq (h : a.viewport.Matches b.viewport) : b.sight = a.sight := by
  rw [sight, sight, h.offset_eq, h.freshWindow_eq]

/-- Strands that show the same go on to, whatever requests are pending, unless a pass takes them to
other offsets. -/
theorem matches_turn_of_offset_eq (h : a.viewport.Matches b.viewport)
    (hoffset : event.isPass = true →
      (b.turn event).viewport.offset = (a.turn event).viewport.offset) :
    (a.turn event).viewport.Matches (b.turn event).viewport := by
  cases event with
  | resize extent =>
    rw [turn, turn, viewport_resize, viewport_resize]
    exact h.resize extent
  | scroll request => exact matches_requested h request
  | setExtent index extent => exact matches_extended h index extent
  | pass count =>
    have hsynced := matches_sync h count
    have hfinish := abreast_finish (a := a.sync count) hsynced.left_sound
    have hfinish' := abreast_finish (a := b.sync count) hsynced.right_sound
    exact ⟨(hfinish.symm.trans hsynced.toAbreast).trans hfinish', hoffset rfl⟩

/-- Strands that show the same and have the same request pending go on to. -/
theorem matches_turn (h : a.viewport.Matches b.viewport) (hpending : b.pending = a.pending)
    (event : Event S) : (a.turn event).viewport.Matches (b.turn event).viewport := by
  refine matches_turn_of_offset_eq h fun hpass ↦ ?_
  cases event with
  | pass count => exact (matches_finish (matches_sync h count) hpending).offset_eq
  | _ => cases hpass

theorem pending_turn (h : a.viewport.Matches b.viewport) (hpending : b.pending = a.pending)
    (event : Event S) : (b.turn event).pending = (a.turn event).pending := by
  cases event with
  | resize extent =>
    rw [turn, turn, resize, resize, h.resize_eq, hpending, h.offset_eq]
    split
    · rfl
    · exact hpending
  | setExtent index extent => exact hpending
  | scroll request => rfl
  | pass count => rfl

/-- What becomes of an axis of a table shows as what becomes of it alone. -/
theorem Turns.matches (hturns : Turns (some event) a b) (h : a.viewport.model.Sound)
    (hseated : a.viewport.Seated) : (a.turn event).viewport.Matches b.viewport := by
  have hsame := matches_turn (.refl h) rfl event (a := a)
  cases hturns with
  | event => exact hsame
  | borrow hresized _ =>
    rw [turn, resize_eq_self hresized] at hsame ⊢
    exact hsame
  | keep hlen =>
    subst hlen
    exact matches_finish (matches_sync_len h hseated) rfl

end Matches

/-! ### Borrowed requests -/

section Owes

variable {S : Type} [Scalar S] {a b : Strand S} {event : Event S} {own : Option (ScrollRequest S)}

/-- The pending request is the one of the axis itself, or else it is borrowed and asks for the
offset that the viewport has. -/
def Owes (own : Option (ScrollRequest S)) (strand : Strand S) : Prop :=
  strand.pending = own ∨
    own = none ∧ strand.pending = some (.offset strand.viewport.offset)

/-- A borrowed request changes nothing about the offset that a pass comes to. -/
theorem Owes.viewport_pass [LawfulClamp S] (h : Owes own a) (hseated : a.viewport.Seated)
    (count : Nat) : (turn (.pass count) { a with pending := own }).viewport =
      (a.turn (.pass count)).viewport := by
  rcases h with hsame | ⟨rfl, hborrowed⟩
  · rw [← hsame]
  · have hstays : requested (.offset a.viewport.offset) (a.sync count).viewport =
        (a.sync count).viewport := by
      have hmodel : Scalar.IsOffset (a.viewport.withModel (a.viewport.model.setLen count)).offset :=
        hseated.isOffset
      exact Viewport.scrollTo_clamp hmodel
    have hcaughtUp : (a.sync count).caughtUp = (a.sync count).viewport := by
      change a.pending.elim _ _ = _
      rw [hborrowed]
      exact hstays
    rw [turn, turn, finish, finish, hcaughtUp]
    rfl

/-- A resize along the axis would record the request that is borrowed. -/
theorem Owes.resize (h : Owes own a) (extent : S) :
    Owes (turn (.resize extent) { a with pending := own }).pending (a.turn (.resize extent)) := by
  rw [turn, turn]
  cases hresized : (a.viewport.resize extent).2 with
  | false =>
    have hown : Strand.resize extent { a with pending := own } = { a with pending := own } :=
      resize_eq_self hresized
    rw [resize_eq_self hresized, hown]
    exact h
  | true =>
    rw [Strand.resize, Strand.resize, if_pos hresized, if_pos hresized]
    rcases h with rfl | ⟨rfl, hborrowed⟩
    · exact .inl rfl
    · rw [hborrowed]
      exact .inl rfl

/-- As long as no extent is set, a borrowed request goes on to ask for the offset that the viewport
has. -/
theorem Turns.owes [LawfulClamp S] (hturns : Turns (some event) a b) (h : Owes own a)
    (hevent : ∀ index extent, event ≠ .setExtent index extent) :
    Owes (turn event { a with pending := own }).pending b := by
  cases hturns with
  | event =>
    cases event with
    | resize extent => exact h.resize extent
    | setExtent index extent => exact absurd rfl (hevent index extent)
    | scroll request => exact .inl rfl
    | pass count => exact .inl rfl
  | @borrow extent _ hresized hnone =>
    have hown : Strand.resize extent { a with pending := own } = { a with pending := own } :=
      resize_eq_self hresized
    rw [turn, hown]
    rcases h with hsame | ⟨hown, -⟩
    · exact .inr ⟨hsame.symm.trans hnone, rfl⟩
    · exact .inr ⟨hown, rfl⟩
  | keep hlen => exact .inl rfl

end Owes

end Strand

end Windowing
