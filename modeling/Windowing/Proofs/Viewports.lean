import Windowing.Proofs.Extent.Upheld
import Windowing.Proofs.WindowBounds

/-!
# Viewports in the care of a collection

A collection moves its viewport in few ways: it scrolls, pulls back, resizes, edits the model and
asks for the window. A property of viewports that all of these keep is one that holds of the
viewport at any time, unless the host breaks it by an edit of the model.

One such property is that the window that a viewport keeps is the one that it would find anew.

## Main definitions

* `Viewport.Fresh` — the viewport keeps no window but the one that it would find anew.
* `Viewport.UpheldAside`, `Viewport.Upheld` — a property of viewports that a collection keeps,
  beside taking over lengths and in any case.
* `Viewport.Tended` — one that it keeps where an edit and the pull back after it count as one.
* `Viewport.PassKeeps` — one that it keeps in a pass.
* `Viewport.Reaches` — the second viewport has all that is so kept of the first.

## Main results

* `Viewport.upheld_fresh` — a collection keeps its viewport fresh.
* `ExtentModel.Upheld.viewport` — a property of models is one of the viewports that show them.
* `ScrollRequest.apply_answers` — a viewport scrolls as requested if its model knows the extents
  of its items.
-/

namespace Windowing

namespace Viewport

variable {M S : Type} [Scalar S] [ExtentModel M S] {viewport : Viewport M S}

/-- If the viewport keeps a window, it is the one that the viewport would find anew. -/
def Fresh (viewport : Viewport M S) : Prop :=
  ∀ window ∈ viewport.kept, window = viewport.freshWindow

theorem fresh_of_kept_eq_none (h : viewport.kept = none) : viewport.Fresh := by
  simp [Fresh, h]

/-- The window that a fresh viewport answers is the one that it would find anew. -/
theorem Fresh.window_eq (h : viewport.Fresh) :
    viewport.window.1 = viewport.window.2.freshWindow := by
  rw [window]
  cases hkept : viewport.kept with
  | some window => exact h window hkept
  | none => rfl

theorem Fresh.scrollTo (h : viewport.Fresh) (offset : S) : (viewport.scrollTo offset).1.Fresh := by
  rw [Viewport.scrollTo]
  split
  · exact h
  · exact fresh_of_kept_eq_none rfl

theorem Fresh.clamp (h : viewport.Fresh) : viewport.clamp.1.Fresh := by
  rw [Viewport.clamp]
  split
  · exact fresh_of_kept_eq_none rfl
  · exact h

theorem Fresh.resize (h : viewport.Fresh) (extent : S) : (viewport.resize extent).1.Fresh := by
  rw [Viewport.resize]
  split
  · exact h
  · have hforgot : ({ viewport with extent := Scalar.nonNegative extent }.invalidate).Fresh :=
      fresh_of_kept_eq_none rfl
    exact hforgot.clamp

theorem Fresh.window (h : viewport.Fresh) : viewport.window.2.Fresh := by
  rw [Viewport.window]
  cases hkept : viewport.kept with
  | some window => exact h
  | none =>
    intro window hwindow
    obtain rfl := Option.some.inj hwindow
    rfl

theorem fresh_ofModel (model : M) (extent : S) (lookahead : Nat) :
    ((ofModel model extent).setLookahead lookahead).Fresh := by
  refine fresh_of_kept_eq_none ?_
  rw [setLookahead]
  split <;> rfl

/-! ### Properties that a collection keeps -/

/-- Whatever a collection does to its viewport by itself, beside taking over a length, keeps the
property. -/
structure UpheldAside [ResizableModel M S] [CrossPlacement M S] (holds : Viewport M S → Prop) :
    Prop where
  scrollTo : ∀ {viewport : Viewport M S} (offset : S), holds viewport →
    holds (viewport.scrollTo offset).1
  clamp : ∀ {viewport : Viewport M S}, holds viewport → holds viewport.clamp.1
  resize : ∀ {viewport : Viewport M S} (extent : S), holds viewport →
    holds (viewport.resize extent).1
  window : ∀ {viewport : Viewport M S}, holds viewport → holds viewport.window.2
  setItemExtent : ∀ {viewport : Viewport M S} (index : Nat) (extent : S), holds viewport →
    (ResizableModel.setItemExtent index extent).Ensures viewport.model
      (fun _ model ↦ holds (viewport.withModel model)) fun model ↦ holds (viewport.withModel model)
  clearItemExtent : ∀ {viewport : Viewport M S} (index : Nat), holds viewport →
    holds (viewport.withModel (ResizableModel.clearItemExtent index viewport.model).1)
  fitCrossExtent : ∀ {viewport : Viewport M S} (crossExtent : S), holds viewport →
    holds (viewport.withModel (CrossPlacement.fitCrossExtent crossExtent viewport.model).1)

/-- Whatever a collection does to its viewport by itself keeps the property. -/
structure Upheld [ResizableModel M S] [CrossPlacement M S] (holds : Viewport M S → Prop) :
    Prop extends UpheldAside holds where
  setLen : ∀ {viewport : Viewport M S} (len : Nat), holds viewport →
    holds (viewport.withModel (ResizableModel.setLen len viewport.model))

/-- The viewport after an edit: it is pulled back if the edit says that it changed something. -/
def clampIf (edited : Bool) (viewport : Viewport M S) : Viewport M S :=
  if edited then viewport.clamp.1 else viewport

/-- Whatever a collection does to its viewport by itself keeps the property. The collection pulls
its viewport back when an edit has changed something; in between the property may fail. -/
structure Tended [ResizableModel M S] [CrossPlacement M S] (holds : Viewport M S → Prop) :
    Prop where
  scrollTo : ∀ {viewport : Viewport M S} (offset : S), holds viewport →
    holds (viewport.scrollTo offset).1
  clamp : ∀ {viewport : Viewport M S}, holds viewport → holds viewport.clamp.1
  resize : ∀ {viewport : Viewport M S} (extent : S), holds viewport →
    holds (viewport.resize extent).1
  window : ∀ {viewport : Viewport M S}, holds viewport → holds viewport.window.2
  setLen : ∀ {viewport : Viewport M S} (len : Nat), holds viewport →
    holds (viewport.withModel (ResizableModel.setLen len viewport.model)).clamp.1
  setItemExtent : ∀ {viewport : Viewport M S} (index : Nat) (extent : S), holds viewport →
    (ResizableModel.setItemExtent index extent).Ensures viewport.model
      (fun applied model ↦ holds ((viewport.withModel model).clampIf applied))
      fun model ↦ holds (viewport.withModel model)
  clearItemExtent : ∀ {viewport : Viewport M S} (index : Nat), holds viewport →
    let cleared := ResizableModel.clearItemExtent index viewport.model
    holds ((viewport.withModel cleared.1).clampIf cleared.2)
  fitCrossExtent : ∀ {viewport : Viewport M S} (crossExtent : S), holds viewport →
    let fitted := CrossPlacement.fitCrossExtent crossExtent viewport.model
    holds ((viewport.withModel fitted.1).clampIf fitted.2)

/-- Whatever is done to a viewport to scroll it and to run a pass keeps the property. A length is
taken over and the viewport pulled back at once. -/
structure PassKeeps [ResizableModel M S] (holds : Viewport M S → Prop) : Prop where
  scrollTo : ∀ {viewport : Viewport M S} (offset : S), holds viewport →
    holds (viewport.scrollTo offset).1
  clamp : ∀ {viewport : Viewport M S}, holds viewport → holds viewport.clamp.1
  window : ∀ {viewport : Viewport M S}, holds viewport → holds viewport.window.2
  setLen : ∀ {viewport : Viewport M S} (len : Nat), holds viewport →
    holds (viewport.withModel (ResizableModel.setLen len viewport.model)).clamp.1

section Upheld

variable [ResizableModel M S] [CrossPlacement M S] {holds other : Viewport M S → Prop}

theorem UpheldAside.clampIf (h : UpheldAside holds) (edited : Bool) (hviewport : holds viewport) :
    holds (viewport.clampIf edited) := by
  cases edited with
  | false => exact hviewport
  | true => exact h.clamp hviewport

omit [ResizableModel M S] [CrossPlacement M S] in
/-- Scrolling as requested keeps what scrolling to an offset does. -/
theorem apply_keeps (hscroll : ∀ {viewport : Viewport M S} (offset : S), holds viewport →
      holds (viewport.scrollTo offset).1) {request : ScrollRequest S}
    {moved : Viewport M S × Bool} (hviewport : holds viewport)
    (hmoved : request.apply viewport = .ok moved) : holds moved.1 := by
  rcases apply_moves hmoved with hsame | ⟨target, rfl⟩
  · exact hsame ▸ hviewport
  · exact hscroll target hviewport

theorem UpheldAside.apply (h : UpheldAside holds) {request : ScrollRequest S}
    {moved : Viewport M S × Bool} (hviewport : holds viewport)
    (hmoved : request.apply viewport = .ok moved) : holds moved.1 :=
  apply_keeps h.scrollTo hviewport hmoved

/-- The second viewport is one that a collection makes of the first by itself, beside taking over a
length: it has every property of the first that these changes keep. -/
def Reaches (before after : Viewport M S) : Prop :=
  ∀ holds, UpheldAside holds → holds before → holds after

theorem Reaches.refl (viewport : Viewport M S) : viewport.Reaches viewport :=
  fun _ _ ↦ id

/-- What is reached by such changes, they keep being reached. -/
theorem upheldAside_reaches (before : Viewport M S) : UpheldAside before.Reaches where
  scrollTo offset h _ hupheld hbefore := hupheld.scrollTo offset (h _ hupheld hbefore)
  clamp h _ hupheld hbefore := hupheld.clamp (h _ hupheld hbefore)
  resize extent h _ hupheld hbefore := hupheld.resize extent (h _ hupheld hbefore)
  window h _ hupheld hbefore := hupheld.window (h _ hupheld hbefore)
  setItemExtent index extent h :=
    Step.ensures_forall fun _ ↦ Step.ensures_forall fun hupheld ↦ Step.ensures_forall
      fun hbefore ↦ hupheld.setItemExtent index extent (h _ hupheld hbefore)
  clearItemExtent index h _ hupheld hbefore := hupheld.clearItemExtent index (h _ hupheld hbefore)
  fitCrossExtent crossExtent h _ hupheld hbefore :=
    hupheld.fitCrossExtent crossExtent (h _ hupheld hbefore)

/-- What a collection keeps of each of two properties it keeps of both. -/
theorem Upheld.and (h : Upheld holds) (h' : Upheld other) :
    Upheld fun viewport ↦ holds viewport ∧ other viewport where
  scrollTo offset hv := ⟨h.scrollTo offset hv.1, h'.scrollTo offset hv.2⟩
  clamp hv := ⟨h.clamp hv.1, h'.clamp hv.2⟩
  resize extent hv := ⟨h.resize extent hv.1, h'.resize extent hv.2⟩
  window hv := ⟨h.window hv.1, h'.window hv.2⟩
  setLen len hv := ⟨h.setLen len hv.1, h'.setLen len hv.2⟩
  setItemExtent index extent hv := (h.setItemExtent index extent hv.1).and
    (h'.setItemExtent index extent hv.2)
  clearItemExtent index hv := ⟨h.clearItemExtent index hv.1, h'.clearItemExtent index hv.2⟩
  fitCrossExtent crossExtent hv :=
    ⟨h.fitCrossExtent crossExtent hv.1, h'.fitCrossExtent crossExtent hv.2⟩

/-- What a collection keeps of its viewport it keeps also where it pulls back after an edit. -/
theorem Upheld.tended (h : Upheld holds) : Tended holds where
  scrollTo := h.scrollTo
  clamp := h.clamp
  resize := h.resize
  window := h.window
  setLen len hv := h.clamp (h.setLen len hv)
  setItemExtent index extent hv :=
    (h.setItemExtent index extent hv).mono (fun applied _ ↦ h.clampIf applied) fun _ ht ↦ ht
  clearItemExtent index hv := h.clampIf _ (h.clearItemExtent index hv)
  fitCrossExtent crossExtent hv := h.clampIf _ (h.fitCrossExtent crossExtent hv)

theorem Tended.passKeeps (h : Tended holds) : PassKeeps holds where
  scrollTo := h.scrollTo
  clamp := h.clamp
  window := h.window
  setLen := h.setLen

theorem Upheld.passKeeps (h : Upheld holds) : PassKeeps holds :=
  h.tended.passKeeps

/-- What moves a viewport has it forget its window. -/
theorem upheld_fresh : Upheld (Fresh : Viewport M S → Prop) where
  scrollTo offset h := h.scrollTo offset
  clamp h := h.clamp
  resize extent h := h.resize extent
  window h := h.window
  setLen _ _ := fresh_of_kept_eq_none rfl
  setItemExtent _ _ _ := Step.ensures_of_forall (fun _ _ ↦ fresh_of_kept_eq_none rfl)
    fun _ ↦ fresh_of_kept_eq_none rfl
  clearItemExtent _ _ := fresh_of_kept_eq_none rfl
  fitCrossExtent _ _ := fresh_of_kept_eq_none rfl

end Upheld

end Viewport

section Models

variable {M S : Type} [Scalar S] [ExtentModel M S] [ResizableModel M S] [CrossPlacement M S]
  {holds : M → Prop}

/-- What a collection keeps of its model it keeps of a viewport that shows it. -/
theorem ExtentModel.UpheldAside.viewport (h : ExtentModel.UpheldAside holds) :
    Viewport.UpheldAside fun viewport : Viewport M S ↦ holds viewport.model where
  scrollTo {viewport} offset hmodel := (Viewport.scrollTo_steady offset viewport).model_eq ▸ hmodel
  clamp {viewport} hmodel := (Viewport.clamp_steady viewport).model_eq ▸ hmodel
  resize {viewport} extent hmodel := (Viewport.resize_steady extent viewport).model_eq ▸ hmodel
  window {viewport} hmodel := by
    rw [Viewport.window]
    split
    · exact hmodel
    · exact h.settleAll hmodel
  setItemExtent index extent hmodel := h.setItemExtent index extent hmodel
  clearItemExtent index hmodel := h.clearItemExtent index hmodel
  fitCrossExtent crossExtent hmodel := h.fitCrossExtent crossExtent hmodel

theorem ExtentModel.Upheld.viewport (h : ExtentModel.Upheld holds) :
    Viewport.Upheld fun viewport : Viewport M S ↦ holds viewport.model where
  toUpheldAside := h.toUpheldAside.viewport
  setLen len hmodel := h.setLen len hmodel

end Models

/-! ### Models that know the extents of their items -/

section Answers

variable {M S : Type} [Scalar S] [ExtentModel M S] {viewport : Viewport M S}
  (h : ∀ index < ExtentModel.len viewport.model, ∃ extent,
    ExtentModel.extentOf viewport.model index = .ok extent)

include h

theorem Viewport.spanOf?_answers (index : Nat) : ∃ span, viewport.spanOf? index = .ok span := by
  rw [spanOf?]
  split
  · next hindex =>
    obtain ⟨extent, hextent⟩ := h index hindex
    exact ⟨_, by rw [hextent]; rfl⟩
  · exact ⟨_, rfl⟩

theorem Viewport.isFullyVisible_answers (index : Nat) :
    ∃ visible, viewport.isFullyVisible index = .ok visible := by
  obtain ⟨span, hspan⟩ := spanOf?_answers h index
  rw [isFullyVisible, hspan]
  cases span with
  | none => exact ⟨_, rfl⟩
  | some span => exact ⟨_, rfl⟩

/-- Over a model that knows the extents of its items, a viewport scrolls as requested. -/
theorem ScrollRequest.apply_answers (request : ScrollRequest S) :
    ∃ moved, request.apply viewport = .ok moved := by
  cases request with
  | item index align =>
    rw [apply, Viewport.bring]
    split
    · exact ⟨_, rfl⟩
    · obtain ⟨span, hspan⟩ :=
        Viewport.spanOf?_answers h (Nat.min index (ExtentModel.len viewport.model - 1))
      rw [hspan]
      cases span with
      | none => exact ⟨_, rfl⟩
      | some span => exact ⟨_, rfl⟩
  | _ => exact ⟨_, rfl⟩

end Answers

end Windowing
