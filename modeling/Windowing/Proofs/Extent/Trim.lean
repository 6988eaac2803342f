import Windowing.Proofs.Extent.Upheld
import Windowing.Proofs.WindowBounds

/-!
# Models without leftovers

An item past the end has no extent of its own, and a grid has no tracks past those of its items.
Taking over a length leaves a model trim in this sense, and no other edit changes its length or
leaves anything behind, but for those by which the host itself sets a length.

## Main definitions

* `ExtentModel.SameCount` — an edit of a model that changes no length.
* `ExtentModel.Trims` — taking over a length leaves a model trim.

## Main results

* `Strip.trims_sound`, `Grid.trims_fitting` — strips and grids are left trim.
-/

namespace Windowing

/-! ### Edits that change no length -/

namespace ExtentModel

variable {M S : Type} [ExtentModel M S] {sound trim : M → Prop} {a b c : M}

/-- The model is still sound and has as many items as before, and it is trim if it was. -/
structure SameCount (sound trim : M → Prop) (before after : M) : Prop where
  sound : sound after
  len_eq : len after = len before
  trim : trim before → trim after

theorem SameCount.refl (h : sound a) : SameCount sound trim a a :=
  ⟨h, rfl, id⟩

theorem SameCount.trans (hab : SameCount sound trim a b) (hbc : SameCount sound trim b c) :
    SameCount sound trim a c where
  sound := hbc.sound
  len_eq := hbc.len_eq.trans hab.len_eq
  trim h := hbc.trim (hab.trim h)

/-- Sound models stay sound and keep their length in the care of a collection, and they are trim
once a length was taken over. -/
structure Trims [ResizableModel M S] [CrossPlacement M S] (sound trim : M → Prop) : Prop
    extends Upheld sound where
  trim_setLen : ∀ {model : M} (len : Nat), sound model → trim (ResizableModel.setLen len model)
  aside : ∀ {model : M}, sound model → UpheldAside (SameCount sound trim model)

end ExtentModel

/-! ### Strips -/

namespace Strip

variable {S : Type} [Scalar S]

/-- A call on a strip changes its length only if it sets it. -/
theorem sameCount_after {start strip : Strip S} {call : Call S}
    (hcall : ∀ len, call ≠ .edit (.setLen len))
    (h : ExtentModel.SameCount Sound Sound start strip) :
    ExtentModel.SameCount Sound Sound start (call.perform.after strip) :=
  h.trans ⟨h.sound.perform call, h.sound.len_after hcall, fun h ↦ h.perform call⟩

/-- Only items of a sound strip have an extent of their own, so it is trim at any time. -/
theorem trims_sound : ExtentModel.Trims (Sound : Strip S → Prop) Sound where
  toUpheld := upheld_of_perform fun call _ h ↦ h.perform call
  trim_setLen len h := h.setLen len
  aside _ := upheldAside_of_perform fun _ _ hcall h ↦ sameCount_after hcall h

end Strip

/-! ### Grids -/

namespace Grid

variable {S : Type} [Scalar S]

/-- A call on a grid changes its length only if it sets it, and its number of tracks in another way
only if it sets this one. -/
theorem sameCount_after {start grid : Grid (Strip S) S} {call : Call S}
    (hcall : ∀ len, call ≠ .edit (.setLen len))
    (htracks : ∀ count, call ≠ .tracks (.edit (.setLen count)))
    (h : ExtentModel.SameCount (fun grid ↦ grid.tracks.Sound) (Fitting Strip.Sound) start grid) :
    ExtentModel.SameCount (fun grid ↦ grid.tracks.Sound) (Fitting Strip.Sound) start
      (call.perform.after grid) := by
  have hperform (call : Strip.Call S) {strip : Strip S} (h : strip.Sound) :
      (call.perform.after strip).Sound := h.perform call
  exact h.trans ⟨Step.ensures_iff_after.mp (perform_tracks hperform call h.sound),
    len_after grid hcall, fun hfitting ↦ hfitting.perform id hperform htracks⟩

/-- A grid whose tracks are sound is trim while it has as many tracks as its items need. -/
theorem trims_fitting : ExtentModel.Trims (fun grid : Grid (Strip S) S ↦ grid.tracks.Sound)
    (Fitting Strip.Sound) where
  toUpheld := upheld_tracks fun call _ h ↦ h.perform call
  trim_setLen _ h := fitting_resizeTracks (fun call _ h ↦ h.perform call) _ h
  aside _ := upheldAside_of_perform fun _ _ hcall htracks h ↦ sameCount_after hcall htracks h

end Grid

end Windowing
