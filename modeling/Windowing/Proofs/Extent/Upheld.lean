import Windowing.Proofs.Extent.Built

/-!
# Models in the care of a collection

A collection edits its model in five ways of its own: it takes over a length, it changes the extent
of one item, it takes that away again, it adapts the model to the space across the scroll axis, and
it has the model store what it worked out. A property that all of these keep is one that holds of
the model at any time, unless the host breaks it.

Taking over the length that the model has already moves no item.

## Main definitions

* `ExtentModel.UpheldAside` — a property of models that a collection keeps beside taking over
  lengths.
* `ExtentModel.Upheld` — a property of models that a collection keeps.
* `ExtentModel.Alike` — two models with the same items in the same places.

## Main results

* `Strip.upheld_of_perform` — what every call on a strip keeps, a collection does.
* `Strip.upheld_reached`, `Grid.upheld_reached` — all that a collection does, such calls do.
* `Grid.upheld_tracks` — and a collection keeps it of the tracks of a grid.
* `Strip.upheld_laid`, `Grid.upheld_laid` — a collection keeps its model laid out.
* `Strip.Laid.alike_setLen`, `Grid.Laid.alike_setLen` — the same length again changes no place.
-/

namespace Windowing

namespace ExtentModel

/-- Whatever a collection does to its model by itself, beside taking over a length, keeps the
property. -/
structure UpheldAside {M S : Type} [ExtentModel M S] [ResizableModel M S] [CrossPlacement M S]
    (holds : M → Prop) : Prop where
  setItemExtent : ∀ {model : M} (index : Nat) (extent : S), holds model →
    (ResizableModel.setItemExtent index extent).Ensures model (fun _ ↦ holds) holds
  clearItemExtent : ∀ {model : M} (index : Nat), holds model →
    holds (ResizableModel.clearItemExtent index model).1
  fitCrossExtent : ∀ {model : M} (crossExtent : S), holds model →
    holds (CrossPlacement.fitCrossExtent crossExtent model).1
  settleAll : ∀ {model : M}, holds model → holds (ExtentModel.settleAll model)

/-- Whatever a collection does to its model by itself keeps the property. -/
structure Upheld {M S : Type} [ExtentModel M S] [ResizableModel M S] [CrossPlacement M S]
    (holds : M → Prop) : Prop extends UpheldAside holds where
  setLen : ∀ {model : M} (len : Nat), holds model → holds (ResizableModel.setLen len model)

/-- The two models have the same items in the same places. -/
structure Alike {M S : Type} [ExtentModel M S] (a b : M) : Prop where
  len_eq : len b = len a
  totalExtent_eq : totalExtent b = totalExtent a
  offsetOf_eq : ∀ index, offsetOf b index = offsetOf a index
  extentOf_eq : ∀ index, extentOf b index = extentOf a index

theorem Alike.refl {M S : Type} [ExtentModel M S] (model : M) : Alike model model :=
  ⟨rfl, rfl, fun _ ↦ rfl, fun _ ↦ rfl⟩

theorem Alike.trans {M S : Type} [ExtentModel M S] {a b c : M} (hab : Alike a b)
    (hbc : Alike b c) : Alike a c where
  len_eq := hbc.len_eq.trans hab.len_eq
  totalExtent_eq := hbc.totalExtent_eq.trans hab.totalExtent_eq
  offsetOf_eq index := (hbc.offsetOf_eq index).trans (hab.offsetOf_eq index)
  extentOf_eq index := (hbc.extentOf_eq index).trans (hab.extentOf_eq index)

end ExtentModel

/-! ### Strips -/

namespace Strip

section Perform

variable {S : Type} [Scalar S] {holds : Strip S → Prop}

/-- What every call on a strip but that for its length keeps, a collection keeps aside. -/
theorem upheldAside_of_perform
    (hperform : ∀ (call : Call S) {strip}, (∀ len, call ≠ .edit (.setLen len)) → holds strip →
      holds (call.perform.after strip)) : ExtentModel.UpheldAside holds where
  setItemExtent index extent h := by
    have hafter := hperform (.edit (.setItemExtent index extent)) nofun h
    have hensures := Step.ensures_iff_after.mpr hafter
    simp only [Call.perform, ResizableModel.Edit.perform, Step.ensures_bind] at hensures
    exact hensures
  clearItemExtent index h := hperform (.edit (.clearItemExtent index)) nofun h
  fitCrossExtent _ h := h
  settleAll h := hperform (.query (.indexAtOffset Scalar.zero)) nofun h

/-- What every call on a strip keeps, a collection keeps too. -/
theorem upheld_of_perform
    (hperform : ∀ (call : Call S) {strip}, holds strip → holds (call.perform.after strip)) :
    ExtentModel.Upheld holds where
  toUpheldAside := upheldAside_of_perform fun call _ _ h ↦ hperform call h
  setLen len h := hperform (.edit (.setLen len)) h

end Perform

/-- Whatever a collection does to a strip, calls on the strip do. -/
theorem upheld_reached {S : Type} [Scalar S] (start : Strip S → Prop) :
    ExtentModel.Upheld (Step.Reached Call.perform (fun _ ↦ True) start) :=
  upheld_of_perform fun _ _ h ↦ h.call trivial

theorem upheld_laid : ExtentModel.Upheld (Laid : Strip Rat → Prop) :=
  upheld_of_perform fun call _ h ↦ h.perform call

/-- Sound strips of the same measures have their items in the same places. -/
theorem Sound.alike {S : Type} [Scalar S] {strip other : Strip S} (h : strip.Sound)
    (hother : other.Sound) (hmeasures : other.measures = strip.measures) :
    ExtentModel.Alike strip other where
  len_eq := congrArg Measures.len hmeasures
  totalExtent_eq := by
    have htotal : other.totalExtent = strip.totalExtent := by
      rw [hother.totalExtent_eq, h.totalExtent_eq, hmeasures]
    exact htotal
  offsetOf_eq index := by
    have hoffset : other.offsetOf index = strip.offsetOf index := by
      rw [hother.offsetOf_eq, h.offsetOf_eq, hmeasures]
    exact hoffset
  extentOf_eq index :=
    congrArg (fun measures ↦ Except.ok (Measures.extentOf measures index)) hmeasures

theorem Laid.alike_setLen {strip : Strip Rat} (h : strip.Laid) :
    ExtentModel.Alike strip (strip.setLen strip.len) := by
  refine h.sound.alike (h.sound.setLen strip.len) ?_
  simp [Strip.setLen, Strip.measures, fitStarts]

theorem Laid.alike_settleAll {strip : Strip Rat} (h : strip.Laid) :
    ExtentModel.Alike strip (ExtentModel.settleAll strip) :=
  h.sound.alike h.sound.settleAll (measures_settleAll strip)

end Strip

/-! ### Grids -/

namespace Grid

/-- What every call on a grid but those for its length and its number of tracks keeps, a collection
keeps aside. -/
theorem upheldAside_of_perform {S : Type} [Scalar S] {holds : Grid (Strip S) S → Prop}
    (hperform : ∀ (call : Call S) {grid}, (∀ len, call ≠ .edit (.setLen len)) →
      (∀ count, call ≠ .tracks (.edit (.setLen count))) → holds grid →
      holds (call.perform.after grid)) : ExtentModel.UpheldAside holds where
  setItemExtent index extent h := by
    have hafter := hperform (.edit (.setItemExtent index extent)) nofun nofun h
    have hensures := Step.ensures_iff_after.mpr hafter
    simp only [Call.perform, ResizableModel.Edit.perform, Step.ensures_bind] at hensures
    exact hensures
  clearItemExtent index h := hperform (.edit (.clearItemExtent index)) nofun nofun h
  fitCrossExtent crossExtent h := hperform (.edit (.fitCrossExtent crossExtent)) nofun nofun h
  settleAll h := hperform (.query (.indexAtOffset Scalar.zero)) nofun nofun h

/-- Whatever a collection does to a grid, calls on the grid do, and none of them is to change the
number of tracks behind it. -/
theorem upheld_reached {S : Type} [Scalar S] (start : Grid (Strip S) S → Prop) :
    ExtentModel.Upheld
      (Step.Reached Call.perform (fun call ↦ ∀ count, call ≠ .tracks (.edit (.setLen count)))
        start) where
  toUpheldAside := upheldAside_of_perform fun _ _ _ hcall h ↦ h.call hcall
  setLen {grid} len h := by
    have hafter : Step.Reached Call.perform
        (fun call : Call S ↦ ∀ count, call ≠ .tracks (.edit (.setLen count))) start
        ((Call.edit (.setLen len)).perform.after grid) := h.call nofun
    exact hafter

theorem upheld_laid : ExtentModel.Upheld (Laid : Grid (Strip Rat) Rat → Prop) where
  toUpheldAside := upheldAside_of_perform fun _ _ _ hcall h ↦ h.perform hcall
  setLen {grid} len h := by
    have hafter : ((Call.edit (.setLen len)).perform.after grid).Laid := h.perform nofun
    exact hafter

/-- Only the call for the number of items changes it. -/
theorem len_after {S : Type} [Scalar S] (grid : Grid (Strip S) S) {call : Call S}
    (hcall : ∀ len, call ≠ .edit (.setLen len)) : (call.perform.after grid).len = grid.len := by
  refine Step.ensures_iff_after.mp (?_ : call.perform.Ensures grid
    (fun _ t ↦ t.len = grid.len) fun t ↦ t.len = grid.len)
  cases call with
  | query query =>
    cases query with
    | extentOf index =>
      simp only [Call.perform, ExtentModel.Query.perform, Step.ensures_bind, Step.ensures_get,
        Step.ensures_ofExcept]
      split <;> trivial
    | _ => rfl
  | edit edit =>
    cases edit with
    | setLen len => exact absurd rfl (hcall len)
    | setItemExtent index extent =>
      simp only [Call.perform, ResizableModel.Edit.perform, Step.ensures_bind]
      change (Grid.setItemExtent index extent).Ensures _ _ _
      simp only [Grid.setItemExtent, Step.ensures_bind, Step.ensures_get, Step.ensures_ite,
        Step.ensures_within, Step.ensures_pure]
      split
      · exact Step.ensures_of_forall (fun _ _ ↦ trivial) fun _ ↦ trivial
      · trivial
    | clearItemExtent index =>
      change (grid.clearItemExtent index).1.len = grid.len
      rw [Grid.clearItemExtent]
      split <;> rfl
    | fitCrossExtent crossExtent =>
      change (grid.setLanes _ _).1.len = grid.len
      rw [Grid.setLanes]
      split <;> rfl
    | crossSpan index crossExtent => rfl
  | setLanes lanes lanes_pos =>
    change (grid.setLanes lanes lanes_pos).1.len = grid.len
    rw [Grid.setLanes]
    split <;> rfl
  | tracks call =>
    simp only [Call.perform, Step.ensures_within]
    exact Step.ensures_of_forall (fun _ _ ↦ trivial) fun _ ↦ trivial
  | _ => rfl

section Tracks

variable {S : Type} [Scalar S] {holds : Strip S → Prop}
  (hperform : ∀ (call : Strip.Call S) {strip}, holds strip → holds (call.perform.after strip))

include hperform

/-- What every call on a strip keeps, a collection keeps of the tracks of a grid. -/
theorem upheld_tracks : ExtentModel.Upheld fun grid : Grid (Strip S) S ↦ holds grid.tracks where
  setLen _ h := hperform (.edit (.setLen _)) h
  setItemExtent index extent h := by
    change (Grid.setItemExtent index extent).Ensures _ _ _
    simp only [Grid.setItemExtent, Step.ensures_bind, Step.ensures_get, Step.ensures_ite,
      Step.ensures_within, Step.ensures_pure]
    split
    · exact (Strip.upheld_of_perform hperform).setItemExtent _ extent h
    · exact h
  clearItemExtent {grid} index h := by
    change holds (grid.clearItemExtent index).1.tracks
    rw [Grid.clearItemExtent]
    split
    · exact hperform (.edit (.clearItemExtent _)) h
    · exact h
  fitCrossExtent {grid} crossExtent h := by
    change holds (grid.setLanes _ _).1.tracks
    rw [Grid.setLanes]
    split
    · exact h
    · exact hperform (.edit (.setLen _)) h
  settleAll h := hperform (.query (.indexAtOffset Scalar.zero)) h

/-- So does every call on the grid. -/
theorem perform_tracks (call : Call S) {grid : Grid (Strip S) S} (h : holds grid.tracks) :
    call.perform.Ensures grid (fun _ t ↦ holds t.tracks) fun t ↦ holds t.tracks := by
  have hupheld := upheld_tracks hperform
  cases call with
  | query query =>
    cases query with
    | totalExtent => exact hperform (.query (.offsetOf _)) h
    | offsetOf index => exact hperform (.query (.offsetOf _)) h
    | indexAtOffset offset => exact hperform (.query (.indexAtOffset offset)) h
    | extentOf index =>
      simp only [Call.perform, ExtentModel.Query.perform, Step.ensures_bind, Step.ensures_get,
        Step.ensures_ofExcept]
      split <;> exact h
    | _ => exact h
  | edit edit =>
    cases edit with
    | setLen len => exact hupheld.setLen len h
    | setItemExtent index extent =>
      simp only [Call.perform, ResizableModel.Edit.perform, Step.ensures_bind]
      exact hupheld.setItemExtent index extent h
    | clearItemExtent index => exact hupheld.clearItemExtent index h
    | fitCrossExtent crossExtent => exact hupheld.fitCrossExtent crossExtent h
    | crossSpan index crossExtent => exact h
  | setLanes lanes lanes_pos =>
    change holds (grid.setLanes lanes lanes_pos).1.tracks
    rw [Grid.setLanes]
    split
    · exact h
    · exact hperform (.edit (.setLen _)) h
  | tracks call =>
    simp only [Call.perform, Step.ensures_within]
    exact Step.ensures_iff_after.mpr (hperform call h)
  | _ => exact h

end Tracks

/-- Grids that differ in tracks alike have their items in the same places. -/
theorem alike_withTracks {M S : Type} [Scalar S] [ExtentModel M S] {grid : Grid M S} {tracks : M}
    (h : ExtentModel.Alike grid.tracks tracks) :
    ExtentModel.Alike grid { grid with tracks } where
  len_eq := rfl
  totalExtent_eq := h.totalExtent_eq
  offsetOf_eq index := by
    change offsetOf { grid with tracks } index = grid.offsetOf index
    simp only [offsetOf, h.offsetOf_eq]
    rfl
  extentOf_eq index := by
    change extentOf { grid with tracks } index = grid.extentOf index
    simp only [extentOf, h.len_eq, h.extentOf_eq]
    rfl

theorem Laid.alike_setLen {grid : Grid (Strip Rat) Rat} (h : grid.Laid) :
    ExtentModel.Alike grid (grid.setLen grid.len) := by
  have htracks := h.tracks.alike_setLen
  rw [h.len_eq] at htracks
  exact alike_withTracks htracks

end Grid

end Windowing
