import Windowing.Proofs.Extent.Checks
import Windowing.Proofs.Extent.Upheld

/-!
# Models that are never at a loss

A call on a model can fail in two ways only: it hands over an extent or a gap that is no finite
number, or a grid is asked for the extent of an item whose track is missing. Neither happens to a
strip, or to a grid with a track for every item, while the numbers are finite.

## Main definitions

* `Strip.Call.extents`, `Grid.Call.extents` — the extents and gaps that a call hands over.
* `ExtentModel.Measured` — a property that a collection keeps of its model, and under which no call
  of the collection on its model fails.

## Main results

* `Strip.measured_sound`, `Grid.measured_fitting` — two such properties.
* `Strip.Sound.ensures_perform`, `Grid.Fitting.ensures_perform` — calls of the host on the model do
  not fail either, while the numbers are finite.
-/

namespace Windowing

/-! ### What calls hand over -/

/-- The extents that an edit hands over. -/
def ResizableModel.Edit.extents {S : Type} : Edit S → List S
  | setItemExtent _ extent => [extent]
  | _ => []

/-- The extents and gaps that a call on a strip hands over. -/
def Strip.Call.extents {S : Type} : Call S → List S
  | edit e => e.extents
  | setUniform extent => [extent]
  | setSpacing gap => [gap]
  | _ => []

/-- The extents and gaps that a call on a grid hands over. -/
def Grid.Call.extents {S : Type} : Call S → List S
  | edit e => e.extents
  | tracks call => call.extents
  | _ => []

theorem checkedExtent_of_isFinite {S : Type} [Scalar S] {extent : S}
    (h : Scalar.isFinite extent = true) :
    checkedExtent extent = .ok (Scalar.nonNegative extent) := by
  rw [checkedExtent, Option.isNone_iff_eq_none.mp h]

/-! ### Models -/

section Models

variable {M S : Type} [Scalar S] [ExtentModel M S] [ResizableModel M S] [CrossPlacement M S]

/-- A collection keeps the property of its model. A model that has it knows the extent of every
item, and is given another one of a finite extent without fail. -/
structure ExtentModel.Measured (holds : M → Prop) : Prop extends Upheld holds where
  extentOf_ok : ∀ {model : M}, holds model → ∀ index, ∃ extent,
    ExtentModel.extentOf model index = .ok extent
  setItemExtent_answers : ∀ {model : M} (index : Nat) {extent : S},
    Scalar.isFinite extent = true → holds model →
    (ResizableModel.setItemExtent index extent).Ensures model (fun _ _ ↦ True) fun _ ↦ False

/-- A stronger property that a collection keeps is good for the same. -/
theorem ExtentModel.Measured.of_imp {holds stronger : M → Prop} (h : ExtentModel.Measured holds)
    (hupheld : ExtentModel.Upheld stronger) (himp : ∀ {model}, stronger model → holds model) :
    ExtentModel.Measured stronger where
  toUpheld := hupheld
  extentOf_ok hmodel := h.extentOf_ok (himp hmodel)
  setItemExtent_answers index _ hfinite hmodel :=
    h.setItemExtent_answers index hfinite (himp hmodel)

omit [Scalar S] [ResizableModel M S] [CrossPlacement M S] in
/-- A model that knows the extent of every item answers every query. -/
theorem ExtentModel.Query.perform_answers {model : M}
    (h : ∀ index, ∃ extent, ExtentModel.extentOf model index = .ok extent) (query : Query S) :
    query.perform.Ensures model (fun _ _ ↦ True) fun _ ↦ False := by
  cases query with
  | extentOf index =>
    obtain ⟨extent, hextent⟩ := h index
    simp [Query.perform, hextent]
  | _ => trivial

/-- In the care of a collection, an edit fails only over an extent that is not finite. -/
theorem ResizableModel.Edit.perform_answers {holds : M → Prop} (h : ExtentModel.Measured holds)
    {model : M} (hmodel : holds model) {edit : Edit S}
    (hfinite : ∀ extent ∈ edit.extents, Scalar.isFinite extent = true) :
    edit.perform.Ensures model (fun _ _ ↦ True) fun _ ↦ False := by
  cases edit with
  | setItemExtent index extent =>
    simp only [Edit.perform, Step.ensures_bind]
    exact (h.setItemExtent_answers index (hfinite extent (.head _)) hmodel).mono
      (fun _ _ _ ↦ trivial) fun _ ↦ id
  | _ => trivial

end Models

/-! ### Strips -/

namespace Strip

variable {S : Type} [Scalar S] {strip : Strip S}

/-- An item is given a finite extent of its own without fail. -/
theorem setOverride_answers (strip : Strip S) (index : Nat) {extent : S}
    (hfinite : Scalar.isFinite extent = true) :
    (setOverride index extent).Ensures strip (fun _ _ ↦ True) fun _ ↦ False := by
  simp only [setOverride, checkedExtent_of_isFinite hfinite, Step.ensures_bind, Step.ensures_get,
    Step.ensures_ite, Step.ensures_set, Step.ensures_ofExcept, Step.ensures_modify,
    Step.ensures_pure]
  split <;> trivial

theorem measured_sound : ExtentModel.Measured (Sound : Strip S → Prop) where
  toUpheld := upheld_of_perform fun call _ h ↦ h.perform call
  extentOf_ok _ _ := ⟨_, rfl⟩
  setItemExtent_answers {strip} index _ hfinite _ := strip.setOverride_answers index hfinite

/-- A call with finite numbers does not fail, and leaves a sound strip sound. -/
theorem Sound.ensures_perform (h : strip.Sound) {call : Call S}
    (hfinite : ∀ extent ∈ call.extents, Scalar.isFinite extent = true) :
    call.perform.Ensures strip (fun _ ↦ Sound) fun _ ↦ False := by
  have hanswers : call.perform.Ensures strip (fun _ _ ↦ True) fun _ ↦ False := by
    cases call with
    | query query => exact query.perform_answers (measured_sound.extentOf_ok h)
    | edit edit => exact ResizableModel.Edit.perform_answers measured_sound h hfinite
    | setUniform extent =>
      simp [Call.perform, Strip.setUniform, checkedExtent_of_isFinite (hfinite extent (.head _))]
    | setSpacing gap =>
      simp [Call.perform, Strip.setSpacing, checkedExtent_of_isFinite (hfinite gap (.head _))]
    | _ => trivial
  exact ((Step.ensures_iff_after.mpr (h.perform call)).and hanswers).mono (fun _ _ ht ↦ ht.1)
    fun _ ht ↦ ht.2

end Strip

/-! ### Grids -/

namespace Grid

variable {S : Type} [Scalar S] {grid : Grid (Strip S) S}

/-- A collection keeps a track for every item of its grid. -/
theorem measured_fitting :
    ExtentModel.Measured (Fitting Strip.Sound : Grid (Strip S) S → Prop) where
  toUpheldAside := upheldAside_of_perform fun _ _ _ hcall h ↦
    h.perform id (fun call _ h ↦ h.perform call) hcall
  setLen {grid} len h := fitting_resizeTracks (fun call _ h ↦ h.perform call) { grid with len }
    h.tracks
  extentOf_ok h := h.extentOf_ok
  setItemExtent_answers {grid} index {extent} hfinite h := by
    change (Grid.setItemExtent index extent).Ensures _ _ _
    simp only [Grid.setItemExtent, Step.ensures_bind, Step.ensures_get, Step.ensures_ite,
      Step.ensures_within, Step.ensures_pure]
    split
    · exact grid.tracks.setOverride_answers _ hfinite
    · trivial

/-- A call with finite numbers that does not change the number of tracks behind the grid does not
fail, and leaves a track for every item. -/
theorem Fitting.ensures_perform (h : grid.Fitting Strip.Sound) {call : Call S}
    (hcall : ∀ count, call ≠ .tracks (.edit (.setLen count)))
    (hfinite : ∀ extent ∈ call.extents, Scalar.isFinite extent = true) :
    call.perform.Ensures grid (fun _ ↦ Fitting Strip.Sound) fun _ ↦ False := by
  have hanswers : call.perform.Ensures grid (fun _ _ ↦ True) fun _ ↦ False := by
    cases call with
    | query query => exact query.perform_answers h.extentOf_ok
    | edit edit => exact ResizableModel.Edit.perform_answers measured_fitting h hfinite
    | tracks call =>
      simp only [Call.perform, Step.ensures_within]
      exact (h.tracks.ensures_perform hfinite).mono (fun _ _ _ ↦ trivial) fun _ ↦ id
    | _ => trivial
  have hkeeps := h.perform id (fun call _ h ↦ h.perform call) hcall
  exact ((Step.ensures_iff_after.mpr hkeeps).and hanswers).mono (fun _ _ ht ↦ ht.1)
    fun _ ht ↦ ht.2

/-- Whatever the numbers, a grid that its calls made has a track for every item. -/
theorem Built.fitting (h : grid.Built) : grid.Fitting Strip.Sound :=
  ⟨h.fitting_built.tracks.sound, h.fitting_built.len_eq⟩

end Grid

end Windowing
