import Windowing.Extent.Call
import Windowing.Proofs.Ensures
import Windowing.Proofs.Extent.Starts

/-!
# Strips without kept starts

What determines a strip is the number of its items, the shared extent, the gap and the extents of
single items. Its measures hold nothing else: every query works its answer out afresh from them.
While some item has an extent of its own, the start of an item is summed up from the left, and an
item is found by its offset in an array of all starts that is built for this one query.

## Main definitions

* `Measures` — what determines a strip.
* `Measures.offsetOf`, `Measures.indexAtOffset` — the queries.
* `Measures.perform` — the calls on a strip, made on its measures.
-/

namespace Windowing

/-- What determines a strip. -/
structure Measures (S : Type) where
  /-- The number of items. -/
  len : Nat
  /-- The extent of every item that has none of its own. -/
  uniform : S
  /-- The gap between neighbours. -/
  spacing : S
  /-- The items that have an extent of their own. -/
  overrides : Std.TreeMap Nat S

namespace Measures

variable {S : Type} [Scalar S]

/-! ### Queries -/

/-- Whether every item has the shared extent. -/
def isUniform (measures : Measures S) : Bool :=
  measures.overrides.isEmpty

/-- The distance between the starts of two neighbours that have the shared extent. -/
def stride (measures : Measures S) : S :=
  measures.uniform + measures.spacing

/-- The extent that an item has of its own, if any. -/
def overrideOf (measures : Measures S) (index : Nat) : Option S :=
  measures.overrides[index]?

/-- The extent of an item. -/
def extentOf (measures : Measures S) (index : Nat) : S :=
  (measures.overrideOf index).getD measures.uniform

/-- The start of an item as the sum of what lies before it, from the left. -/
def summedStart (measures : Measures S) : Nat → S
  | 0 => Scalar.zero
  | index + 1 => measures.summedStart index + measures.extentOf index + measures.spacing

/-- Where the item at a valid `index` starts. -/
def startOf (measures : Measures S) (index : Nat) : S :=
  if measures.isUniform then
    if index = 0 then Scalar.zero else Scalar.ofNat index * measures.stride
  else measures.summedStart index

/-- Where an item starts; past the end, where the last item ends. -/
def offsetOf (measures : Measures S) (index : Nat) : S :=
  if measures.len = 0 then Scalar.zero
  else if index < measures.len then measures.startOf index
  else measures.startOf (measures.len - 1) + measures.extentOf (measures.len - 1)

/-- The extent of all items and the gaps between them. -/
def totalExtent (measures : Measures S) : S :=
  measures.offsetOf measures.len

/-- The starts of all items. -/
def allStarts (measures : Measures S) : Array S :=
  (Array.range measures.len).map measures.summedStart

/-- The last item that starts at or before `offset`. -/
def indexAtOffset (measures : Measures S) (offset : S) : Nat :=
  if measures.len = 0 then 0
  else
    let target := Scalar.nonNegative offset
    if measures.isUniform then
      if Scalar.le measures.stride Scalar.zero then 0
      else Nat.min (Scalar.floorToInt (target / measures.stride)).toNat (measures.len - 1)
    else
      partitionPoint (Scalar.le · target) measures.allStarts - 1

instance : ExtentModel (Measures S) S where
  len measures := measures.len
  totalExtent := totalExtent
  extentOf measures index := .ok (measures.extentOf index)
  offsetOf := offsetOf
  indexAtOffset := indexAtOffset

/-! ### Edits -/

/-- Changes the shared extent. -/
def setUniform (extent : S) : Step (Measures S) Unit := do
  let extent ← Step.ofExcept (checkedExtent extent)
  modify fun measures ↦
    if Scalar.eq extent measures.uniform then measures else { measures with uniform := extent }

/-- Changes the gap between neighbours. -/
def setSpacing (spacing : S) : Step (Measures S) Unit := do
  let spacing ← Step.ofExcept (checkedExtent spacing)
  modify fun measures ↦
    if Scalar.eq spacing measures.spacing then measures else { measures with spacing }

/-- Changes the number of items. Items past the new end lose their own extents. -/
def setLen (len : Nat) (measures : Measures S) : Measures S :=
  { measures with
    len
    overrides :=
      if len < measures.len then measures.overrides.filter fun index _ ↦ index < len
      else measures.overrides }

/-- Gives an item an extent of its own; answers whether the item exists. -/
def setOverride (index : Nat) (extent : S) : Step (Measures S) Bool := do
  if (← get).len ≤ index then
    return false
  let extent ← Step.ofExcept (checkedExtent extent)
  modify fun measures ↦ { measures with overrides := measures.overrides.insert index extent }
  return true

/-- Takes an item's own extent away; answers whether it had one. -/
def clearOverride (index : Nat) (measures : Measures S) : Measures S × Bool :=
  if measures.overrides.contains index then
    ({ measures with overrides := measures.overrides.erase index }, true)
  else
    (measures, false)

/-- Takes every item's own extent away. -/
def clearOverrides (measures : Measures S) : Measures S :=
  { measures with overrides := ∅ }

instance : ResizableModel (Measures S) S where
  setLen := setLen
  setItemExtent := setOverride
  clearItemExtent := clearOverride

instance : CrossPlacement (Measures S) S where
  fitCrossExtent _ measures := (measures, false)
  crossSpan _ _ crossExtent := (Scalar.zero, crossExtent)

/-! ### Calls -/

/-- Makes a call on a strip on its measures. -/
def perform : Strip.Call S → Step (Measures S) (Reply S)
  | .query q => q.perform
  | .edit e => e.perform
  | .uniform => return .scalar (← get).uniform
  | .spacing => return .scalar (← get).spacing
  | .overrideCount => return .count (← get).overrides.size
  | .isUniform => return .flag (← get).isUniform
  | .overrideOf index => return .scalar? ((← get).overrideOf index)
  | .indexAtOffset? offset => do
    let measures ← get
    return .count? (if measures.len = 0 then none else some (measures.indexAtOffset offset))
  | .setUniform extent => do
    setUniform extent
    return .done
  | .setSpacing gap => do
    setSpacing gap
    return .done
  | .clearOverrides => do
    modify clearOverrides
    return .done

/-! ### What a call changes -/

/-- The change that a call makes where it makes one. -/
inductive Edited : Strip.Call S → Measures S → Measures S → Prop
  | setLen (len : Nat) (measures : Measures S) :
      Edited (.edit (.setLen len)) measures (measures.setLen len)
  | setOverride {index : Nat} {extent checked : S} {measures : Measures S}
      (hindex : index < measures.len) (hchecked : checkedExtent extent = .ok checked) :
      Edited (.edit (.setItemExtent index extent)) measures
        { measures with overrides := measures.overrides.insert index checked }
  | clearOverride (index : Nat) (measures : Measures S) :
      Edited (.edit (.clearItemExtent index)) measures
        { measures with overrides := measures.overrides.erase index }
  | setUniform {extent checked : S} {measures : Measures S}
      (hchecked : checkedExtent extent = .ok checked) :
      Edited (.setUniform extent) measures { measures with uniform := checked }
  | setSpacing {spacing checked : S} {measures : Measures S}
      (hchecked : checkedExtent spacing = .ok checked) :
      Edited (.setSpacing spacing) measures { measures with spacing := checked }
  | clearOverrides (measures : Measures S) :
      Edited .clearOverrides measures measures.clearOverrides

/-- A call changes the measures as it says, or not at all; a call that faults or answers no does
not. -/
theorem ensures_edited (call : Strip.Call S) (measures : Measures S) :
    (perform call).Ensures measures
      (fun reply after ↦ after = measures ∨ reply ≠ .flag false ∧ Edited call measures after)
      (· = measures) := by
  cases call with
  | query query => cases query <;> exact .inl rfl
  | edit edit =>
    cases edit with
    | setLen len => exact .inr ⟨by simp, .setLen len measures⟩
    | setItemExtent index extent =>
      simp only [perform, ResizableModel.Edit.perform, ResizableModel.setItemExtent, setOverride,
        Step.ensures_bind, Step.ensures_get, Step.ensures_ite, Step.ensures_ofExcept,
        Step.ensures_pure, Step.ensures_modify]
      split
      · exact .inl trivial
      · next hindex =>
        cases hchecked : checkedExtent extent with
        | error fault => exact trivial
        | ok checked => exact .inr ⟨by simp, .setOverride (Nat.lt_of_not_le hindex) hchecked⟩
    | clearItemExtent index =>
      have hcleared : (measures.clearOverride index).1 = measures ∨
          (measures.clearOverride index).2 = true ∧ Edited (.edit (.clearItemExtent index)) measures
            (measures.clearOverride index).1 := by
        rw [Measures.clearOverride]
        split
        · exact .inr ⟨rfl, .clearOverride index measures⟩
        · exact .inl rfl
      refine hcleared.imp id fun hedited ↦ ⟨fun hrefused ↦ ?_, hedited.2⟩
      exact Bool.false_ne_true ((Reply.flag.inj hrefused).symm.trans hedited.1)
    | fitCrossExtent crossExtent => exact .inl rfl
    | crossSpan index crossExtent => exact .inl rfl
  | setUniform extent =>
    simp only [perform, setUniform, Step.ensures_bind, Step.ensures_ofExcept, Step.ensures_modify,
      Step.ensures_pure]
    cases hchecked : checkedExtent extent with
    | error fault => exact trivial
    | ok checked =>
      dsimp only
      split
      · exact .inl rfl
      · exact .inr ⟨by simp, .setUniform hchecked⟩
  | setSpacing spacing =>
    simp only [perform, setSpacing, Step.ensures_bind, Step.ensures_ofExcept, Step.ensures_modify,
      Step.ensures_pure]
    cases hchecked : checkedExtent spacing with
    | error fault => exact trivial
    | ok checked =>
      dsimp only
      split
      · exact .inl rfl
      · exact .inr ⟨by simp, .setSpacing hchecked⟩
  | clearOverrides => exact .inr ⟨by simp, .clearOverrides measures⟩
  | _ => exact .inl rfl

theorem after_eq_or_edited (call : Strip.Call S) (measures : Measures S) :
    (perform call).after measures = measures ∨
      Edited call measures ((perform call).after measures) := by
  have hedited : (perform call).Ensures measures
      (fun _ after ↦ after = measures ∨ Edited call measures after)
      fun after ↦ after = measures ∨ Edited call measures after :=
    (ensures_edited call measures).mono (fun _ _ h ↦ h.imp_right And.right) fun _ h ↦ .inl h
  exact Step.ensures_iff_after.mp hedited

variable {call : Strip.Call S} {measures after : Measures S} {index : Nat}

/-- Only the call for the number of items changes it. -/
theorem Edited.len_eq (h : Edited call measures after) (hcall : ∀ len, call ≠ .edit (.setLen len)) :
    after.len = measures.len := by
  cases h with
  | setLen len => exact absurd rfl (hcall len)
  | _ => rfl

/-- Only the call that gives an item an extent of its own makes it have one. -/
theorem Edited.overrideOf_eq_none (h : Edited call measures after)
    (hnone : measures.overrideOf index = none)
    (hcall : ∀ extent, call ≠ .edit (.setItemExtent index extent)) :
    after.overrideOf index = none := by
  cases h with
  | setLen len =>
    simp only [overrideOf, Measures.setLen] at hnone ⊢
    split
    · simp [Std.TreeMap.getElem?_filter, hnone]
    · exact hnone
  | @setOverride other extent checked =>
    have hne : other ≠ index := fun heq ↦ hcall extent (heq ▸ rfl)
    simpa [overrideOf, Std.TreeMap.getElem?_insert, hne] using hnone
  | clearOverride other =>
    simpa [overrideOf, Std.TreeMap.getElem?_erase] using fun _ ↦ hnone
  | clearOverrides => exact Std.TreeMap.getElem?_emptyc
  | setUniform | setSpacing => exact hnone

end Measures

namespace Strip

variable {S : Type} (strip : Strip S)

/-- What determines the strip, without the starts that it keeps. -/
def measures : Measures S where
  len := strip.len
  uniform := strip.uniform
  spacing := strip.spacing
  overrides := strip.overrides

@[simp]
theorem len_measures : strip.measures.len = strip.len := rfl

@[simp]
theorem isUniform_measures : strip.measures.isUniform = strip.isUniform := rfl

@[simp]
theorem overrideOf_measures (index : Nat) :
    strip.measures.overrideOf index = strip.overrideOf index := rfl

@[simp]
theorem extentOf_measures (index : Nat) : strip.measures.extentOf index = strip.extentOf index :=
  rfl

@[simp]
theorem stride_measures [Scalar S] : strip.measures.stride = strip.stride := rfl

/-- The starts that a strip keeps do not belong to its measures. -/
@[simp]
theorem measures_withStarts (starts : Starts S) :
    { strip with starts }.measures = strip.measures := rfl

end Strip

end Windowing
