import Windowing.Proofs.Extent.Built
import Windowing.Proofs.KeptWindow

/-!
# Own extents that equal the shared one

Giving an item the shared extent as its own moves nothing, but from then on a strip sums up the
starts of its items instead of multiplying. With exact numbers both ways agree on every extent and
on every start. They agree on what an offset finds as long as there is a stride, or one item only.

Otherwise all items share one start. Then a strip without own extents finds the first item, and one
with an own extent finds the last, as an offset should. The visible windows begin there.

## Main definitions

* `Measures.SameItems` — measures of the same items, whichever of them have own extents.
* `Measures.ownUniform` — the measures in which an item has the shared extent as its own.
* `Strip.OwnsShared` — strips with the same items, one with and one without own extents.

## Main results

* `Measures.SameItems.indexAtOffset_eq` — an offset finds the same item in both.
* `Strip.Built.own_extent_unseen_iff` — when the shared extent can be given to an item unseen.
-/

namespace Windowing

namespace Measures

/-! ### Measures of the same items -/

/-- The two measures are of the same items, with the same extents and gaps. Which of the extents are
an item's own may differ. -/
structure SameItems (a b : Measures Rat) : Prop where
  len_eq : b.len = a.len
  spacing_eq : b.spacing = a.spacing
  extentOf_eq : ∀ index, b.extentOf index = a.extentOf index

variable {a b measures : Measures Rat} {index : Nat}

theorem SameItems.summedStart_eq (h : SameItems a b) (index : Nat) :
    b.summedStart index = a.summedStart index := by
  induction index with
  | zero => rfl
  | succ index ih => rw [summedStart_succ, summedStart_succ, ih, h.extentOf_eq, h.spacing_eq]

theorem SameItems.totalExtent_eq (h : SameItems a b) (hlen : 0 < a.len) :
    b.totalExtent = a.totalExtent := by
  rw [Measures.totalExtent_eq hlen, Measures.totalExtent_eq (h.len_eq.symm ▸ hlen), h.len_eq,
    h.summedStart_eq, h.extentOf_eq]

theorem SameItems.offsetOf_eq (h : SameItems a b) (hlen : 0 < a.len) (index : Nat) :
    b.offsetOf index = a.offsetOf index := by
  by_cases hindex : index < a.len
  · rw [offsetOf_of_lt hindex, offsetOf_of_lt (h.len_eq.symm ▸ hindex), h.summedStart_eq]
  · have hpast := Nat.le_of_not_lt hindex
    rw [offsetOf_of_le hpast, offsetOf_of_le (h.len_eq.symm ▸ hpast), h.totalExtent_eq hlen]

/-- Unless all items start together without an own extent, an offset finds the same item in both
measures, since it finds the last one that starts at or before it. -/
theorem SameItems.indexAtOffset_eq (h : SameItems a b) (ha : a.Nonneg) (hb : b.Nonneg)
    (hstride : a.isUniform = true → 0 < a.stride) (hstride' : b.isUniform = true → 0 < b.stride)
    (hlen : 0 < a.len) (offset : Rat) : b.indexAtOffset offset = a.indexAtOffset offset := by
  have hsame (i : Nat) (hi : i < a.len) :
      i ≤ b.indexAtOffset offset ↔ i ≤ a.indexAtOffset offset := by
    rw [ha.le_indexAtOffset_iff hstride offset hi,
      hb.le_indexAtOffset_iff hstride' offset (h.len_eq.symm ▸ hi), h.summedStart_eq]
  have hfound := indexAtOffset_lt offset hlen
  have hfound' := indexAtOffset_lt offset (h.len_eq.symm ▸ hlen)
  rw [h.len_eq] at hfound'
  exact le_antisymm ((hsame _ hfound').mp le_rfl) ((hsame _ hfound).mpr le_rfl)

/-! ### Items that start together -/

theorem Nonneg.summedStart_of_totalExtent_eq_zero (h : measures.Nonneg)
    (hnone : measures.totalExtent = 0) (hindex : index < measures.len) :
    measures.summedStart index = 0 := by
  have hends := h.summedStart_add_le_totalExtent hindex
  have hextent := h.extentOf index
  have hstart := h.summedStart index
  linarith

/-- Without own extents the first of the items that start together is found. -/
theorem indexAtOffset_of_stride_eq_zero (huniform : measures.isUniform = true)
    (hstride : measures.stride = 0) (offset : Rat) : measures.indexAtOffset offset = 0 := by
  simp [indexAtOffset, huniform, hstride]

/-- With an own extent the last of them is found. -/
theorem Nonneg.indexAtOffset_of_totalExtent_eq_zero (h : measures.Nonneg)
    (howns : measures.isUniform = false) (hnone : measures.totalExtent = 0)
    (hlen : 0 < measures.len) (offset : Rat) :
    measures.indexAtOffset offset = measures.len - 1 := by
  have hlast : measures.len - 1 < measures.len := Nat.sub_one_lt_of_lt hlen
  refine le_antisymm (Nat.le_sub_one_of_lt (indexAtOffset_lt offset hlen)) ?_
  refine (h.le_indexAtOffset_iff (fun huniform ↦ ?_) offset hlast).mpr ?_
  · exact absurd (howns.symm.trans huniform) Bool.false_ne_true
  · rw [h.summedStart_of_totalExtent_eq_zero hnone hlast]
    exact le_max_left 0 offset

/-! ### An own extent that equals the shared one -/

/-- The measures in which an item has the shared extent as its own. -/
def ownUniform (measures : Measures Rat) (index : Nat) : Measures Rat :=
  { measures with overrides := measures.overrides.insert index measures.uniform }

theorem isUniform_ownUniform (measures : Measures Rat) (index : Nat) :
    (measures.ownUniform index).isUniform = false :=
  Std.TreeMap.isEmpty_insert

theorem sameItems_ownUniform (measures : Measures Rat) (index : Nat)
    (huniform : measures.isUniform = true) : SameItems measures (measures.ownUniform index) := by
  refine ⟨rfl, rfl, fun i ↦ ?_⟩
  have hnone : measures.overrides[i]? = none :=
    Std.TreeMap.getElem?_eq_none (Std.TreeMap.isEmpty_iff_forall_not_mem.mp huniform i)
  rw [extentOf_of_isUniform huniform, extentOf, overrideOf, ownUniform,
    Std.TreeMap.getElem?_insert, hnone]
  split <;> rfl

theorem checkedExtent_of_nonneg {extent : Rat} (h : 0 ≤ extent) :
    checkedExtent extent = .ok extent := by
  have hsame : Scalar.nonNegative extent = extent := by rw [Scalar.nonNegative_eq, max_eq_right h]
  exact congrArg Except.ok hsame

end Measures

namespace Strip

open ExtentModel

variable {strip : Strip Rat} {index : Nat}

/-! ### Windows over items that start together -/

/-- Over items that start together a window starts at the item that is found. -/
theorem start_visibleWindow_of_offsetOf_eq_zero
    (hzero : ∀ i < strip.len, ExtentModel.offsetOf strip i = 0) (offset extent : Rat)
    (lookahead : Nat) (hfound : strip.indexAtOffset (max 0 offset) < strip.len) :
    (visibleWindow strip offset extent lookahead).start =
      strip.indexAtOffset (max 0 offset) := by
  have hlen : ¬ExtentModel.len strip = 0 := Nat.ne_of_gt (Nat.zero_lt_of_lt hfound)
  have hmin : Nat.min (ExtentModel.indexAtOffset strip (max 0 offset)) (strip.len - 1) =
      strip.indexAtOffset (max 0 offset) := Nat.min_eq_left (Nat.le_sub_one_of_lt hfound)
  have hskip (i : Nat) (hi : i < strip.len) : skipTracks strip strip.len (max 0 offset) i = i := by
    rw [skipTracks]
    refine if_neg fun hskips ↦ ?_
    obtain ⟨hnext, -, hlater⟩ := hskips
    rw [hzero _ hi, hzero _ hnext, Scalar.gt_eq, decide_eq_true_eq] at hlater
    exact lt_irrefl 0 hlater
  have hback (i : Nat) (hi : i < strip.len) : stepBack strip (max 0 offset) i = i := by
    cases i with
    | zero => rfl
    | succ i =>
      refine if_neg fun hlate ↦ ?_
      rw [hzero _ hi, Scalar.gt_eq, decide_eq_true_eq] at hlate
      exact not_lt.mpr (le_max_left 0 offset) hlate
  have htrack (i : Nat) : trackStart strip (trackIndex strip i) i = i := by
    cases i with
    | zero => rfl
    | succ i => exact if_neg (Nat.ne_of_lt (Nat.lt_succ_self i))
  have hstart : windowStart strip strip.len (max 0 offset) =
      strip.indexAtOffset (max 0 offset) := by
    rw [windowStart, hmin, hskip _ hfound, hback _ hfound, htrack]
  rw [visibleWindow, if_neg hlen]
  simp only [Scalar.nonNegative_eq]
  exact hstart

/-! ### Strips with and without own extents -/

/-- Two strips with the same items. None of the items of `plain` has an extent of its own, and some
item of `owning` has. -/
structure OwnsShared (plain owning : Strip Rat) : Prop where
  laid_plain : plain.Laid
  laid_owning : owning.Laid
  same : Measures.SameItems plain.measures owning.measures
  isUniform : plain.measures.isUniform = true
  owns : owning.measures.isUniform = false
  len_pos : 0 < plain.len

variable {plain owning : Strip Rat}

theorem OwnsShared.len_eq (h : OwnsShared plain owning) : owning.len = plain.len :=
  h.same.len_eq

theorem OwnsShared.alike (h : OwnsShared plain owning) : Alike plain owning where
  len_eq := h.len_eq
  totalExtent_eq := by
    change owning.totalExtent = plain.totalExtent
    rw [h.laid_owning.sound.totalExtent_eq, h.laid_plain.sound.totalExtent_eq,
      h.same.totalExtent_eq h.len_pos]
  offsetOf_eq i := by
    change owning.offsetOf i = plain.offsetOf i
    rw [h.laid_owning.sound.offsetOf_eq, h.laid_plain.sound.offsetOf_eq,
      h.same.offsetOf_eq h.len_pos]
  extentOf_eq i := congrArg Except.ok (h.same.extentOf_eq i)

/-- Of items that start together, the first is found without own extents, and the last with one. -/
theorem OwnsShared.indexAtOffset_of_together (h : OwnsShared plain owning)
    (hstride : plain.uniform + plain.spacing = 0) (offset : Rat) :
    plain.indexAtOffset offset = 0 ∧ owning.indexAtOffset offset = plain.len - 1 := by
  have hnone := h.laid_plain.nonneg.totalExtent_of_stride_eq_zero h.isUniform hstride h.len_pos
  rw [h.laid_plain.sound.indexAtOffset_eq, h.laid_owning.sound.indexAtOffset_eq,
    Measures.indexAtOffset_of_stride_eq_zero h.isUniform hstride,
    h.laid_owning.nonneg.indexAtOffset_of_totalExtent_eq_zero h.owns
      ((h.same.totalExtent_eq h.len_pos).trans hnone) (h.len_pos.trans_eq h.len_eq.symm),
    h.same.len_eq]
  exact ⟨rfl, rfl⟩

/-- Items that do not start together are found alike. -/
theorem OwnsShared.sameAnswers (h : OwnsShared plain owning)
    (hdistinct : 0 < plain.uniform + plain.spacing ∨ plain.len = 1) :
    SameAnswers plain owning where
  toAlike := h.alike
  trackIndex_eq _ := rfl
  indexAtOffset_eq offset := by
    have hindex : owning.indexAtOffset offset = plain.indexAtOffset offset := by
      rw [h.laid_plain.sound.indexAtOffset_eq, h.laid_owning.sound.indexAtOffset_eq]
      rcases hdistinct with hstride | hone
      · exact h.same.indexAtOffset_eq h.laid_plain.nonneg h.laid_owning.nonneg (fun _ ↦ hstride)
          (fun huniform ↦ absurd (h.owns.symm.trans huniform) Bool.false_ne_true) h.len_pos offset
      · -- The only item is found in any case.
        have hlt := Measures.indexAtOffset_lt offset (show 0 < plain.measures.len from h.len_pos)
        have hlt' := Measures.indexAtOffset_lt offset
          (show 0 < owning.measures.len from h.len_pos.trans_eq h.len_eq.symm)
        simp only [len_measures, h.len_eq, hone, Nat.lt_one_iff] at hlt hlt'
        rw [hlt, hlt']
    exact hindex

/-- Over several items that start together the windows of the two strips are never the same. -/
theorem OwnsShared.visibleWindow_ne_of_together (h : OwnsShared plain owning)
    (hstride : plain.uniform + plain.spacing = 0) (hmany : plain.len ≠ 1) (offset extent : Rat)
    (lookahead : Nat) :
    visibleWindow owning offset extent lookahead ≠
      visibleWindow plain offset extent lookahead := by
  intro heq
  have hzero (i : Nat) (hi : i < plain.len) : ExtentModel.offsetOf plain i = 0 := by
    change plain.offsetOf i = 0
    rw [h.laid_plain.sound.offsetOf_eq, Measures.offsetOf_of_lt hi,
      Measures.summedStart_of_isUniform h.isUniform]
    exact mul_eq_zero_of_right _ hstride
  have hzero' (i : Nat) (hi : i < owning.len) : ExtentModel.offsetOf owning i = 0 :=
    (h.alike.offsetOf_eq i).trans (hzero i (hi.trans_eq h.len_eq))
  obtain ⟨hfirst, hlast⟩ := h.indexAtOffset_of_together hstride (max 0 offset)
  have hlen := h.len_pos
  have hlen' := h.len_eq
  have hstart := start_visibleWindow_of_offsetOf_eq_zero hzero offset extent lookahead (by omega)
  have hstart' := start_visibleWindow_of_offsetOf_eq_zero hzero' offset extent lookahead (by omega)
  rw [heq, hstart] at hstart'
  omega

/-- Giving an item the shared extent as its own succeeds. -/
theorem Laid.setOverride_uniform (h : strip.Laid) (huniform : strip.isUniform = true)
    (hindex : index < strip.len) :
    ∃ after, setOverride index strip.uniform strip = .ok true after ∧ OwnsShared strip after := by
  have hchecked : checkedExtent strip.uniform = .ok strip.uniform :=
    Measures.checkedExtent_of_nonneg h.nonneg.uniform
  have hrun : setOverride index strip.uniform strip =
      .ok true (strip.openStarts.insertOverride index strip.uniform) :=
    setOverride_of_lt hchecked hindex
  have hmeasures : (strip.openStarts.insertOverride index strip.uniform).measures =
      strip.measures.ownUniform index :=
    measures_insertOverride_openStarts strip index strip.uniform
  refine ⟨_, hrun, h, ⟨(h.sound.setOverride index strip.uniform).of_ok hrun, ?nonneg⟩, ?same,
    huniform, ?owns, Nat.zero_lt_of_lt hindex⟩
  case nonneg => exact hmeasures ▸ (Measures.Edited.setOverride hindex hchecked).nonneg h.nonneg
  case same => exact hmeasures ▸ Measures.sameItems_ownUniform strip.measures index huniform
  case owns => exact hmeasures ▸ Measures.isUniform_ownUniform strip.measures index

/-- Giving an item of a strip without own extents the shared extent as its own moves no item. It
changes what an offset finds, and where the visible window starts, exactly if the items start
together and are more than one: the first of them is found before, and the last one after. -/
theorem Built.own_extent_unseen_iff (h : strip.Built) (huniform : strip.isUniform = true)
    (hindex : index < strip.len) :
    ∃ after, setOverride index strip.uniform strip = .ok true after ∧ Alike strip after ∧
      (∀ offset, after.indexAtOffset offset = strip.indexAtOffset offset ↔
        0 < strip.uniform + strip.spacing ∨ strip.len = 1) ∧
      (∀ offset extent lookahead,
        visibleWindow after offset extent lookahead =
            visibleWindow strip offset extent lookahead ↔
          0 < strip.uniform + strip.spacing ∨ strip.len = 1) ∧
      (strip.uniform + strip.spacing = 0 → ∀ offset,
        strip.indexAtOffset offset = 0 ∧ after.indexAtOffset offset = strip.len - 1) := by
  obtain ⟨after, hrun, howns⟩ := h.laid.setOverride_uniform huniform hindex
  refine ⟨after, hrun, howns.alike, ?_⟩
  by_cases hdistinct : 0 < strip.uniform + strip.spacing ∨ strip.len = 1
  case pos =>
    have hsame := howns.sameAnswers hdistinct
    exact ⟨fun offset ↦ iff_of_true (hsame.indexAtOffset_eq offset) hdistinct,
      fun offset extent lookahead ↦
        iff_of_true (hsame.visibleWindow_eq offset extent lookahead) hdistinct,
      howns.indexAtOffset_of_together⟩
  case neg =>
    obtain ⟨hnone, hmany⟩ := not_or.mp hdistinct
    have hstride : strip.uniform + strip.spacing = 0 :=
      le_antisymm (not_lt.mp hnone) h.laid.nonneg.stride
    have hindexes (offset : Rat) : after.indexAtOffset offset ≠ strip.indexAtOffset offset := by
      have hlen := howns.len_pos
      obtain ⟨hfirst, hlast⟩ := howns.indexAtOffset_of_together hstride offset
      omega
    have hwindows := howns.visibleWindow_ne_of_together hstride hmany
    exact ⟨fun offset ↦ iff_of_false (hindexes offset) hdistinct,
      fun offset extent lookahead ↦ iff_of_false (hwindows offset extent lookahead) hdistinct,
      howns.indexAtOffset_of_together⟩

/-- Two items without extent or gap: the second one gets an extent of zero of its own, and from then
on it is found where the first one was. With an extent of ten nothing changes. -/
theorem Built.own_extent_unseen_iff_pair :
    let flat : Strip Rat :=
      { len := 2, uniform := 0, spacing := 0, overrides := ∅, starts := .unset }
    let tall : Strip Rat := { flat with uniform := 10 }
    (flat.Built ∧ flat.isUniform = true ∧ 1 < flat.len ∧
      ∃ after, setOverride 1 0 flat = .ok true after ∧ Alike flat after ∧
        flat.indexAtOffset 0 = 0 ∧ after.indexAtOffset 0 = 1 ∧
        visibleWindow after 0 20 0 ≠ visibleWindow flat 0 20 0) ∧
      tall.Built ∧ tall.isUniform = true ∧ 1 < tall.len ∧
      ∃ after, setOverride 1 10 tall = .ok true after ∧ Alike tall after ∧
        (∀ offset, after.indexAtOffset offset = tall.indexAtOffset offset) ∧
        visibleWindow after 5 20 1 = visibleWindow tall 5 20 1 := by
  intro flat tall
  have hflat : flat.Built := ⟨2, 0, flat, [], rfl, rfl⟩
  have htall : tall.Built := ⟨2, 10, tall, [], rfl, rfl⟩
  have hsecond : 1 < flat.len := by decide
  refine ⟨⟨hflat, rfl, hsecond, ?flat⟩, htall, rfl, hsecond, ?tall⟩
  case flat =>
    obtain ⟨after, hrun, halike, -, hwindows, htogether⟩ :=
      hflat.own_extent_unseen_iff rfl hsecond
    have hstride : ¬(0 < flat.uniform + flat.spacing ∨ flat.len = 1) := by decide +kernel
    obtain ⟨hfirst, hlast⟩ := htogether (by decide +kernel) 0
    exact ⟨after, hrun, halike, hfirst, hlast, mt (hwindows 0 20 0).mp hstride⟩
  case tall =>
    obtain ⟨after, hrun, halike, hindexes, hwindows, -⟩ :=
      htall.own_extent_unseen_iff rfl hsecond
    have hstride : 0 < tall.uniform + tall.spacing ∨ tall.len = 1 := by decide +kernel
    exact ⟨after, hrun, halike, fun offset ↦ (hindexes offset).mpr hstride,
      (hwindows 5 20 1).mpr hstride⟩

end Strip

end Windowing
