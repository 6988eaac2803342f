import Windowing.Proofs.Ensures
import Windowing.Proofs.Extent.Measures
import Windowing.Proofs.Mirrors

/-!
# Kept starts are never seen

A strip keeps the starts of its items and rebuilds the stale ones when somebody asks. Whatever the
edits and the queries before it, a call on a strip answers what the same call answers on the
measures of the strip, where everything is worked out afresh. Nothing is asked of the arithmetic,
so this holds with rounding.

## Main definitions

* `Strip.Sound` — own extents belong to items, and the starts that are not stale are right.
* `Strip.Call.Refuses` — a call that changes nothing because it faults or answers no.

## Main results

* `Strip.perform_measures` — a call on a sound strip is the call on its measures.
* `Strip.answers_afresh` — a run of calls answers what it answers on the measures.
-/

namespace Windowing.Strip

variable {S : Type} [Scalar S] {strip : Strip S} {index len : Nat}

/-- Only items have an extent of their own, and while one has, there is an entry for the start of
every item, and the entries that are not stale are right. -/
structure Sound (strip : Strip S) : Prop where
  lt_len : ∀ index ∈ strip.overrides, index < strip.len
  size_eq : strip.isUniform = false → strip.starts.entries.size = strip.len
  current : strip.isUniform = false → strip.starts.Current strip.advance

/-- A strip in which every item has the shared extent is sound, whatever starts it keeps. -/
theorem sound_of_isUniform (h : strip.isUniform = true) : strip.Sound where
  lt_len index hindex := absurd hindex (Std.TreeMap.isEmpty_iff_forall_not_mem.mp h index)
  size_eq hnot := absurd (h.symm.trans hnot) (by decide)
  current hnot := absurd (h.symm.trans hnot) (by decide)

theorem overrideOf_eq_none (h : strip.Sound) (hindex : strip.len ≤ index) :
    strip.overrideOf index = none :=
  Std.TreeMap.getElem?_eq_none fun hmem ↦ Nat.not_lt.mpr hindex (h.lt_len index hmem)

/-! ### Queries -/

theorem runningStart_advance (strip : Strip S) (index : Nat) :
    Starts.runningStart strip.advance index = strip.measures.summedStart index := by
  induction index with
  | zero => rfl
  | succ index ih => exact congrArg (strip.advance index) ih

theorem Sound.startOf_eq (h : strip.Sound) (hindex : index < strip.len) :
    strip.startOf index = strip.measures.startOf index := by
  rw [startOf, Measures.startOf, isUniform_measures, stride_measures]
  cases huniform : strip.isUniform with
  | true => simp
  | false =>
    have hsize : index < strip.starts.entries.size := h.size_eq huniform ▸ hindex
    have hentry := (h.current huniform).getElem?_refresh (Nat.le_refl index) hsize
    by_cases hzero : index = 0
    · subst hzero
      rfl
    · simp [hzero, refreshed, Array.getD_eq_getD_getElem?, hentry, runningStart_advance]

theorem Sound.offsetOf_eq (h : strip.Sound) (index : Nat) :
    strip.offsetOf index = strip.measures.offsetOf index := by
  rw [offsetOf, Measures.offsetOf, len_measures, extentOf_measures]
  by_cases hlen : strip.len = 0
  · rw [if_pos hlen, if_pos hlen]
  · rw [if_neg hlen, if_neg hlen]
    by_cases hindex : index < strip.len
    · rw [if_pos hindex, if_pos hindex, h.startOf_eq hindex]
    · rw [if_neg hindex, if_neg hindex, h.startOf_eq (Nat.sub_one_lt hlen)]

theorem Sound.totalExtent_eq (h : strip.Sound) : strip.totalExtent = strip.measures.totalExtent :=
  h.offsetOf_eq strip.len

/-- Once they are rebuilt, the kept starts are the starts of all items. -/
theorem Sound.entries_refreshed (h : strip.Sound) (huniform : strip.isUniform = false) :
    (strip.refreshed (strip.len - 1)).starts.entries = strip.measures.allStarts := by
  have hall := (h.current huniform).entries_refresh
  rw [h.size_eq huniform] at hall
  rw [refreshed, hall, Measures.allStarts, len_measures]
  exact Array.map_congr_left fun index _ ↦ strip.runningStart_advance index

theorem Sound.indexAtOffset_eq (h : strip.Sound) (offset : S) :
    strip.indexAtOffset offset = strip.measures.indexAtOffset offset := by
  rw [indexAtOffset, Measures.indexAtOffset, isUniform_measures, stride_measures, len_measures]
  cases huniform : strip.isUniform with
  | true => rfl
  | false => rw [h.entries_refreshed huniform]

/-! ### What a query stores -/

@[simp]
theorem measures_settleAt (index : Nat) (strip : Strip S) :
    (strip.settleAt index).measures = strip.measures := by
  rw [settleAt]
  split
  · rfl
  · exact measures_withStarts strip _

@[simp]
theorem measures_settleAll (strip : Strip S) : strip.settleAll.measures = strip.measures := by
  rw [settleAll]
  split
  · rfl
  · exact measures_withStarts strip _

theorem Sound.refreshed (h : strip.Sound) (index : Nat) : (strip.refreshed index).Sound where
  lt_len := h.lt_len
  size_eq huniform := Starts.size_refresh.trans (h.size_eq huniform)
  current huniform := (h.current huniform).refresh index

theorem Sound.settleAt (h : strip.Sound) (index : Nat) : (strip.settleAt index).Sound := by
  rw [Strip.settleAt]
  split
  · exact h
  · exact h.refreshed _

theorem Sound.settleAll (h : strip.Sound) : strip.settleAll.Sound := by
  rw [Strip.settleAll]
  split
  · exact h
  · exact h.refreshed _

/-! ### Edits -/

/-- A strip whose starts were right before an edit is sound after it, if those behind the first
edited item are marked. -/
theorem sound_invalidateFrom {edited : Strip S} {advance : Nat → S → S}
    (hlt : ∀ i ∈ edited.overrides, i < edited.len)
    (hsize : edited.isUniform = false → edited.starts.entries.size = edited.len)
    (hcurrent : edited.isUniform = false → edited.starts.Current advance)
    (hbefore : ∀ i < index, edited.advance i = advance i) :
    (edited.invalidateFrom index).Sound where
  lt_len := hlt
  size_eq := hsize
  current hnot := (hcurrent hnot).invalidateFrom hbefore

theorem Sound.setUniform (h : strip.Sound) (extent : S) :
    (Strip.setUniform extent).Ensures strip (fun _ ↦ Sound) Sound := by
  simp only [Strip.setUniform, Step.ensures_bind, Step.ensures_ofExcept, Step.ensures_modify]
  cases checkedExtent extent with
  | error fault => exact h
  | ok extent =>
    dsimp only
    split
    · exact h
    · exact sound_invalidateFrom h.lt_len h.size_eq h.current
        fun _ hlt ↦ absurd hlt (Nat.not_lt_zero _)

theorem Sound.setSpacing (h : strip.Sound) (spacing : S) :
    (Strip.setSpacing spacing).Ensures strip (fun _ ↦ Sound) Sound := by
  simp only [Strip.setSpacing, Step.ensures_bind, Step.ensures_ofExcept, Step.ensures_modify]
  cases checkedExtent spacing with
  | error fault => exact h
  | ok spacing =>
    dsimp only
    split
    · exact h
    · exact sound_invalidateFrom h.lt_len h.size_eq h.current
        fun _ hlt ↦ absurd hlt (Nat.not_lt_zero _)

/-- Two strips with the same shared extent, gap and own extents before `index` advance alike
there. -/
theorem advance_congr {edited : Strip S} (huniform : edited.uniform = strip.uniform)
    (hspacing : edited.spacing = strip.spacing)
    (hoverride : edited.overrideOf index = strip.overrideOf index) :
    edited.advance index = strip.advance index := by
  funext start
  rw [advance, advance, extentOf, extentOf, huniform, hspacing, hoverride]

theorem Sound.setLen (h : strip.Sound) (len : Nat) : (strip.setLen len).Sound := by
  have hmem (i : Nat) : i ∈ (strip.setLen len).overrides → i ∈ strip.overrides ∧ i < len := by
    intro hi
    simp only [Strip.setLen, fitStarts] at hi
    split at hi
    · simpa [Std.TreeMap.mem_filter] using hi
    · next hle => exact ⟨hi, Nat.lt_of_lt_of_le (h.lt_len i hi) (Nat.le_of_not_lt hle)⟩
  have hoverride (i : Nat) (hi : i < len) :
      (strip.setLen len).overrideOf i = strip.overrideOf i := by
    simp only [Strip.setLen, fitStarts, overrideOf]
    split
    · simp only [Std.TreeMap.getElem?_filter, Std.TreeMap.getKey_eq, hi, decide_true]
      cases strip.overrides[i]? <;> rfl
    · rfl
  have huniform (hnot : (strip.setLen len).isUniform = false) : strip.isUniform = false := by
    obtain ⟨i, hi⟩ := Std.TreeMap.isEmpty_eq_false_iff_exists_mem.mp hnot
    exact Std.TreeMap.isEmpty_eq_false_iff_exists_mem.mpr ⟨i, (hmem i hi).1⟩
  have hstarts (hnot : (strip.setLen len).isUniform = false) :
      (strip.setLen len).starts = strip.starts.resize len :=
    if_neg (Bool.eq_false_iff.mp hnot)
  refine ⟨fun i hi ↦ (hmem i hi).2, fun hnot ↦ ?size, fun hnot ↦ ?current⟩
  case size =>
    rw [hstarts hnot, Starts.size_resize]
    rfl
  case current =>
    have hresized := (h.current (huniform hnot)).resize len
    rw [hstarts hnot]
    refine hresized.congr fun i hi ↦ ?_
    rw [Starts.size_resize] at hi
    exact advance_congr rfl rfl (hoverride i hi)

/-- Room made for the starts is room for all items, and the starts in it are right or stale. -/
theorem Sound.openStarts_eq (h : strip.Sound) : ∃ starts : Starts S,
    strip.openStarts = { strip with starts } ∧ starts.entries.size = strip.len ∧
      starts.Current strip.advance := by
  rw [Strip.openStarts]
  cases huniform : strip.isUniform with
  | true => exact ⟨.blank strip.len, rfl, Array.size_replicate, Starts.current_blank⟩
  | false => exact ⟨strip.starts, rfl, h.size_eq huniform, h.current huniform⟩

theorem Sound.setOverride (h : strip.Sound) (index : Nat) (extent : S) :
    (Strip.setOverride index extent).Ensures strip (fun _ ↦ Sound) Sound := by
  obtain ⟨starts, hopen, hsize, hcurrent⟩ := h.openStarts_eq
  have hopened : ({ strip with starts } : Strip S).Sound :=
    ⟨h.lt_len, fun _ ↦ hsize, fun _ ↦ hcurrent⟩
  simp only [Strip.setOverride, Step.ensures_bind, Step.ensures_get, Step.ensures_ite,
    Step.ensures_pure, Step.ensures_set, Step.ensures_ofExcept, Step.ensures_modify, hopen]
  split
  · exact h
  · next hindex =>
    cases checkedExtent extent with
    | error fault => exact hopened
    | ok extent =>
      refine sound_invalidateFrom (fun i hi ↦ ?lt) (fun _ ↦ hsize) (fun _ ↦ hcurrent)
        fun i hi ↦ ?before
      case lt =>
        rcases Std.TreeMap.mem_insert.mp hi with heq | hold
        · obtain rfl := Std.LawfulEqCmp.eq_of_compare heq
          exact Nat.lt_of_not_le hindex
        · exact h.lt_len i hold
      case before =>
        refine advance_congr rfl rfl ?_
        simp [overrideOf, Std.TreeMap.getElem?_insert, Nat.ne_of_gt hi]

theorem Sound.clearOverride (h : strip.Sound) (index : Nat) :
    (strip.clearOverride index).1.Sound := by
  rw [Strip.clearOverride]
  split
  · dsimp only
    split
    · next huniform => exact sound_of_isUniform huniform
    · next hnot =>
      have hold (hnot :
          ({ strip with overrides := strip.overrides.erase index } : Strip S).isUniform = false) :
          strip.isUniform = false := by
        obtain ⟨i, hi⟩ := Std.TreeMap.isEmpty_eq_false_iff_exists_mem.mp hnot
        exact Std.TreeMap.isEmpty_eq_false_iff_exists_mem.mpr ⟨i, Std.TreeMap.mem_of_mem_erase hi⟩
      refine sound_invalidateFrom (fun i hi ↦ h.lt_len i (Std.TreeMap.mem_of_mem_erase hi))
        (fun hnot ↦ h.size_eq (hold hnot)) (fun hnot ↦ h.current (hold hnot)) fun i hi ↦ ?_
      refine advance_congr rfl rfl ?_
      simp [overrideOf, Std.TreeMap.getElem?_erase, Nat.ne_of_gt hi]
  · exact h

/-! ### Calls -/

/-- Every call keeps a strip sound, however it ends. -/
theorem Sound.perform (h : strip.Sound) (call : Call S) :
    (call.perform.after strip).Sound := by
  refine Step.ensures_iff_after.mp ?_
  cases call with
  | query query =>
    cases query with
    | totalExtent => exact h.settleAt _
    | offsetOf index => exact h.settleAt index
    | indexAtOffset offset => exact h.settleAll
    | _ => exact h
  | edit edit =>
    cases edit with
    | setLen len => exact h.setLen len
    | setItemExtent index extent =>
      simp only [Call.perform, ResizableModel.Edit.perform, Step.ensures_bind]
      exact h.setOverride index extent
    | clearItemExtent index => exact h.clearOverride index
    | fitCrossExtent crossExtent => exact h
    | crossSpan index crossExtent => exact h
  | setUniform extent =>
    simp only [Call.perform, Step.ensures_bind]
    exact h.setUniform extent
  | setSpacing gap =>
    simp only [Call.perform, Step.ensures_bind]
    exact h.setSpacing gap
  | clearOverrides => exact sound_of_isUniform Std.TreeMap.isEmpty_emptyc
  | indexAtOffset? offset => exact h.settleAll
  | _ => exact h

/-! ### Edits of the measures -/

theorem setUniform_mirrors (extent : S) :
    Step.Mirrors measures id (setUniform extent) (Measures.setUniform extent) := by
  refine (Step.mirrors_ofExcept (checkedExtent extent)).bind fun extent ↦
    Step.mirrors_modify fun strip ↦ ?_
  rw [apply_ite measures]
  rfl

theorem setSpacing_mirrors (spacing : S) :
    Step.Mirrors measures id (setSpacing spacing) (Measures.setSpacing spacing) := by
  refine (Step.mirrors_ofExcept (checkedExtent spacing)).bind fun spacing ↦
    Step.mirrors_modify fun strip ↦ ?_
  rw [apply_ite measures]
  rfl

@[simp]
theorem measures_openStarts (strip : Strip S) : strip.openStarts.measures = strip.measures := by
  rw [openStarts]
  split
  · exact measures_withStarts strip _
  · rfl

theorem insertOverride_mirrors (index : Nat) (extent : S) :
    Step.Mirrors measures id
      (do let extent ← Step.ofExcept (checkedExtent extent)
          modify (insertOverride index extent)
          return true)
      (do let extent ← Step.ofExcept (checkedExtent extent)
          modify fun measures ↦
            { measures with overrides := measures.overrides.insert index extent }
          return true) := by
  refine (Step.mirrors_ofExcept (checkedExtent extent)).bind fun extent ↦ ?_
  have hinsert : Step.Mirrors (measures (S := S)) id (modify (insertOverride index extent))
      (modify fun measures ↦
        { measures with overrides := measures.overrides.insert index extent }) :=
    Step.mirrors_modify fun _ ↦ rfl
  exact hinsert.answering true

theorem setOverride_mirrors (index : Nat) (extent : S) :
    Step.Mirrors measures id (setOverride index extent) (Measures.setOverride index extent) := by
  intro strip
  rw [setOverride, Measures.setOverride, Step.get_bind, Step.get_bind, len_measures]
  split
  · rfl
  · -- The room made for the starts is no part of the measures.
    have hopened := insertOverride_mirrors index extent strip.openStarts
    rw [measures_openStarts] at hopened
    exact hopened

/-- An existing item is given an extent of its own, if it is a finite one. -/
theorem setOverride_of_lt {strip : Strip S} {index : Nat} {extent checked : S}
    (hchecked : checkedExtent extent = .ok checked) (hindex : index < strip.len) :
    setOverride index extent strip = .ok true (strip.openStarts.insertOverride index checked) := by
  rw [setOverride, Step.get_bind, if_neg (Nat.not_le.mpr hindex), hchecked]
  rfl

/-- The own extent is all that is new in the measures then. -/
theorem measures_insertOverride_openStarts (strip : Strip S) (index : Nat) (extent : S) :
    (strip.openStarts.insertOverride index extent).measures =
      { strip.measures with overrides := strip.measures.overrides.insert index extent } :=
  congrArg (fun measures : Measures S ↦
    { measures with overrides := measures.overrides.insert index extent })
    (measures_openStarts strip)

omit [Scalar S] in
theorem clearOverride_measures (index : Nat) (strip : Strip S) :
    strip.measures.clearOverride index =
      ((strip.clearOverride index).1.measures, (strip.clearOverride index).2) := by
  have hoverrides : strip.measures.overrides = strip.overrides := rfl
  rw [Measures.clearOverride, clearOverride, hoverrides]
  split
  · dsimp only
    split <;> rfl
  · rfl

theorem edit_mirrors (edit : ResizableModel.Edit S) :
    Step.Mirrors measures id (edit.perform : Step (Strip S) _)
      (edit.perform : Step (Measures S) _) := by
  cases edit with
  | setLen len =>
    have hlen : Step.Mirrors (measures (S := S)) id (modify (Strip.setLen len))
        (modify (Measures.setLen len)) := Step.mirrors_modify fun _ ↦ rfl
    exact hlen.answering Reply.done
  | setItemExtent index extent =>
    exact (setOverride_mirrors index extent).bind fun found ↦
      Step.mirrors_pure (a := Reply.flag found) rfl
  | clearItemExtent index =>
    refine Step.mirrors_modifyGet fun strip ↦ ?_
    exact congrArg (fun cleared : Measures S × Bool ↦ ((Reply.flag cleared.2 : Reply S), cleared.1))
      (clearOverride_measures index strip)
  | fitCrossExtent crossExtent => exact fun _ ↦ rfl
  | crossSpan index crossExtent => exact fun _ ↦ rfl

/-! ### Calls on the measures -/

omit [Scalar S] in
/-- What is read off a strip that stored something, and off the measures. -/
private theorem ok_of_settled {settled : Strip S} {answer : Reply S} (plain : Measures S → Reply S)
    (hsettled : settled.measures = strip.measures) (hanswer : answer = plain settled.measures) :
    (.ok (plain strip.measures) strip.measures : EStateM.Result Fault (Measures S) (Reply S)) =
      .ok answer settled.measures := by
  rw [hanswer, hsettled]

/-- A query of a sound strip answers what it answers on the measures. -/
theorem Sound.query_measures (h : strip.Sound) (query : ExtentModel.Query S) :
    (query.perform : Step (Measures S) _) strip.measures =
      Step.shown id measures ((query.perform : Step (Strip S) _) strip) := by
  cases query with
  | totalExtent =>
    exact ok_of_settled (.scalar ·.totalExtent) (measures_settleAt ..)
      (congrArg Reply.scalar (h.settleAt strip.len).totalExtent_eq)
  | offsetOf index =>
    exact ok_of_settled (.scalar <| ·.offsetOf index) (measures_settleAt ..)
      (congrArg Reply.scalar ((h.settleAt index).offsetOf_eq index))
  | indexAtOffset offset =>
    exact ok_of_settled (.count <| ·.indexAtOffset offset) (measures_settleAll _)
      (congrArg Reply.count (h.settleAll.indexAtOffset_eq offset))
  | _ => rfl

/-- A call on a sound strip answers what it answers on the measures of the strip, and leaves them as
it leaves the strip. -/
theorem Sound.perform_measures (h : strip.Sound) (call : Call S) :
    Measures.perform call strip.measures = Step.shown id measures (call.perform strip) := by
  cases call with
  | query query => exact h.query_measures query
  | edit edit => exact edit_mirrors edit strip
  | setUniform extent => exact (setUniform_mirrors extent).answering Reply.done strip
  | setSpacing gap => exact (setSpacing_mirrors gap).answering Reply.done strip
  | clearOverrides => rfl
  | indexAtOffset? offset =>
    refine ok_of_settled
      (fun measures ↦
        .count? (if measures.len = 0 then none else some (measures.indexAtOffset offset)))
      (measures_settleAll strip) ?_
    rw [len_measures, ← h.settleAll.indexAtOffset_eq]
    rfl
  | _ => rfl

/-! ### Runs -/

/-- A run of calls ends as it ends on the measures of the strip. -/
theorem Sound.runAll_measures (h : strip.Sound) (calls : List (Call S)) :
    Step.runAll Measures.perform calls strip.measures =
      ((Step.runAll Call.perform calls strip).1,
        (Step.runAll Call.perform calls strip).2.measures) :=
  Step.runAll_of_shown Sound (fun call _ h ↦ h.perform call)
    (fun call _ h ↦ h.perform_measures call) calls h

theorem Sound.runAll (h : strip.Sound) (calls : List (Call S)) :
    (Step.runAll Call.perform calls strip).2.Sound :=
  Step.holds_runAll Sound (fun call _ _ h ↦ h.perform call) h

/-- The call faults or answers no. -/
def Call.Refuses (call : Call S) (strip : Strip S) : Prop :=
  ∀ reply, call.perform.outcome strip = .ok reply → reply = .flag false

/-- A call that a sound strip refuses leaves its measures as they are. -/
theorem Sound.measures_after_of_refuses (h : strip.Sound) {call : Call S}
    (hrefuses : call.Refuses strip) : (call.perform.after strip).measures = strip.measures := by
  have hshown := h.perform_measures call
  have hend := Measures.ensures_edited call strip.measures
  rw [← Step.after_of_shown hshown]
  rw [Call.Refuses, ← Step.outcome_of_shown hshown] at hrefuses
  rw [Step.Ensures] at hend
  cases hplain : Measures.perform call strip.measures with
  | ok reply measures =>
    simp only [hplain] at hend
    simp only [Step.outcome, hplain] at hrefuses
    simpa only [Step.after, hplain] using hend.resolve_right fun h ↦ h.1 (hrefuses reply rfl)
  | error fault measures =>
    simp only [hplain] at hend
    simpa only [Step.after, hplain] using hend

/-- Whatever calls are made on a strip, from one in which every item has the shared extent, the
answers are those of its measures, so no answer depends on the starts that are kept. Own extents
belong to items, an item that has none gets one by the call for it only, and a call that faults or
answers no changes no later answer. -/
theorem answers_afresh (hstrip : strip.isUniform = true) (calls : List (Call S)) :
    let s := (Step.runAll Call.perform calls strip).2
    Step.runAll Measures.perform calls strip.measures =
        ((Step.runAll Call.perform calls strip).1, s.measures) ∧
      (∀ index extent, s.overrideOf index = some extent → index < s.len) ∧
      (∀ index later, s.overrideOf index = none →
        (∀ extent, .edit (.setItemExtent index extent) ∉ later) →
        (Step.runAll Call.perform later s).2.overrideOf index = none) ∧
      ∀ call : Call S, call.Refuses s → ∀ later,
        (Step.runAll Call.perform later (call.perform.after s)).1 =
          (Step.runAll Call.perform later s).1 := by
  intro s
  have hs : s.Sound := (sound_of_isUniform hstrip).runAll calls
  refine ⟨(sound_of_isUniform hstrip).runAll_measures calls, ?item, ?dropped, ?refused⟩
  case item =>
    intro index extent hown
    exact hs.lt_len index (Std.TreeMap.mem_iff_isSome_getElem?.mpr (Option.isSome_of_eq_some hown))
  case dropped =>
    intro index later hnone hlater
    have hplain : (Step.runAll Measures.perform later s.measures).2.overrideOf index = none := by
      refine Step.holds_runAll (fun measures : Measures S ↦ measures.overrideOf index = none)
        (fun call hcall measures hnone ↦ ?_) hnone
      rcases Measures.after_eq_or_edited call measures with hsame | hedited
      · rwa [hsame]
      · exact hedited.overrideOf_eq_none hnone fun extent heq ↦ hlater extent (heq ▸ hcall)
    rw [hs.runAll_measures later] at hplain
    exact hplain
  case refused =>
    intro call hrefuses later
    have hsame := (hs.perform call).runAll_measures later
    rw [hs.measures_after_of_refuses hrefuses, hs.runAll_measures later] at hsame
    exact (congrArg Prod.fst hsame).symm

/-- A strip of three items, the last of which gets an extent of its own and loses it when the strip
shrinks: growing again does not bring it back, and the offsets are those of its measures. -/
theorem answers_afresh_regrown :
    let strip : Strip Rat :=
      { len := 3, uniform := 10, spacing := 2, overrides := ∅, starts := .unset }
    let calls : List (Call Rat) :=
      [.edit (.setItemExtent 0 50), .edit (.setItemExtent 2 30), .query (.offsetOf 2),
        .edit (.setLen 2)]
    let s := (Step.runAll Call.perform calls strip).2
    strip.isUniform = true ∧
      (Step.runAll Call.perform calls strip).1 =
        (Step.runAll Measures.perform calls strip.measures).1 ∧
      s.overrideOf 2 = none ∧
      (Step.runAll Call.perform [.edit (.setLen 3)] s).2.overrideOf 2 = none := by
  intro strip calls s
  have hafresh := answers_afresh (show strip.isUniform = true from rfl) calls
  have hnone : s.overrideOf 2 = none := by decide +kernel
  refine ⟨rfl, (congrArg Prod.fst hafresh.1).symm, hnone, ?_⟩
  exact hafresh.2.2.1 2 _ hnone (by simp)

end Windowing.Strip
