import Mathlib.Data.List.Induction
import Windowing.Proofs.Reports

/-!
# Selections over a run of calls

Whatever calls are made on a selection, the list of the selected keys names none of them twice, the
set holds the same keys, and there are no more of them than the mode allows. The reports of all
calls, played back on an empty list, give the list. So the keys are listed in the order in which
they were selected last, and narrowing the mode to one key keeps the one that was selected last.

## Main definitions

* `Selection.FitsMode` — no more keys are selected than the mode allows.
* `Selection.Call.performAll` — a run of calls and the reports of all of them.

## Main results

* `Selection.Consistent.size_members` — the set holds as many keys as the list.
* `Selection.Change.selected_of_playback` — keys are listed in the order of their last selection.
* `Selection.consistent_and_reported` — what holds after any run of calls, and of any further call.
-/

namespace Windowing.Selection

variable {K : Type} [BEq K]

/-! ### How many keys are listed -/

section Counting

variable [EquivBEq K] {keys others : List K}

/-- A list without repetitions is no longer than one that holds its keys. -/
theorem Distinct.length_le (h : Distinct keys)
    (hkeys : ∀ key, keys.contains key = true → others.contains key = true) :
    keys.length ≤ others.length := by
  induction keys generalizing others with
  | nil => exact Nat.zero_le _
  | cons first rest ih =>
    have hfirst : others.contains first = true := hkeys first (by simp)
    have hrest (key : K) (hkey : rest.contains key = true) :
        (others.filter (· != first)).contains key = true := by
      have hnot : [first].contains key = false := by
        refine Bool.eq_false_iff.mpr fun hmem ↦ ?_
        exact Bool.false_ne_true ((h.contains_eq_false hmem).symm.trans hkey)
      have hother := hkeys key (by rw [List.contains_cons, hkey, Bool.or_true])
      rw [contains_filter_bne, hother, hnot]
      rfl
    have hshorter : (others.filter (· != first)).length < others.length := by
      obtain ⟨a, ha, hsame⟩ := List.contains_iff_exists_mem_beq.mp hfirst
      exact List.length_filter_lt_length_iff_exists.mpr ⟨a, ha, by simp [bne, BEq.symm hsame]⟩
    exact Nat.lt_of_le_of_lt (ih h.of_cons hrest) hshorter

variable [Hashable K] {selection : Selection K}

/-- The set of a consistent selection holds as many keys as are listed. -/
theorem Consistent.size_members [LawfulHashable K] (h : selection.Consistent) :
    selection.members.size = selection.size := by
  have hsame (key : K) :
      selection.members.toList.contains key = selection.order.contains key := by
    rw [Std.HashSet.contains_toList]
    exact h.isSelected_eq key
  have hdistinct : Distinct selection.members.toList := Std.HashSet.distinct_toList
  rw [← Std.HashSet.length_toList]
  exact Nat.le_antisymm (hdistinct.length_le fun key hkey ↦ hsame key ▸ hkey)
    (h.distinct.length_le fun key hkey ↦ (hsame key).symm ▸ hkey)

theorem Consistent.isEmpty_iff (h : selection.Consistent) :
    selection.isEmpty = true ↔ ∀ key, selection.isSelected key = false := by
  rw [isEmpty, List.isEmpty_iff]
  constructor
  · intro hnone key
    rw [h.isSelected_eq, hnone]
    rfl
  · intro hnone
    cases horder : selection.order with
    | nil => rfl
    | cons first rest =>
      have hfirst := hnone first
      rw [h.isSelected_eq, horder] at hfirst
      simp at hfirst

end Counting

/-! ### When keys were selected -/

section Recency

variable {changes : List (Change K)} {keys front rest : List K} {key : K}

omit [BEq K] in
/-- What is left of a list around one of its keys lies around that key in the whole list. -/
theorem exists_eq_of_sublist (h : (front ++ key :: rest).Sublist keys) :
    ∃ front' rest', keys = front' ++ key :: rest' ∧ front.Sublist front' := by
  obtain ⟨left, right, hsplit, hfront, hright⟩ := List.append_sublist_iff.mp h
  obtain ⟨middle, last, hsplit', hkey, -⟩ := List.cons_sublist_iff.mp hright
  obtain ⟨inner, outer, hmiddle⟩ := List.append_of_mem hkey
  refine ⟨left ++ inner, outer ++ last, ?_, hfront.trans (List.sublist_append_left left inner)⟩
  rw [hsplit, hsplit', hmiddle, List.append_assoc, List.append_assoc, List.cons_append]

theorem contains_eq_false_of_subset (h : front ⊆ keys) (hkey : keys.contains key = false) :
    front.contains key = false := by
  refine Bool.eq_false_iff.mpr fun hfront ↦ ?_
  obtain ⟨other, hother, hsame⟩ := List.contains_iff_exists_mem_beq.mp hfront
  have hlisted := List.contains_iff_exists_mem_beq.mpr ⟨other, h hother, hsame⟩
  exact Bool.false_ne_true (hkey.symm.trans hlisted)

/-- The keys are listed in the order in which they were selected last: since a key was, neither it
nor a key that is listed before it was selected again. -/
theorem Change.selected_of_playback (h : playback [] changes = some (front ++ key :: rest)) :
    ∃ earlier later, changes = earlier ++ .selected key :: later ∧
      ∀ other, .selected other ∈ later → (front ++ [key]).contains other = false := by
  induction changes using List.reverseRecOn generalizing front rest with
  | nil => cases front <;> cases h
  | append_singleton init change ih =>
    rw [playback_append] at h
    obtain ⟨listed, hinit, hlast⟩ := Option.bind_eq_some_iff.mp h
    rw [playback] at hlast
    split at hlast
    case isFalse => cases hlast
    case isTrue hfits =>
      have happly := Option.some.inj hlast
      cases change with
      | unselected dropped =>
        have hsublist : (front ++ key :: rest).Sublist listed := happly ▸ List.erase_sublist
        obtain ⟨front', rest', rfl, hfront⟩ := exists_eq_of_sublist hsublist
        obtain ⟨earlier, later, rfl, hlater⟩ := ih hinit
        refine ⟨earlier, later ++ [.unselected dropped], by simp, fun other hother ↦ ?_⟩
        have hmem : .selected other ∈ later := by simpa using hother
        exact contains_eq_false_of_subset (hfront.append_right [key]).subset (hlater other hmem)
      | selected added =>
        rcases List.eq_nil_or_concat rest with rfl | ⟨rest', last, rfl⟩
        · -- The key itself is the one that has just been selected.
          obtain ⟨-, hkey⟩ := List.append_inj' happly rfl
          obtain rfl := List.singleton_inj.mp hkey
          exact ⟨init, [], rfl, by simp⟩
        · have hshift : front ++ key :: rest'.concat last = (front ++ key :: rest') ++ [last] := by
            simp
          obtain ⟨rfl, -⟩ := List.append_inj' (happly.trans hshift) rfl
          obtain ⟨earlier, later, rfl, hlater⟩ := ih hinit
          refine ⟨earlier, later ++ [.selected added], by simp, fun other hother ↦ ?_⟩
          rcases List.mem_append.mp hother with hmem | hmem
          · exact hlater other hmem
          · obtain rfl : other = added := by simpa using hmem
            have hnew : (front ++ key :: rest').contains other = false := by
              simpa only [fits, Bool.not_eq_true'] using hfits
            refine contains_eq_false_of_subset ?_ hnew
            exact ((List.Sublist.cons_cons key (List.nil_sublist rest')).append_left front).subset

end Recency

/-! ### How many keys a mode allows -/

variable [Hashable K] {selection : Selection K}

/-- No more keys are selected than the mode allows. -/
def FitsMode (selection : Selection K) : Prop :=
  ∀ limit ∈ selection.mode.limit?, selection.size ≤ limit

theorem fitsMode_ofMode (mode : SelectionMode) : (ofMode mode : Selection K).FitsMode :=
  fun limit _ ↦ Nat.zero_le limit

theorem size_dropOldest (count : Nat) (selection : Selection K) :
    (selection.dropOldest count).1.size = selection.size - count :=
  List.length_drop

/-- The mode stays, and no key comes in. -/
theorem FitsMode.of_le {after : Selection K} (h : selection.FitsMode)
    (hmode : after.mode = selection.mode) (hsize : after.size ≤ selection.size) :
    after.FitsMode :=
  fun limit hlimit ↦ Nat.le_trans hsize (h limit (hmode ▸ hlimit))

/-- The key that was selected before makes room for the next one in single mode. -/
theorem FitsMode.select (h : selection.FitsMode) (inBounds : K → Bool) (key : K) :
    (selection.select inBounds key).1.FitsMode := by
  rw [Selection.select]
  split
  · exact h
  · next hselects =>
    by_cases hsingle : selection.mode = .single
    · rw [if_pos hsingle]
      intro limit hlimit
      obtain rfl : 1 = limit := by simpa [dropOldest, hsingle, SelectionMode.limit?] using hlimit
      simp [size, dropOldest]
    · rw [if_neg hsingle]
      intro limit hlimit
      cases hmode : selection.mode with
      | none => exact absurd (.inl hmode) hselects
      | single => exact absurd hmode hsingle
      | multiple => simp [hmode, SelectionMode.limit?] at hlimit

theorem Call.perform_fitsMode (call : Call K) (h : selection.FitsMode) :
    (call.perform selection).1.FitsMode := by
  cases call with
  | select inBounds key => exact h.select inBounds key
  | unselect key =>
    rw [perform, Selection.unselect]
    split
    · exact h.of_le rfl (List.length_filter_le _ _)
    · exact h
  | unselectAll => exact h.of_le rfl (Nat.zero_le _)
  | retain inBounds => exact h.of_le rfl (List.length_filter_le _ _)
  | setMode mode =>
    intro limit hlimit
    cases mode with
    | multiple => cases hlimit
    | none | single =>
      obtain rfl := Option.some.inj hlimit
      rw [perform, Selection.setMode]
      dsimp only [SelectionMode.limit?]
      rw [size_dropOldest]
      dsimp only [size]
      omega

/-! ### What single calls keep -/

/-- Narrowing the mode to one key keeps the last one of the list. -/
theorem order_setMode_single (selection : Selection K) :
    (selection.setMode .single).1.order = selection.order.getLast?.toList := by
  have hdrop : (selection.setMode .single).1.order =
      selection.order.drop (selection.order.length - 1) := rfl
  rw [hdrop]
  rcases List.eq_nil_or_concat selection.order with hnone | ⟨front, last, hsplit⟩
  · rw [hnone]
    rfl
  · rw [hsplit]
    simp

/-! ### Runs of calls -/

/-- Makes calls one after another; answers all changes, in order. -/
def Call.performAll : List (Call K) → Selection K → Selection K × List (Change K)
  | [], selection => (selection, [])
  | call :: rest, selection =>
    let next := call.perform selection
    let last := performAll rest next.1
    (last.1, next.2 ++ last.2)

theorem Call.performAll_fitsMode (calls : List (Call K)) (h : selection.FitsMode) :
    (performAll calls selection).1.FitsMode := by
  induction calls generalizing selection with
  | nil => exact h
  | cons call rest ih => exact ih (call.perform_fitsMode h)

variable [EquivBEq K] [LawfulHashable K]

theorem Call.performAll_yields (calls : List (Call K)) (h : selection.Consistent) :
    selection.Yields (performAll calls selection).2 (performAll calls selection).1 := by
  induction calls generalizing selection with
  | nil => exact h.refl_yields
  | cons call rest ih =>
    have hnext := call.perform_yields h
    exact hnext.trans (ih hnext.consistent)

/-- After any run of calls, the list of the selected keys names none of them twice, the set holds
the same keys, and there are no more of them than the mode allows. Every further call reports
changes that lead from the list to the next one, none of them out of place. Narrowing the mode to
one key keeps the last of the list, which no key that is selected was selected after, and keeping
the keys that are in bounds keeps them in order. -/
theorem consistent_and_reported (mode : SelectionMode) (calls : List (Call K)) :
    let run := Call.performAll calls (ofMode mode : Selection K)
    let selection := run.1
    (selection.order.Pairwise (fun a b ↦ (a == b) = false) ∧
      (∀ key, selection.isSelected key = selection.order.contains key) ∧
      selection.members.size = selection.size ∧
      (selection.isEmpty = true ↔ ∀ key, selection.isSelected key = false)) ∧
    ((selection.mode = .none → selection.order = []) ∧
      (selection.mode = .single → selection.size ≤ 1)) ∧
    (∀ call : Call K, Change.playback selection.order (call.perform selection).2 =
      some (call.perform selection).1.order) ∧
    ((selection.setMode .single).1.order = selection.order.getLast?.toList ∧
      ∀ last ∈ selection.order.getLast?, ∃ earlier later,
        run.2 = earlier ++ .selected last :: later ∧
          ∀ key, .selected key ∈ later → selection.isSelected key = false) ∧
    ∀ inBounds, (selection.retain inBounds).1.order = selection.order.filter inBounds := by
  intro run selection
  have hyields := Call.performAll_yields calls (consistent_ofMode (K := K) mode)
  have hconsistent : selection.Consistent := hyields.consistent
  have hfits : selection.FitsMode := Call.performAll_fitsMode calls (fitsMode_ofMode mode)
  refine ⟨⟨hconsistent.distinct, hconsistent.isSelected_eq, hconsistent.size_members,
    hconsistent.isEmpty_iff⟩, ⟨fun hnone ↦ ?none, fun hsingle ↦ ?single⟩,
    fun call ↦ (call.perform_yields hconsistent).playback_eq,
    ⟨order_setMode_single selection, fun last hlast ↦ ?last⟩, fun _ ↦ rfl⟩
  case none =>
    have hsize := hfits 0 (hnone ▸ rfl)
    exact List.eq_nil_of_length_eq_zero (Nat.le_zero.mp hsize)
  case single => exact hfits 1 (hsingle ▸ rfl)
  case last =>
    obtain ⟨front, hfront⟩ := List.getLast?_eq_some_iff.mp hlast
    have hplayback := hyields.playback_eq
    obtain ⟨earlier, later, hsplit, hlater⟩ :=
      Change.selected_of_playback (hfront ▸ hplayback)
    refine ⟨earlier, later, hsplit, fun key hkey ↦ ?_⟩
    rw [hconsistent.isSelected_eq, hfront]
    exact hlater key hkey

/-- Three items of a list are selected, one of them is unselected and selected again; the list
shrinks, so one of them is lost. Of the two others the one that was selected again is the last. -/
theorem consistent_and_reported_again :
    let calls : List (Call Nat) :=
      [.select (· < 9) 4, .select (· < 9) 7, .select (· < 9) 2, .unselect 4, .select (· < 9) 4,
        .retain (· < 6)]
    let run := Call.performAll calls (ofMode .multiple)
    let selection := run.1
    selection.order = [2, 4] ∧
      (∀ key, selection.isSelected key = selection.order.contains key) ∧
      selection.members.size = 2 ∧
      Change.playback [2, 4] (selection.unselect 2).2 = some [4] ∧
      (selection.setMode .single).1.order = [4] ∧
      (∃ earlier later, run.2 = earlier ++ .selected 4 :: later ∧
        ∀ key, .selected key ∈ later → selection.isSelected key = false) ∧
      (selection.retain (· < 3)).1.order = [2] := by
  intro calls run selection
  obtain ⟨⟨-, hselected, hsize, -⟩, -, hreports, ⟨hsingle, hlast⟩, hretain⟩ :=
    consistent_and_reported .multiple calls
  have horder : selection.order = [2, 4] := by cbv
  have hlost : ((Call.unselect 2).perform selection).1.order = [4] := by cbv
  have hunselected := hreports (.unselect 2)
  rw [hlost, horder] at hunselected
  rw [horder] at hsingle hlast
  have hsizes : selection.size = 2 := congrArg List.length horder
  refine ⟨horder, hselected, hsize.trans hsizes, hunselected, hsingle, hlast 4 rfl, ?_⟩
  exact (hretain _).trans (congrArg (List.filter (· < 3)) horder)

end Windowing.Selection
