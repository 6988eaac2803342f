import Mathlib.Data.List.Nodup
import Windowing.Selection

/-!
# Reports of selections

Whoever follows the reports of a selection keeps a list of keys of their own: a key that became
selected goes to the end, and a key that stopped being selected is taken out. A report is out of
place if it selects a key that is listed, or takes out one that is not. Every operation on a
consistent selection reports such changes that the list ends up as the selection does, none of them
out of place.

Keys may compare equal without being the same, as long as they hash alike. A selection whose keys
compare equal only if they are the same is said to be sound where it is consistent.

## Main definitions

* `Selection.Change.playback` — a list of keys after changes none of which is out of place.
* `Selection.Consistent`, `Selection.Sound` — the list of selected keys and the set of them agree.
* `Selection.Yields`, `Selection.Moves` — the reports lead from one selection to another.

## Main results

* `Selection.Call.perform_yields` — every operation reports what it does.
* `Selection.Call.perform_moves` — the same where only equal keys compare equal.
-/

namespace Windowing.Selection

variable {K : Type} [BEq K]

/-! ### Playing reports back -/

/-- Whether a change is in place for the keys listed: only a key that is not listed becomes
selected, and only one that is stops being so. -/
def Change.fits (keys : List K) : Change K → Bool
  | selected key => !keys.contains key
  | unselected key => keys.contains key

/-- The keys listed after a list of changes, unless a change is out of place. -/
def Change.playback (keys : List K) : List (Change K) → Option (List K)
  | [] => some keys
  | change :: rest => if change.fits keys then playback (change.apply keys) rest else none

theorem Change.playback_append (keys : List K) (first rest : List (Change K)) :
    playback keys (first ++ rest) = (playback keys first).bind (playback · rest) := by
  induction first generalizing keys with
  | nil => rfl
  | cons change first ih =>
    rw [List.cons_append, playback, playback]
    split
    · exact ih _
    · rfl

/-- Keys are taken out of the front of the list one after another. -/
theorem Change.playback_front [ReflBEq K] (front rest : List K) :
    playback (front ++ rest) (front.map .unselected) = some rest := by
  induction front with
  | nil => rfl
  | cons key front ih =>
    have hfits : (Change.unselected key).fits (key :: (front ++ rest)) = true := by simp [fits]
    have happly : (Change.unselected key).apply (key :: (front ++ rest)) = front ++ rest := by
      simp [apply, List.erase_cons]
    rw [List.map_cons, List.cons_append, playback, if_pos hfits, happly]
    exact ih

/-! ### Lists without repeated keys -/

/-- No key is listed twice. Keys that compare equal count as the same key. -/
def Distinct (keys : List K) : Prop :=
  keys.Pairwise fun a b ↦ (a == b) = false

theorem distinct_iff_nodup [LawfulBEq K] {keys : List K} : Distinct keys ↔ keys.Nodup := by
  simp only [Distinct, List.Nodup, beq_eq_false_iff_ne]

section Distinct

variable [EquivBEq K] {keys front rest dropped kept : List K} {key : K}

theorem Distinct.contains_eq_false (h : Distinct (front ++ rest))
    (hkey : front.contains key = true) : rest.contains key = false := by
  refine Bool.eq_false_iff.mpr fun hrest ↦ ?_
  obtain ⟨a, ha, hsame⟩ := List.contains_iff_exists_mem_beq.mp hkey
  obtain ⟨b, hb, hsame'⟩ := List.contains_iff_exists_mem_beq.mp hrest
  have hne := (List.pairwise_append.mp h).2.2 a ha b hb
  exact Bool.false_ne_true (hne.symm.trans (BEq.trans (BEq.symm hsame) hsame'))

theorem Distinct.perm (h : Distinct keys) (hperm : keys.Perm kept) : Distinct kept :=
  (hperm.pairwise_iff BEq.symm_false).mp h

theorem Distinct.append_singleton (h : Distinct keys) (hkey : keys.contains key = false) :
    Distinct (keys ++ [key]) := by
  refine List.pairwise_append.mpr ⟨h, List.pairwise_singleton _ key, fun other hother _ hadded ↦ ?_⟩
  obtain rfl := List.mem_singleton.mp hadded
  refine Bool.eq_false_iff.mpr fun hsame ↦ ?_
  have hlisted := List.contains_iff_exists_mem_beq.mpr ⟨other, hother, BEq.symm hsame⟩
  exact Bool.false_ne_true (hkey.symm.trans hlisted)

/-- Changes in place list no key twice. -/
theorem Change.distinct_apply (h : Distinct keys) {change : Change K}
    (hfits : change.fits keys = true) : Distinct (change.apply keys) := by
  cases change with
  | selected added => exact h.append_singleton (by simpa [fits] using hfits)
  | unselected dropped => exact h.sublist List.erase_sublist

/-- The keys that are kept are those that are not dropped. -/
theorem Distinct.contains_kept (h : Distinct keys) (hperm : keys.Perm (dropped ++ kept))
    (key : K) : kept.contains key = (keys.contains key && !dropped.contains key) := by
  rw [hperm.contains_eq, List.contains_append]
  cases hdropped : dropped.contains key with
  | false => simp
  | true => simp [(h.perm hperm).contains_eq_false hdropped]

theorem contains_filter_bne (keys : List K) (dropped key : K) :
    (keys.filter (· != dropped)).contains key =
      (keys.contains key && !([dropped] : List K).contains key) := by
  rw [Bool.eq_iff_iff, Bool.and_eq_true, List.contains_iff_exists_mem_beq,
    List.contains_iff_exists_mem_beq, List.contains_cons, List.contains_nil, Bool.or_false]
  constructor
  · rintro ⟨a, ha, hsame⟩
    obtain ⟨ha, hne⟩ := List.mem_filter.mp ha
    rw [bne, ← BEq.congr_left hsame] at hne
    exact ⟨⟨a, ha, hsame⟩, hne⟩
  · rintro ⟨⟨a, ha, hsame⟩, hne⟩
    rw [BEq.congr_left hsame] at hne
    exact ⟨a, List.mem_filter.mpr ⟨ha, hne⟩, hsame⟩

/-- Taking a key out of a list without repetitions takes out every key that equals it. -/
theorem Distinct.erase_eq_filter (h : Distinct keys) (key : K) :
    keys.erase key = keys.filter (· != key) := by
  induction keys with
  | nil => rfl
  | cons first rest ih =>
    obtain ⟨hfirst, hrest⟩ := List.pairwise_cons.mp h
    rw [List.erase_cons]
    cases hsame : first == key with
    | false =>
      rw [if_neg Bool.false_ne_true, List.filter_cons_of_pos (by simp [bne, hsame]), ih hrest]
    | true =>
      rw [if_pos rfl, List.filter_cons_of_neg (by simp [bne, hsame])]
      refine (List.filter_eq_self.mpr fun other hother ↦ ?_).symm
      rw [bne, ← BEq.congr_right hsame, BEq.symm_false (hfirst other hother)]
      rfl

/-- Taking out the keys that are not kept leaves the others in order. -/
theorem Change.playback_filter (keep : K → Bool) (kept rest : List K)
    (h : Distinct (kept ++ rest)) :
    playback (kept ++ rest) ((rest.filter fun key ↦ !keep key).map .unselected) =
      some (kept ++ rest.filter keep) := by
  induction rest generalizing kept with
  | nil => rfl
  | cons key rest ih =>
    cases hkeep : keep key with
    | true =>
      have hshift : kept ++ key :: rest = (kept ++ [key]) ++ rest := by simp
      rw [List.filter_cons_of_neg (by simp [hkeep]), List.filter_cons_of_pos hkeep, hshift,
        ih (kept ++ [key]) (hshift ▸ h), List.append_assoc, List.singleton_append]
    | false =>
      have hkey (other : K) (hother : other ∈ kept) : ¬(other == key) = true := by
        have hne := (List.pairwise_append.mp h).2.2 other hother key List.mem_cons_self
        exact Bool.eq_false_iff.mp hne
      have hfits : (Change.unselected key).fits (kept ++ key :: rest) = true := by simp [fits]
      have happly : (Change.unselected key).apply (kept ++ key :: rest) = kept ++ rest := by
        rw [apply, List.erase_eq_eraseP', List.eraseP_append_right _ hkey, ← List.erase_eq_eraseP',
          List.erase_cons, if_pos BEq.rfl]
      rw [List.filter_cons_of_pos (by simp [hkeep]), List.filter_cons_of_neg (by simp [hkeep]),
        List.map_cons, playback, if_pos hfits, happly]
      exact ih kept (h.sublist ((List.sublist_cons_self ..).append_left _))

end Distinct

/-! ### Consistent selections -/

variable [Hashable K]

/-- The selected keys are listed once each, and the set holds the same keys as the list. Keys that
compare equal count as the same key. -/
structure Consistent (selection : Selection K) : Prop where
  distinct : Distinct selection.order
  isSelected_eq : ∀ key, selection.isSelected key = selection.order.contains key

/-- The changes lead from one selection to another, which is consistent. -/
structure Yields (before : Selection K) (changes : List (Change K)) (after : Selection K) :
    Prop where
  consistent : after.Consistent
  playback_eq : Change.playback before.order changes = some after.order

variable {selection : Selection K}

theorem Consistent.refl_yields (h : selection.Consistent) : selection.Yields [] selection :=
  ⟨h, rfl⟩

theorem Yields.trans {a b c : Selection K} {first rest : List (Change K)}
    (hab : a.Yields first b) (hbc : b.Yields rest c) : a.Yields (first ++ rest) c where
  consistent := hbc.consistent
  playback_eq := by
    rw [Change.playback_append, hab.playback_eq]
    exact hbc.playback_eq

theorem consistent_ofMode (mode : SelectionMode) : (ofMode mode : Selection K).Consistent where
  distinct := List.Pairwise.nil
  isSelected_eq _ := Std.HashSet.contains_empty

section Operations

variable [EquivBEq K] [LawfulHashable K]

/-- Erasing keys from a set one after another. -/
theorem contains_foldl_erase (dropped : List K) (members : Std.HashSet K) (key : K) :
    (dropped.foldl Std.HashSet.erase members).contains key =
      (members.contains key && !dropped.contains key) := by
  induction dropped generalizing members with
  | nil => simp
  | cons first dropped ih =>
    rw [List.foldl_cons, ih, Std.HashSet.contains_erase, List.contains_cons, BEq.comm]
    cases key == first <;> simp

/-- Dropping some of the keys leaves a consistent selection of the others. -/
theorem Consistent.without (h : selection.Consistent) {dropped kept : List K}
    (hsublist : kept.Sublist selection.order)
    (hkept : ∀ key, kept.contains key =
      (selection.order.contains key && !dropped.contains key)) :
    Consistent { selection with
      order := kept, members := dropped.foldl Std.HashSet.erase selection.members } where
  distinct := h.distinct.sublist hsublist
  isSelected_eq key := by
    rw [isSelected, contains_foldl_erase, ← isSelected, h.isSelected_eq, hkept]

theorem dropOldest_yields (count : Nat) (h : selection.Consistent) :
    selection.Yields (selection.dropOldest count).2 (selection.dropOldest count).1 := by
  have hsplit := List.take_append_drop count selection.order
  refine ⟨h.without (List.drop_sublist count _) (h.distinct.contains_kept (by rw [hsplit])), ?_⟩
  have hfront := Change.playback_front (selection.order.take count) (selection.order.drop count)
  rwa [hsplit] at hfront

/-- Keys that the new mode has no room for are reported. -/
theorem setMode_yields (mode : SelectionMode) (h : selection.Consistent) :
    selection.Yields (selection.setMode mode).2 (selection.setMode mode).1 := by
  have hmode : Consistent { selection with mode } := ⟨h.distinct, h.isSelected_eq⟩
  rw [setMode]
  cases mode.limit? with
  | none => exact ⟨hmode, rfl⟩
  | some limit =>
    have hdropped := dropOldest_yields (selection.size - limit) hmode
    exact ⟨hdropped.consistent, hdropped.playback_eq⟩

/-- A key that is not selected is added at the end. -/
theorem Consistent.add_yields (h : selection.Consistent) {key : K}
    (hkey : selection.order.contains key = false) :
    selection.Yields [.selected key] { selection with
      order := selection.order ++ [key], members := selection.members.insert key } where
  consistent := by
    refine ⟨h.distinct.append_singleton hkey, fun other ↦ ?_⟩
    rw [isSelected, Std.HashSet.contains_insert, ← isSelected, h.isSelected_eq,
      List.contains_append, List.contains_cons, List.contains_nil, Bool.or_false, BEq.comm,
      Bool.or_comm]
  playback_eq := by
    have hfits : (Change.selected key).fits selection.order = true := by simp [Change.fits, hkey]
    rw [Change.playback, if_pos hfits]
    rfl

/-- Selecting a key reports the key that gave way to it, and then the key itself. -/
theorem select_yields (inBounds : K → Bool) (key : K) (h : selection.Consistent) :
    selection.Yields (selection.select inBounds key).2 (selection.select inBounds key).1 := by
  rw [select]
  split
  · exact h.refl_yields
  · next hselects =>
    have hkey : selection.order.contains key = false := by
      rw [← h.isSelected_eq]
      exact Bool.eq_false_iff.mpr fun hselected ↦ hselects (.inr (.inr hselected))
    by_cases hsingle : selection.mode = .single
    · simp only [if_pos hsingle]
      have hdropped := dropOldest_yields selection.size h
      have hnone : (selection.dropOldest selection.size).1.order = [] := List.drop_length
      exact hdropped.trans (hdropped.consistent.add_yields (hnone ▸ rfl))
    · simp only [if_neg hsingle]
      exact h.add_yields hkey

theorem unselect_yields (key : K) (h : selection.Consistent) :
    selection.Yields (selection.unselect key).2 (selection.unselect key).1 := by
  rw [unselect]
  split
  · next hselected =>
    refine ⟨h.without List.filter_sublist (contains_filter_bne selection.order key), ?_⟩
    have hfits : (Change.unselected key).fits selection.order = true := by
      rw [Change.fits, ← h.isSelected_eq, hselected]
    rw [Change.playback, if_pos hfits, Change.apply, h.distinct.erase_eq_filter]
    rfl
  · exact h.refl_yields

omit [LawfulHashable K] in
/-- All keys are reported, oldest first. -/
theorem unselectAll_yields (selection : Selection K) :
    selection.Yields selection.unselectAll.2 selection.unselectAll.1 where
  consistent := ⟨List.Pairwise.nil, fun _ ↦ Std.HashSet.contains_empty⟩
  playback_eq := by
    have hfront := Change.playback_front selection.order []
    rwa [List.append_nil] at hfront

/-- The keys that are out of bounds are reported. -/
theorem retain_yields (inBounds : K → Bool) (h : selection.Consistent) :
    selection.Yields (selection.retain inBounds).2 (selection.retain inBounds).1 := by
  have hperm := List.filter_append_perm (fun key ↦ !inBounds key) selection.order
  simp only [Bool.not_not] at hperm
  exact ⟨h.without List.filter_sublist (h.distinct.contains_kept hperm.symm),
    Change.playback_filter inBounds [] selection.order h.distinct⟩

/-- Every operation reports what it does. -/
theorem Call.perform_yields (call : Call K) (h : selection.Consistent) :
    selection.Yields (call.perform selection).2 (call.perform selection).1 := by
  cases call with
  | select inBounds key => exact select_yields inBounds key h
  | unselect key => exact unselect_yields key h
  | unselectAll => exact unselectAll_yields selection
  | retain inBounds => exact retain_yields inBounds h
  | setMode mode => exact setMode_yields mode h

end Operations

/-! ### Sound selections -/

/-- The selected keys are listed once each, and the set holds the same keys as the list. -/
structure Sound (selection : Selection K) : Prop where
  nodup : selection.order.Nodup
  isSelected_iff : ∀ key, selection.isSelected key = true ↔ key ∈ selection.order

/-- The changes lead from one selection to another, which is sound. -/
structure Moves (before : Selection K) (changes : List (Change K)) (after : Selection K) :
    Prop where
  sound : after.Sound
  playback_eq : Change.playback before.order changes = some after.order

theorem sound_ofMode (mode : SelectionMode) : (ofMode mode : Selection K).Sound where
  nodup := List.nodup_nil
  isSelected_iff key := by simp [isSelected, ofMode]

theorem Sound.refl_moves (h : selection.Sound) : selection.Moves [] selection :=
  ⟨h, rfl⟩

theorem Moves.trans {a b c : Selection K} {first rest : List (Change K)} (hab : a.Moves first b)
    (hbc : b.Moves rest c) : a.Moves (first ++ rest) c where
  sound := hbc.sound
  playback_eq := by
    rw [Change.playback_append, hab.playback_eq]
    exact hbc.playback_eq

variable [LawfulBEq K]

/-- Where only equal keys compare equal, a sound selection is a consistent one. -/
theorem sound_iff_consistent : selection.Sound ↔ selection.Consistent := by
  constructor
  · intro h
    refine ⟨distinct_iff_nodup.mpr h.nodup, fun key ↦ ?_⟩
    rw [Bool.eq_iff_iff, h.isSelected_iff, List.contains_iff_mem]
  · intro h
    refine ⟨distinct_iff_nodup.mp h.distinct, fun key ↦ ?_⟩
    rw [h.isSelected_eq, List.contains_iff_mem]

theorem Sound.isSelected_eq (h : selection.Sound) :
    selection.isSelected = selection.order.contains :=
  funext (sound_iff_consistent.mp h).isSelected_eq

/-- Every operation reports what it does. -/
theorem Call.perform_moves (call : Call K) (h : selection.Sound) :
    selection.Moves (call.perform selection).2 (call.perform selection).1 := by
  have hyields := call.perform_yields (sound_iff_consistent.mp h)
  exact ⟨sound_iff_consistent.mpr hyields.consistent, hyields.playback_eq⟩

theorem setMode_moves (mode : SelectionMode) (h : selection.Sound) :
    selection.Moves (selection.setMode mode).2 (selection.setMode mode).1 :=
  (Call.setMode mode).perform_moves h

theorem select_moves (inBounds : K → Bool) (key : K) (h : selection.Sound) :
    selection.Moves (selection.select inBounds key).2 (selection.select inBounds key).1 :=
  (Call.select inBounds key).perform_moves h

theorem unselect_moves (key : K) (h : selection.Sound) :
    selection.Moves (selection.unselect key).2 (selection.unselect key).1 :=
  (Call.unselect key).perform_moves h

theorem unselectAll_moves (selection : Selection K) :
    selection.Moves selection.unselectAll.2 selection.unselectAll.1 := by
  have hyields := unselectAll_yields selection
  exact ⟨sound_iff_consistent.mpr hyields.consistent, hyields.playback_eq⟩

theorem retain_moves (inBounds : K → Bool) (h : selection.Sound) :
    selection.Moves (selection.retain inBounds).2 (selection.retain inBounds).1 :=
  (Call.retain inBounds).perform_moves h

end Windowing.Selection
