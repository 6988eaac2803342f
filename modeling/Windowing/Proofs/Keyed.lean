import Mathlib.Data.List.Basic
import Mathlib.Data.List.Perm.Basic
import Windowing.Keyed

/-!
# Entries of keyed stores

A lookup in a keyed store and the list of its entries say the same. Taking the entry of a key
out of the list loses nothing else, so what is counted over a store is counted over the entry of
one key and the store without it.

## Main results

* `Keyed.find?_eq_some_iff`, `Keyed.mem_values_iff` — lookups and members.
* `Keyed.entries_perm_of_find?` — a store is the entry of a key and the store without it.
-/

namespace Windowing.Keyed

variable {K A : Type} [DecidableEq K] {store : Keyed K A} {key : K} {value : A}

/-- A value is found under a key exactly when the two are an entry. -/
theorem find?_eq_some_iff : store.find? key = some value ↔ (key, value) ∈ store.entries := by
  obtain ⟨entries, nodup⟩ := store
  simp only [find?]
  induction entries with
  | nil => simp
  | cons entry rest ih =>
    obtain ⟨k, a⟩ := entry
    simp only [List.map_cons, List.nodup_cons] at nodup
    by_cases hk : k = key
    · subst hk
      have hrest : (k, value) ∉ rest := fun h ↦ nodup.1 (List.mem_map_of_mem h)
      simp [hrest, eq_comm]
    · have hne : ¬ key = k := fun h ↦ hk h.symm
      simpa [hk, hne] using ih nodup.2

theorem find?_eq_none_iff : store.find? key = none ↔ key ∉ store.keys := by
  rw [← not_iff_not, not_not, ← ne_eq, Option.ne_none_iff_exists', keys, List.mem_map]
  constructor
  · rintro ⟨value, h⟩
    exact ⟨(key, value), find?_eq_some_iff.mp h, rfl⟩
  · rintro ⟨⟨k, value⟩, h, rfl⟩
    exact ⟨value, find?_eq_some_iff.mpr h⟩

theorem mem_keys_of_find? (h : store.find? key = some value) : key ∈ store.keys :=
  List.mem_map_of_mem (find?_eq_some_iff.mp h)

/-- The stored values are those that are found under some key. -/
theorem mem_values_iff : value ∈ store.values ↔ ∃ key, store.find? key = some value := by
  simp only [values, List.mem_map, Prod.exists, exists_eq_right, find?_eq_some_iff]

omit [DecidableEq K] in
theorem length_values : store.values.length = store.size := by
  rw [values, List.length_map, size]

/-- A store without a value under a key is not changed by erasing it. -/
theorem entries_erase_of_find?_eq_none (h : store.find? key = none) :
    (store.erase key).entries = store.entries := by
  refine List.filter_eq_self.mpr fun entry hentry ↦ ?_
  have hne : entry.1 ≠ key := by
    rintro rfl
    exact find?_eq_none_iff.mp h (List.mem_map_of_mem hentry)
  exact decide_eq_true hne

/-- The entries of a store are the entry of a key and those of the store without it. -/
theorem entries_perm_of_find? (h : store.find? key = some value) :
    store.entries.Perm ((key, value) :: (store.erase key).entries) := by
  rw [find?_eq_some_iff] at h
  obtain ⟨entries, nodup⟩ := store
  simp only [erase] at h ⊢
  induction entries with
  | nil => simp at h
  | cons entry rest ih =>
    obtain ⟨k, a⟩ := entry
    simp only [List.map_cons, List.nodup_cons] at nodup
    rcases List.mem_cons.mp h with heq | hrest
    · obtain ⟨rfl, rfl⟩ := Prod.mk.inj heq
      have hkeep : rest.filter (fun entry ↦ entry.1 ≠ key) = rest := by
        refine List.filter_eq_self.mpr fun entry hentry ↦ decide_eq_true ?_
        rintro rfl
        exact nodup.1 (List.mem_map_of_mem hentry)
      rw [List.filter_cons_of_neg (by simp), hkeep]
    · have hk : k ≠ key := by
        rintro rfl
        exact nodup.1 (List.mem_map_of_mem hrest)
      rw [List.filter_cons_of_pos (by simpa using hk)]
      exact ((ih nodup.2 hrest).cons _).trans (.swap ..)

theorem values_perm_of_find? (h : store.find? key = some value) :
    store.values.Perm (value :: (store.erase key).values) :=
  (entries_perm_of_find? h).map Prod.snd

omit [DecidableEq K] in
/-- A store is its list of entries. -/
theorem ext_entries {other : Keyed K A} (h : store.entries = other.entries) : store = other := by
  cases store
  cases other
  simp_all

/-- Writing a value twice under one key leaves the second one. -/
theorem insert_insert (old : A) :
    (store.insert key old).insert key value = store.insert key value := by
  refine ext_entries (congrArg ((key, value) :: ·) ?_)
  simp [insert, erase]

theorem values_insert :
    (store.insert key value).values = value :: (store.erase key).values := rfl

end Windowing.Keyed
