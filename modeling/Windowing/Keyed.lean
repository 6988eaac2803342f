/-!
# Finite maps as lists of entries

A keyed store holds at most one value under each key. It is a list of entries, the one
written last first; every operation is a short recursion on that list.

## Main definitions

* `Keyed` — the store.
* `Keyed.find?`, `Keyed.insert`, `Keyed.erase` — looking up, writing and removing.

## Main results

* `Keyed.find?_insert`, `Keyed.find?_erase` — what is found after writing and removing.
-/

namespace Windowing

/-- Values stored under keys. -/
structure Keyed (K A : Type) where
  /-- The keys and their values, the one written last first. -/
  entries : List (K × A)
  /-- A key has at most one value. -/
  nodup : (entries.map Prod.fst).Nodup

namespace Keyed

variable {K A : Type} [DecidableEq K]

/-- The store that holds nothing. -/
def empty : Keyed K A where
  entries := []
  nodup := List.nodup_nil

/-- The keys that have a value. -/
def keys (store : Keyed K A) : List K :=
  store.entries.map Prod.fst

/-- The stored values. -/
def values (store : Keyed K A) : List A :=
  store.entries.map Prod.snd

/-- The number of stored values. -/
def size (store : Keyed K A) : Nat :=
  store.entries.length

/-- The value under a key. -/
def find? (store : Keyed K A) (key : K) : Option A :=
  (store.entries.find? fun entry ↦ entry.1 = key).map Prod.snd

/-- The store without the value under a key. -/
def erase (key : K) (store : Keyed K A) : Keyed K A where
  entries := store.entries.filter fun entry ↦ entry.1 ≠ key
  nodup := List.Pairwise.sublist (List.filter_sublist.map Prod.fst) store.nodup

/-- An erased key has no value. -/
theorem notMem_keys_erase (store : Keyed K A) (key : K) : key ∉ (store.erase key).keys := by
  simp [keys, erase]

/-- The store with a value under a key, in place of the one that was there. -/
def insert (key : K) (value : A) (store : Keyed K A) : Keyed K A where
  entries := (key, value) :: (store.erase key).entries
  nodup := List.nodup_cons.mpr ⟨store.notMem_keys_erase key, (store.erase key).nodup⟩

/-! ### Looking up what was written -/

@[simp]
theorem find?_empty (key : K) : (empty : Keyed K A).find? key = none := rfl

/-- Erasing a key leaves the values under all other keys. -/
theorem find?_erase (store : Keyed K A) (key other : K) :
    (store.erase key).find? other = if other = key then none else store.find? other := by
  obtain ⟨entries, nodup⟩ := store
  simp only [erase, find?]
  clear nodup
  induction entries with
  | nil => simp
  | cons entry rest ih =>
    obtain ⟨k, a⟩ := entry
    by_cases hk : k = key
    · subst hk
      by_cases ho : other = k
      · simp [ho]
      · have hko : ¬ k = other := fun h ↦ ho h.symm
        simpa [ho, hko] using ih
    · by_cases ho : k = other
      · subst ho
        simp [hk]
      · simpa [hk, ho] using ih

/-- A written value is found under its key, and the values under all other keys stay. -/
theorem find?_insert (store : Keyed K A) (key other : K) (value : A) :
    (store.insert key value).find? other =
      if other = key then some value else store.find? other := by
  by_cases h : other = key
  · subst h
    simp [insert, find?]
  · have hne : ¬ key = other := fun hk ↦ h hk.symm
    have herase : (store.insert key value).find? other = (store.erase key).find? other := by
      simp [insert, find?, hne]
    rw [herase, find?_erase, if_neg h, if_neg h]

end Keyed

end Windowing
