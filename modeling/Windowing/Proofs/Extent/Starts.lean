import Windowing.Extent.Starts

/-!
# Kept starts are running sums

The entries before the stale part are the starts that running sums give from the left. Marking
entries as stale, making room and dropping entries keep this, and rebuilding the stale part
reestablishes it for the whole array. Nothing is asked of the arithmetic.

## Main definitions

* `Starts.runningStart` — where an item starts, worked out from the first one on.
* `Starts.Current` — starts whose entries before the stale part are running sums.

## Main results

* `Starts.Current.refresh`, `Starts.Current.resize` — the operations keep starts current.
* `Starts.getElem?_refresh` — what is read after the stale part was rebuilt.
-/

namespace Windowing.Starts

variable {S : Type} [Scalar S] {advance other : Nat → S → S} {starts : Starts S}
  {entries : Array S} {index count : Nat}

/-- Where the item at `index` starts when the first one starts at zero, and `advance i s` is where
the item after `i` starts when `i` starts at `s`. -/
def runningStart (advance : Nat → S → S) : Nat → S
  | 0 => Scalar.zero
  | index + 1 => advance index (runningStart advance index)

/-- Two ways to advance that agree before `index` give it the same start. -/
theorem runningStart_congr (h : ∀ i < index, other i = advance i) :
    runningStart other index = runningStart advance index := by
  induction index with
  | zero => rfl
  | succ index ih =>
    rw [runningStart, runningStart, h index (Nat.lt_succ_self index),
      ih fun i hi ↦ h i (Nat.lt_succ_of_lt hi)]

/-- The entries that are not stale are running sums. -/
def Current (advance : Nat → S → S) (starts : Starts S) : Prop :=
  ∀ index < starts.entries.size, (∀ first ∈ starts.staleFrom, index < first) →
    starts.entries[index]? = some (runningStart advance index)

/-! ### Rebuilding -/

omit [Scalar S] in
@[simp]
theorem size_fill (start : S) : (fill advance entries index start).size = entries.size := by
  fun_induction fill advance entries index start with
  | case1 entries index start h ih => rw [ih, Array.size_set]
  | case2 => rfl

omit [Scalar S] in
/-- Entries before the first one that is rewritten stay. -/
theorem getElem?_fill_of_lt {start : S} {i : Nat} (h : i < index) :
    (fill advance entries index start)[i]? = entries[i]? := by
  fun_induction fill advance entries index start with
  | case1 entries index start hindex ih =>
    rw [ih (Nat.lt_succ_of_lt h), Array.getElem?_set_ne hindex (Nat.ne_of_gt h)]
  | case2 => rfl

/-- Entries that are rewritten from a running sum on are running sums. -/
theorem getElem?_fill_of_le {start : S} {i : Nat} (hstart : start = runningStart advance index)
    (h : index ≤ i) (hi : i < entries.size) :
    (fill advance entries index start)[i]? = some (runningStart advance i) := by
  fun_induction fill advance entries index start with
  | case1 entries index start hindex ih =>
    subst hstart
    rcases Nat.eq_or_lt_of_le h with rfl | hlt
    · rw [getElem?_fill_of_lt (Nat.lt_succ_self _), Array.getElem?_set_self hindex]
    · exact ih rfl hlt (by rwa [Array.size_set])
  | case2 entries index start hindex => exact absurd (Nat.lt_of_le_of_lt h hi) hindex

/-- The start from which stale entries are rebuilt is a running sum. -/
theorem Current.resumeAt (h : starts.Current advance) {first : Nat}
    (hfirst : starts.staleFrom = some first) (hsize : first < starts.entries.size) :
    Starts.resumeAt advance starts.entries first = runningStart advance first := by
  cases first with
  | zero => rfl
  | succ first =>
    have hentry := h first (Nat.lt_of_succ_lt hsize) fun stale hstale ↦ by
      obtain rfl := Option.some.inj (hfirst.symm.trans hstale)
      exact Nat.lt_succ_self first
    rw [Starts.resumeAt, runningStart, Array.getD_eq_getD_getElem?, hentry, Option.getD_some]

@[simp]
theorem size_refresh : (starts.refresh advance index).entries.size = starts.entries.size := by
  rw [refresh]
  split
  · rfl
  · split
    · exact size_fill _
    · rfl

/-- Once the stale entries up to `index` are rebuilt, the entries up to it are running sums. -/
theorem Current.getElem?_refresh (h : starts.Current advance) {i : Nat} (hi : i ≤ index)
    (hsize : i < starts.entries.size) :
    (starts.refresh advance index).entries[i]? = some (runningStart advance i) := by
  rw [refresh]
  cases hstale : starts.staleFrom with
  | none => exact h i hsize (by simp [hstale])
  | some first =>
    by_cases hlt : i < first
    · have hentry := h i hsize fun stale hmem ↦ by
        obtain rfl := Option.some.inj (hstale.symm.trans hmem)
        exact hlt
      dsimp only
      split
      · rw [getElem?_fill_of_lt hlt, hentry]
      · exact hentry
    · have hle := Nat.le_of_not_lt hlt
      have hfirst : first ≤ index ∧ first < starts.entries.size := by omega
      simp only [hfirst, and_self, if_true]
      exact getElem?_fill_of_le (h.resumeAt hstale hfirst.2) hle hsize

/-- Rebuilding keeps starts current. -/
theorem Current.refresh (h : starts.Current advance) (index : Nat) :
    (starts.refresh advance index).Current advance := by
  rw [Starts.refresh]
  cases hstale : starts.staleFrom with
  | none => exact h
  | some first =>
    dsimp only
    split
    · next hfirst =>
      intro i hi _
      rw [size_fill] at hi
      by_cases hlt : i < first
      · rw [getElem?_fill_of_lt hlt]
        refine h i hi fun stale hmem ↦ ?_
        obtain rfl := Option.some.inj (hstale.symm.trans hmem)
        exact hlt
      · exact getElem?_fill_of_le (h.resumeAt hstale hfirst.2) (Nat.le_of_not_lt hlt) hi
    · exact h

/-- All entries, once they are rebuilt, are the running sums. -/
theorem Current.entries_refresh (h : starts.Current advance) :
    (starts.refresh advance (starts.entries.size - 1)).entries =
      (Array.range starts.entries.size).map (runningStart advance) := by
  refine Array.ext_getElem? fun i ↦ ?_
  by_cases hi : i < starts.entries.size
  · rw [h.getElem?_refresh (Nat.le_sub_one_of_lt hi) hi]
    simp [hi]
  · rw [Array.getElem?_eq_none (by simpa using hi), Array.getElem?_eq_none (by simpa using hi)]

/-- Starts that were rebuilt are not rebuilt again. -/
theorem refresh_refresh (advance : Nat → S → S) (index : Nat)
    (starts : Starts S) :
    (starts.refresh advance index).refresh advance index = starts.refresh advance index := by
  have hsame : starts.refresh advance index = starts ∨
      (starts.refresh advance index).staleFrom = none := by
    rw [refresh]
    split
    · exact .inl rfl
    · split
      · exact .inr rfl
      · exact .inl rfl
  rcases hsame with hsame | hfresh
  · rw [hsame, hsame]
  · rw [refresh, hfresh]

/-! ### Edits -/

theorem current_blank : (blank count : Starts S).Current advance :=
  fun _ _ hfresh ↦ absurd (hfresh 0 rfl) (Nat.not_lt_zero _)

omit [Scalar S] in
theorem mem_staleFrom_invalidateFrom (h : ∀ first ∈ (starts.invalidateFrom index).staleFrom,
    count < first) : count < index ∧ ∀ first ∈ starts.staleFrom, count < first := by
  simp only [invalidateFrom] at h
  cases hstale : starts.staleFrom with
  | none => simpa [hstale] using h
  | some first => simpa [hstale, Nat.lt_min, and_comm] using h

/-- Starts are current for every way to advance that agrees on the entries. -/
theorem Current.congr (h : starts.Current advance)
    (hother : ∀ i < starts.entries.size, other i = advance i) : starts.Current other := by
  intro i hi hfresh
  rw [runningStart_congr fun j hj ↦ hother j (Nat.lt_trans hj hi)]
  exact h i hi hfresh

/-- Starts stay current when items from `index` on advance otherwise, if these are marked. -/
theorem Current.invalidateFrom (h : starts.Current advance)
    (hother : ∀ i < index, other i = advance i) :
    (starts.invalidateFrom index).Current other := by
  intro i hi hfresh
  obtain ⟨hlt, hold⟩ := mem_staleFrom_invalidateFrom hfresh
  rw [runningStart_congr fun j hj ↦ hother j (Nat.lt_trans hj hlt)]
  exact h i hi hold

private theorem entries_resize (starts : Starts S) (count : Nat) :
    (starts.resize count).entries = starts.entries.extract 0 count ++
      Array.replicate (count - starts.entries.size) Scalar.zero := by
  rw [resize]
  split <;> rfl

@[simp]
theorem size_resize : (starts.resize count).entries.size = count := by
  rw [entries_resize, Array.size_append, Array.size_extract, Array.size_replicate]
  omega

/-- Making room and dropping entries keep starts current. -/
theorem Current.resize (h : starts.Current advance) (count : Nat) :
    (starts.resize count).Current advance := by
  have hkept {i : Nat} (hi : i < count) (hold : i < starts.entries.size) :
      (starts.resize count).entries[i]? = starts.entries[i]? := by
    rw [entries_resize, Array.getElem?_append_left (by rw [Array.size_extract]; omega),
      Array.getElem?_extract, if_pos (by omega), Nat.zero_add]
  intro i hi hfresh
  rw [size_resize] at hi
  by_cases hroom : starts.entries.size < count
  · have hstale : (starts.resize count).staleFrom =
        (starts.invalidateFrom starts.entries.size).staleFrom := by
      simp only [Starts.resize, if_pos hroom, Starts.invalidateFrom]
    rw [hstale] at hfresh
    obtain ⟨hold, hfresh⟩ := mem_staleFrom_invalidateFrom hfresh
    rw [hkept hi hold, h i hold hfresh]
  · have hstale : (starts.resize count).staleFrom = starts.staleFrom := by
      simp only [Starts.resize, if_neg hroom]
    rw [hstale] at hfresh
    have hold : i < starts.entries.size := by omega
    rw [hkept hi hold, h i hold hfresh]

end Windowing.Starts
