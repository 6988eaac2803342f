import Mathlib.Data.List.Chain
import Windowing.Journal

/-!
# Journals read in order

A journal tells in which order things were done, so what is to be said of the order is said of each
entry and those before it. While something is done the journal grows, and each entry written then
has to fit the entries that were there. Where a run passes through stages, every entry of its
journal was written between two of them.

## Main definitions

* `Journal.Entry.isAbout` — whether an entry is about a view.
* `Journal.lastBound` — the key that a view was last to be filled for.
* `Journal.Numbered` — the next view to be built gets a new number.
* `Journal.Grows` — a journal grew by entries that fit the entries before them.

## Main results

* `Journal.Grows.trans` — growing on.
* `Journal.exists_stage` — an entry of a journal was written between two stages, and fits there.
-/

namespace Windowing

variable {H K S : Type}

namespace Journal.Entry

/-- The view that an entry is about, if it is about one. -/
def view? : Entry K S → Option Nat
  | created _ view => some view
  | refused _ => none
  | bound _ _ view => some view
  | moved _ view => some view
  | resized _ view => some view
  | styled _ view => some view

/-- Whether an entry is about a view. -/
def isAbout (view : Nat) (entry : Entry K S) : Bool :=
  entry.view? = some view

/-- The key that a view was to be filled for, if the entry says so. -/
def boundTo? (view : Nat) : Entry K S → Option K
  | bound key _ number => if number = view then some key else none
  | _ => none

end Journal.Entry

namespace Journal

variable {entries before after past : List (Entry K S)} {entry : Entry K S} {view : Nat}
  {fits fits' : List (Entry K S) → Entry K S → Prop}

/-- The key that a view was last to be filled for. -/
def lastBound (view : Nat) (entries : List (Entry K S)) : Option K :=
  entries.findSome? (Entry.boundTo? view)

theorem lastBound_bound (view : Nat) (key : K) (kind : ViewKind) (entries : List (Entry K S)) :
    lastBound view (.bound key kind view :: entries) = some key := by
  simp [lastBound, Entry.boundTo?]

theorem lastBound_cons_of_none (h : entry.boundTo? view = none) :
    lastBound view (entry :: entries) = lastBound view entries := by
  simp [lastBound, h]

/-- The views that were built have numbers below the number of views built. -/
def Numbered (journal : Journal H K S) : Prop :=
  ∀ kind view, .created kind view ∈ journal.entries → view < journal.created

theorem Numbered.write {journal : Journal H K S} (h : journal.Numbered)
    (hentry : ∀ kind view, .created kind view ≠ entry) : (journal.write entry).Numbered :=
  fun kind view hview ↦ h kind view (List.mem_of_ne_of_mem (hentry kind view) hview)

/-! ### Growing journals -/

/-- The entries after extend those before, and each entry written in between fits the entries that
were there when it was written. -/
structure Grows (fits : List (Entry K S) → Entry K S → Prop) (before after : List (Entry K S)) :
    Prop where
  suffix : before <:+ after
  fits : ∀ {past entry}, entry :: past <:+ after → before <:+ past → fits past entry

/-- An entry of a journal was there at an earlier time, or was written later. -/
theorem suffix_or_suffix (hentry : entry :: past <:+ after) (hbefore : before <:+ after) :
    entry :: past <:+ before ∨ before <:+ past := by
  rcases List.suffix_or_suffix_of_suffix hentry hbefore with hearly | hlate
  · exact .inl hearly
  · rcases List.suffix_cons_iff.mp hlate with heq | hlate
    · exact .inl (heq ▸ List.suffix_refl _)
    · exact .inr hlate

namespace Grows

theorem refl (entries : List (Entry K S)) : Grows fits entries entries where
  suffix := List.suffix_refl entries
  fits hpast hbefore := absurd (hpast.trans hbefore).length_le (by simp)

theorem single (h : fits entries entry) : Grows fits entries (entry :: entries) where
  suffix := List.suffix_cons entry entries
  fits {past other} hpast hbefore := by
    rcases List.suffix_cons_iff.mp hpast with heq | hlonger
    · obtain ⟨rfl, rfl⟩ := List.cons.inj heq
      exact h
    · exact absurd (hlonger.trans hbefore).length_le (by simp)

theorem trans {a b c : List (Entry K S)} (hab : Grows fits a b) (hbc : Grows fits b c) :
    Grows fits a c where
  suffix := hab.suffix.trans hbc.suffix
  fits {past entry} hpast hbefore := by
    rcases suffix_or_suffix hpast hbc.suffix with hearly | hlate
    · exact hab.fits hearly hbefore
    · exact hbc.fits hpast hlate

/-- Entries that fit for one reason fit for a weaker one. The earlier entries are still there. -/
theorem mono (h : Grows fits before after)
    (hfits : ∀ past entry, before <:+ past → fits past entry → fits' past entry) :
    Grows fits' before after where
  suffix := h.suffix
  fits hpast hbefore := hfits _ _ hbefore (h.fits hpast hbefore)

theorem mem (h : Grows fits before after) (hentry : entry ∈ before) : entry ∈ after :=
  h.suffix.subset hentry

/-- An entry that never fits was there before. -/
theorem mem_of_not_fits (h : Grows fits before after) (hnot : ∀ past, ¬ fits past entry)
    (hentry : entry ∈ after) : entry ∈ before := by
  obtain ⟨newer, past, rfl⟩ := List.append_of_mem hentry
  have hsuffix : entry :: past <:+ newer ++ entry :: past := List.suffix_append ..
  rcases suffix_or_suffix hsuffix h.suffix with hearly | hlate
  · exact hearly.subset List.mem_cons_self
  · exact absurd (h.fits hsuffix hlate) (hnot past)

/-- What a view was last filled for does not change by entries that do not say so. -/
theorem lastBound_eq (h : Grows fits before after)
    (hnone : ∀ past entry, fits past entry → entry.boundTo? view = none) :
    lastBound view after = lastBound view before := by
  obtain ⟨later, rfl⟩ := h.suffix
  induction later with
  | nil => rfl
  | cons entry rest ih =>
    have hentry : fits (rest ++ before) entry := h.fits (List.suffix_refl _) (List.suffix_append ..)
    have hrest : Grows fits before (rest ++ before) :=
      ⟨List.suffix_append .., fun hpast hbefore ↦
        h.fits (hpast.trans (List.suffix_cons ..)) hbefore⟩
    rw [List.cons_append, lastBound_cons_of_none (hnone _ _ hentry), ih hrest]

end Grows

/-! ### Stages -/

section Stages

variable {σ : Type} {log : σ → List (Entry K S)}
  {fits : σ → σ → List (Entry K S) → Entry K S → Prop} {stages : List σ} {s t : σ}

/-- What was written at first is there at the end. -/
theorem suffix_of_stages
    (hchain : (s :: stages).IsChain fun before after ↦
      Grows (fits before after) (log before) (log after))
    (hlast : (s :: stages).getLast? = some t) : log s <:+ log t := by
  induction stages generalizing s with
  | nil =>
    obtain rfl := Option.some.inj hlast
    exact List.suffix_refl _
  | cons u rest ih =>
    obtain ⟨hgrows, hchain⟩ := List.isChain_cons_cons.mp hchain
    rw [List.getLast?_cons_cons] at hlast
    exact hgrows.suffix.trans (ih hchain hlast)

/-- If the journal grew from stage to stage, each of its entries that was not there at first was
written between two of them, and fits there. -/
theorem exists_stage
    (hchain : stages.IsChain fun before after ↦ Grows (fits before after) (log before) (log after))
    (hlast : stages.getLast? = some t) (hentry : entry :: past <:+ log t)
    (hfirst : ∀ s ∈ stages.head?, log s <:+ past) :
    ∃ before after, [before, after] <:+: stages ∧ log before <:+ past ∧
      entry :: past <:+ log after ∧ fits before after past entry := by
  induction stages with
  | nil => cases hlast
  | cons s rest ih =>
    have hpast : log s <:+ past := hfirst s rfl
    cases rest with
    | nil =>
      obtain rfl := Option.some.inj hlast
      exact absurd (hentry.trans hpast).length_le (by simp)
    | cons u rest =>
      obtain ⟨hgrows, hchain⟩ := List.isChain_cons_cons.mp hchain
      rw [List.getLast?_cons_cons] at hlast
      rcases suffix_or_suffix hentry (suffix_of_stages hchain hlast) with hearly | hlate
      · exact ⟨s, u, (List.prefix_append [s, u] rest).isInfix, hpast, hearly,
          hgrows.fits hearly hpast⟩
      · have hlate : ∀ v ∈ (u :: rest).head?, log v <:+ past := by
          rintro _ ⟨⟩
          exact hlate
        obtain ⟨before, after, hinfix, hrest⟩ := ih hchain hlast hlate
        exact ⟨before, after, hinfix.trans (List.suffix_cons s _).isInfix, hrest⟩

end Stages

end Journal

end Windowing
