import Windowing.IndexRange
import Windowing.Proofs.Stock

/-!
# Releasing what leaves, and sweeping the rest

A pass that follows its window releases the views of the keys that leave it, one by one. A pass
that rebinds every view sweeps instead: it goes through the live views and releases those outside
the new window. As long as no view is live outside the old window, both release the same views, and
so they leave the same views live, count the same and fill the same pools. Only the order in which
released views wait in a pool may be another one.

Before a view is released it is checked that its slot says which key it shows. If this fails, it
fails in both.

## Main definitions

* `ViewStock.Labelled` — the slots live under some keys say which keys they show.
* `ViewStock.SameUpToOrder` — two stocks with the same views, pooled ones in any order.

## Main results

* `ViewStock.free_foldl_released_perm` — what waits in a pool after some views are released.
* `ViewStock.releaseAll_agrees` — lists with the same live keys release the same views.
* `ViewStock.release_leaving_agrees` — the keys that leave a window, and a sweep.
-/

namespace Windowing.ViewStock

variable {K V S : Type} [DecidableEq K] {stock : ViewStock K V S} {key : K}
  {keys others : List K} {slot : Slot K V S}

/-! ### What is said of released views -/

/-- Every slot live under one of the keys says that it shows it. -/
def Labelled (stock : ViewStock K V S) (keys : List K) : Prop :=
  ∀ key ∈ keys, ∀ slot, stock.live.find? key = some slot → slot.key = some key

/-- The two stocks have the same live views, and the same views wait in the pool of each kind, in
any order. -/
structure SameUpToOrder (a b : ViewStock K V S) : Prop where
  live_eq : a.live = b.live
  free_perm : ∀ kind, (a.pool kind).free.Perm (b.pool kind).free

theorem Sound.labelled (h : stock.Sound) (keys : List K) : stock.Labelled keys :=
  fun _ _ _ hlive ↦ h.key_eq hlive

/-- Whether slots are labelled is a matter of the live keys only. -/
theorem Labelled.congr (h : stock.Labelled keys)
    (hsame : ∀ key ∈ stock.live.keys, key ∈ others → key ∈ keys) : stock.Labelled others :=
  fun key hkey slot hlive ↦ h key (hsame key (Keyed.mem_keys_of_find? hlive) hkey) slot hlive

/-- A view whose slot says that it shows another key is not released. -/
theorem release_of_not_labelled (hlive : stock.live.find? key = some slot)
    (hkey : slot.key ≠ some key) :
    ∃ t, release key stock = .error .slotShowsAnother t := by
  refine ⟨{ stock with live := stock.live.erase key }, ?_⟩
  rw [release, Step.get_bind, hlive]
  change (Step.require (slot.key = some key) .slotShowsAnother >>= _) _ = _
  rw [Step.require, if_neg (by simpa using hkey)]
  rfl

/-- After a view is released, the slots of the other keys are labelled as before. -/
theorem Labelled.of_released (h : (stock.released key).Labelled keys)
    (hkey : ∀ slot, stock.live.find? key = some slot → slot.key = some key) :
    stock.Labelled (key :: keys) := by
  intro other hother slot hlive
  by_cases hsame : other = key
  · subst hsame
    exact hkey slot hlive
  · have hmem : other ∈ keys := (List.mem_cons.mp hother).resolve_left hsame
    refine h other hmem slot ?_
    rw [find?_released, if_neg hsame, hlive]

/-! ### Releasing the views of several keys -/

/-- Releasing a key takes nothing from the keys of a list without it. -/
theorem find?_released_of_mem (hkey : key ∉ keys) {other : K} (hother : other ∈ keys) :
    (stock.released key).live.find? other = stock.live.find? other := by
  rw [find?_released, if_neg (ne_of_mem_of_not_mem hother hkey)]

/-- If all slots are labelled, each live view of the keys is released and counted. -/
theorem releaseAll_of_labelled (hkeys : keys.Nodup) (h : stock.Labelled keys) :
    releaseAll keys stock =
      .ok (keys.filter fun key ↦ (stock.live.find? key).isSome).length
        (keys.foldl released stock) := by
  induction keys generalizing stock with
  | nil => rfl
  | cons key rest ih =>
    obtain ⟨hkey, hrest⟩ := List.nodup_cons.mp hkeys
    have hfound {other : K} (hother : other ∈ rest) :
        (stock.released key).live.find? other = stock.live.find? other :=
      find?_released_of_mem hkey hother
    have hlabelled : (stock.released key).Labelled rest := fun other hother slot hlive ↦
      h other (.tail _ hother) slot (hfound hother ▸ hlive)
    have hlive : (rest.filter fun other ↦ ((stock.released key).live.find? other).isSome) =
        rest.filter fun other ↦ (stock.live.find? other).isSome :=
      List.filter_congr fun other hother ↦ congrArg Option.isSome (hfound hother)
    have hfirst := release_of_labelled (h key (.head _))
    have hothers := ih hrest hlabelled
    rw [hlive] at hothers
    rw [Step.eq_ok_iff]
    simp only [releaseAll, Step.ensures_bind, Step.ensures_of_eq_ok hfirst,
      Step.ensures_of_eq_ok hothers, Step.ensures_pure, List.filter_cons, List.foldl_cons, and_true]
    cases (stock.live.find? key).isSome <;> rfl

/-- If some slot is not labelled, releasing the views is cut short there. -/
theorem releaseAll_of_not_labelled (h : ¬ stock.Labelled keys) :
    ∃ t, releaseAll keys stock = .error .slotShowsAnother t := by
  induction keys generalizing stock with
  | nil => exact absurd (fun _ hkey ↦ absurd hkey List.not_mem_nil) h
  | cons key rest ih =>
    by_cases hkey : ∀ slot, stock.live.find? key = some slot → slot.key = some key
    · obtain ⟨t, hrest⟩ := ih (mt (Labelled.of_released · hkey) h)
      refine ⟨t, ?_⟩
      simp only [releaseAll, bind, EStateM.bind, release_of_labelled hkey, hrest]
    · push Not at hkey
      obtain ⟨slot, hlive, hother⟩ := hkey
      obtain ⟨t, hcut⟩ := release_of_not_labelled hlive hother
      refine ⟨t, ?_⟩
      simp only [releaseAll, bind, EStateM.bind, hcut]

/-- Releasing a key takes its entry out of the live views. -/
theorem live_released (stock : ViewStock K V S) (key : K) :
    (stock.released key).live = stock.live.erase key := by
  cases hlive : stock.live.find? key with
  | none =>
    rw [released_of_none hlive]
    exact Keyed.ext_entries (Keyed.entries_erase_of_find?_eq_none hlive).symm
  | some slot =>
    simp only [released, hlive]
    rfl

theorem entries_foldl_released (keys : List K) (stock : ViewStock K V S) :
    (keys.foldl released stock).live.entries =
      stock.live.entries.filter fun entry ↦ entry.1 ∉ keys := by
  induction keys generalizing stock with
  | nil => simp
  | cons key rest ih =>
    rw [List.foldl_cons, ih, live_released]
    simp only [Keyed.erase, List.filter_filter]
    refine List.filter_congr fun entry _ ↦ ?_
    simp [Bool.and_comm]

/-- A released view waits in the pool of its kind, before those that wait there already. -/
theorem free_pool_released (stock : ViewStock K V S) (key : K) (kind : ViewKind) :
    ((stock.released key).pool kind).free =
      (stock.live.find? key).toList.filter (·.kind = kind) ++ (stock.pool kind).free := by
  rw [pool_released]
  cases hlive : stock.live.find? key with
  | none => rfl
  | some slot =>
    by_cases hkind : kind = slot.kind
    · subst hkind
      simp
    · have hne : ¬ slot.kind = kind := fun heq ↦ hkind heq.symm
      simp [hkind, hne]

/-- After the views of some keys are released, those of a kind wait in its pool together with the
ones that were there. -/
theorem free_foldl_released_perm (hkeys : keys.Nodup) (kind : ViewKind) :
    ((keys.foldl released stock).pool kind).free.Perm
      ((keys.filterMap stock.live.find?).filter (·.kind = kind) ++ (stock.pool kind).free) := by
  induction keys generalizing stock with
  | nil => exact .refl _
  | cons key rest ih =>
    obtain ⟨hkey, hrest⟩ := List.nodup_cons.mp hkeys
    have hlive : rest.filterMap (stock.released key).live.find? =
        rest.filterMap stock.live.find? :=
      List.filterMap_congr fun other hother ↦ find?_released_of_mem hkey hother
    have hfirst : (key :: rest).filterMap stock.live.find? =
        (stock.live.find? key).toList ++ rest.filterMap stock.live.find? := by
      rw [List.filterMap_cons]
      cases stock.live.find? key <;> rfl
    have hpool := @ih (stock.released key) hrest
    rw [hlive, free_pool_released] at hpool
    rw [List.foldl_cons, hfirst, List.filter_append, List.append_assoc]
    exact hpool.trans (List.perm_append_comm_assoc ..)

/-! ### Lists with the same live keys -/

section Same

variable (hkeys : keys.Nodup) (hothers : others.Nodup)
  (hsame : ∀ key ∈ stock.live.keys, key ∈ keys ↔ key ∈ others)
include hkeys hothers hsame

/-- The live keys of the one list are those of the other. -/
theorem filter_live_perm :
    (keys.filter fun key ↦ (stock.live.find? key).isSome).Perm
      (others.filter fun key ↦ (stock.live.find? key).isSome) := by
  refine (List.perm_ext_iff_of_nodup (hkeys.filter _) (hothers.filter _)).mpr fun key ↦ ?_
  simp only [List.mem_filter]
  refine and_congr_left fun hlive ↦ ?_
  obtain ⟨slot, hfind⟩ := Option.isSome_iff_exists.mp hlive
  exact hsame key (Keyed.mem_keys_of_find? hfind)

theorem filterMap_live_perm :
    (keys.filterMap stock.live.find?).Perm (others.filterMap stock.live.find?) := by
  have hlive (keys : List K) : (keys.filter fun key ↦ (stock.live.find? key).isSome).filterMap
      stock.live.find? = keys.filterMap stock.live.find? := by
    rw [List.filterMap_filter]
    refine List.filterMap_congr fun key _ ↦ ?_
    cases stock.live.find? key <;> rfl
  rw [← hlive keys, ← hlive others]
  exact (filter_live_perm hkeys hothers hsame).filterMap _

theorem foldl_released_sameUpToOrder :
    (keys.foldl released stock).SameUpToOrder (others.foldl released stock) where
  live_eq := by
    refine Keyed.ext_entries ?_
    rw [entries_foldl_released, entries_foldl_released]
    refine List.filter_congr fun entry hentry ↦ ?_
    simp [hsame entry.1 (List.mem_map_of_mem hentry)]
  free_perm kind := by
    have hreleased := (filterMap_live_perm hkeys hothers hsame).filter (·.kind = kind)
    exact ((free_foldl_released_perm hkeys kind).trans (hreleased.append_right _)).trans
      (free_foldl_released_perm hothers kind).symm

/-- Releasing the views of the one list and of the other count the same and leave the same views,
or both meet a slot that shows another key. -/
theorem releaseAll_agrees :
    (∃ count left left', releaseAll keys stock = .ok count left ∧
      releaseAll others stock = .ok count left' ∧ left.SameUpToOrder left') ∨
    ¬ stock.Sound ∧ ∃ cut cut', releaseAll keys stock = .error .slotShowsAnother cut ∧
      releaseAll others stock = .error .slotShowsAnother cut' := by
  by_cases hlabelled : stock.Labelled keys
  · have hlabelled' : stock.Labelled others :=
      hlabelled.congr fun key hkey ↦ (hsame key hkey).mpr
    have hcount := (filter_live_perm hkeys hothers hsame).length_eq
    refine .inl ⟨_, _, _, releaseAll_of_labelled hkeys hlabelled, ?_,
      foldl_released_sameUpToOrder hkeys hothers hsame⟩
    rw [hcount]
    exact releaseAll_of_labelled hothers hlabelled'
  · have hlabelled' : ¬ stock.Labelled others := fun h ↦
      hlabelled (h.congr fun key hkey ↦ (hsame key hkey).mp)
    obtain ⟨cut, hcut⟩ := releaseAll_of_not_labelled hlabelled
    obtain ⟨cut', hcut'⟩ := releaseAll_of_not_labelled hlabelled'
    exact .inr ⟨fun hsound ↦ hlabelled (hsound.labelled keys), cut, cut', hcut, hcut'⟩

end Same

/-! ### Windows of a list -/

/-- The keys that leave a window for another one are listed in order, each of them once, and are
those of the old window that are not in the new one. As long as no view is live outside the old
window, releasing them one by one leaves the same views live as releasing every view outside the new
window, with the same views in each pool up to their order, and counts the same. Only where a slot
shows another key than the one that it is live under, which is so in no sound stock, are both cut
short. -/
theorem release_leaving_agrees (old : IndexRange) {new : IndexRange} (hnew : new.start ≤ new.stop) :
    (IndexRange.leaving old new).Pairwise (· < ·) ∧
    (IndexRange.leaving old new).Nodup ∧
    (∀ index, index ∈ IndexRange.leaving old new ↔
      old.contains index = true ∧ new.contains index = false) ∧
    ∀ {V S : Type} (stock : ViewStock Nat V S),
      (∀ key ∈ stock.live.keys, old.contains key = true) →
      (∃ count left swept, releaseAll (IndexRange.leaving old new) stock = .ok count left ∧
        releaseUnless new.contains stock = .ok count swept ∧ left.SameUpToOrder swept) ∨
      ¬ stock.Sound ∧ ∃ cut cut',
        releaseAll (IndexRange.leaving old new) stock = .error .slotShowsAnother cut ∧
        releaseUnless new.contains stock = .error .slotShowsAnother cut' := by
  have hordered := IndexRange.pairwise_leaving old hnew
  have hnodup : (IndexRange.leaving old new).Nodup := hordered.imp Nat.ne_of_lt
  refine ⟨hordered, hnodup, fun _ ↦ IndexRange.mem_leaving, fun stock hold ↦ ?_⟩
  have houtside : (stock.live.keys.filter fun key ↦ !new.contains key).Nodup :=
    stock.live.nodup.filter _
  refine releaseAll_agrees hnodup houtside fun key hkey ↦ ?_
  rw [IndexRange.mem_leaving, List.mem_filter, Bool.not_eq_true']
  exact and_congr_left fun _ ↦ iff_of_true (hold key hkey) hkey

/-- A window that is narrowed at both ends, and two views of one kind that leave it at different
ends. -/
theorem release_leaving_agrees_narrowed :
    let slot (key kind : Nat) : Slot Nat Unit Rat := ⟨(), ⟨kind⟩, some key, none⟩
    let stock := (((ViewStock.empty.put 2 (slot 2 0)).put 3 (slot 3 1)).put 4 (slot 4 0)).put 6
      (slot 6 0)
    let old : IndexRange := ⟨2, 7⟩
    let new : IndexRange := ⟨4, 6⟩
    new.start ≤ new.stop ∧ (∀ key ∈ stock.live.keys, old.contains key = true) ∧ stock.Sound ∧
      IndexRange.leaving old new = [2, 3, 6] ∧
      ∃ left swept, releaseAll [2, 3, 6] stock = .ok 3 left ∧
        releaseUnless new.contains stock = .ok 3 swept ∧ left.SameUpToOrder swept := by
  intro slot stock old new
  have hnew : new.start ≤ new.stop := by decide
  have hold : ∀ key ∈ stock.live.keys, old.contains key = true := by decide
  have hsound : stock.Sound :=
    (((Sound.empty.put rfl).put rfl).put rfl).put rfl
  have hleaving : IndexRange.leaving old new = [2, 3, 6] := by decide
  refine ⟨hnew, hold, hsound, hleaving, ?_⟩
  obtain ⟨-, -, -, hagrees⟩ := release_leaving_agrees old hnew
  obtain ⟨count, left, swept, hleft, hswept, hsame⟩ | ⟨hunsound, -⟩ := hagrees stock hold
  · have hthree : (releaseAll (IndexRange.leaving old new)).outcome stock = .ok 3 := rfl
    rw [Step.outcome, hleft] at hthree
    obtain rfl := Except.ok.inj hthree
    exact ⟨left, swept, hleaving ▸ hleft, hswept, hsame⟩
  · exact absurd hsound hunsound

end Windowing.ViewStock
