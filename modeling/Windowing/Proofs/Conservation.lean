import Mathlib.Data.List.Range
import Windowing.Proofs.Stock
import Windowing.Proofs.Tracking

/-!
# No view is lost

Views move between use and the pools on many paths, and a pass may be cut short on each of
them. The slots of a stock, live and pooled together, form one list; up to order, releasing a
view, reusing one and working on one leave this list as it is, and a built view is added to it.
So the numbers of the views in a stock are at all times the numbers given out since the stock
was last emptied, each of them once.

## Main definitions

* `ViewStock.slots`, `ViewStock.whereabouts` — all slots, and all views with their places.
* `ViewStock.Every` — every slot has a property.
* `ViewStock.Conserved` — every view built since a certain one is there, exactly once.
* `ViewStock.Accounted` — the same, said of views and their places.

## Main results

* `ViewStock.realize_conserved`, `ViewStock.follow_conserved` — a pass loses no view.
* `ViewStock.Conserved.accounted` — every view is in exactly one place.
-/

namespace Windowing.ViewStock

variable {H K V S : Type}

/-! ### The slots of a stock -/

/-- All slots of a stock, the live ones first. -/
def slots (stock : ViewStock K V S) : List (Slot K V S) :=
  stock.live.values ++ stock.pools.values.flatMap Pool.free

/-- The slots of a stock but the ones in the pool of a kind. -/
def slotsBeside (kind : ViewKind) (stock : ViewStock K V S) : List (Slot K V S) :=
  stock.live.values ++ (stock.pools.erase kind).values.flatMap Pool.free

theorem length_slots (stock : ViewStock K V S) :
    stock.slots.length = stock.liveCount + stock.pooledCount := by
  rw [slots, List.length_append, Keyed.length_values, List.length_flatMap, List.sum_eq_foldr,
    List.foldr_map]
  rfl

theorem slots_setPool_perm (kind : ViewKind) (pool : Pool (Slot K V S)) (stock : ViewStock K V S) :
    (stock.setPool kind pool).slots.Perm (pool.free ++ stock.slotsBeside kind) := by
  rw [slots, setPool, Keyed.values_insert, List.flatMap_cons]
  exact List.perm_append_comm_assoc ..

theorem slots_perm_slotsBeside (kind : ViewKind) (stock : ViewStock K V S) :
    stock.slots.Perm ((stock.pool kind).free ++ stock.slotsBeside kind) := by
  rw [slots, slotsBeside, pool]
  cases hfind : stock.pools.find? kind with
  | none =>
    have herase : (stock.pools.erase kind).values = stock.pools.values :=
      congrArg (List.map Prod.snd) (Keyed.entries_erase_of_find?_eq_none hfind)
    rw [herase]
    exact .refl _
  | some pool =>
    have hpools := (Keyed.values_perm_of_find? hfind).flatMap_right Pool.free
    rw [List.flatMap_cons] at hpools
    exact (hpools.append_left _).trans (List.perm_append_comm_assoc ..)

variable [DecidableEq K] {stock : ViewStock K V S} {key : K} {slot old : Slot K V S}

/-- The slots of a stock but the one live under a key. -/
def slotsWithout (key : K) (stock : ViewStock K V S) : List (Slot K V S) :=
  (stock.live.erase key).values ++ stock.pools.values.flatMap Pool.free

theorem mem_slots_of_live (hlive : stock.live.find? key = some slot) : slot ∈ stock.slots :=
  List.mem_append_left _ (Keyed.mem_values_iff.mpr ⟨key, hlive⟩)

theorem slots_put : (stock.put key slot).slots = slot :: stock.slotsWithout key := rfl

theorem slots_perm_slotsWithout (hlive : stock.live.find? key = some old) :
    stock.slots.Perm (old :: stock.slotsWithout key) :=
  (Keyed.values_perm_of_find? hlive).append_right _

theorem slotsWithout_of_none (hfree : stock.live.find? key = none) :
    stock.slotsWithout key = stock.slots := by
  rw [slots, slotsWithout]
  exact congrArg (List.map Prod.snd · ++ _) (Keyed.entries_erase_of_find?_eq_none hfree)

/-- Releasing a view loses no slot. -/
theorem slots_released_perm (key : K) (stock : ViewStock K V S) :
    (stock.released key).slots.Perm stock.slots := by
  cases hlive : stock.live.find? key with
  | none => rw [released_of_none hlive]
  | some slot =>
    let rest : ViewStock K V S := { stock with live := stock.live.erase key }
    have hrest := slots_perm_slotsBeside slot.kind rest
    have hput := slots_setPool_perm slot.kind ((rest.pool slot.kind).release slot) rest
    have hslots : (stock.released key).slots.Perm (slot :: rest.slots) := by
      simp only [released, hlive]
      exact hput.trans (hrest.symm.cons slot)
    exact hslots.trans (slots_perm_slotsWithout hlive).symm

/-! ### What holds of every slot -/

/-- Every slot of the stock, live or pooled, has a property. -/
def Every (holds : Slot K V S → Prop) (stock : ViewStock K V S) : Prop :=
  ∀ slot ∈ stock.slots, holds slot

namespace Every

variable {holds : Slot K V S → Prop}

omit [DecidableEq K] in
theorem empty (holds : Slot K V S → Prop) : (ViewStock.empty : ViewStock K V S).Every holds := nofun

theorem live (h : stock.Every holds) (hlive : stock.live.find? key = some slot) : holds slot :=
  h slot (mem_slots_of_live hlive)

omit [DecidableEq K] in
theorem pooled {kind : ViewKind} (h : stock.Every holds) (hslot : slot ∈ (stock.pool kind).free) :
    holds slot :=
  h slot ((slots_perm_slotsBeside kind stock).symm.subset (List.mem_append_left _ hslot))

theorem released (h : stock.Every holds) (key : K) : (stock.released key).Every holds :=
  fun slot hslot ↦ h slot ((slots_released_perm key stock).subset hslot)

theorem foldl_released (h : stock.Every holds) (keys : List K) :
    (keys.foldl ViewStock.released stock).Every holds := by
  induction keys generalizing stock with
  | nil => exact h
  | cons key rest ih => exact ih (h.released key)

theorem put (h : stock.Every holds) (hslot : holds slot) : (stock.put key slot).Every holds := by
  rintro other (_ | ⟨_, hother⟩)
  · exact hslot
  · cases hlive : stock.live.find? key with
    | none => exact h other (slotsWithout_of_none hlive ▸ hother)
    | some old => exact h other ((slots_perm_slotsWithout hlive).symm.subset (.tail _ hother))

omit [DecidableEq K] in
theorem setPool {kind : ViewKind} {pool : Pool (Slot K V S)} (h : stock.Every holds)
    (hpool : ∀ slot ∈ pool.free, holds slot) : (stock.setPool kind pool).Every holds := by
  intro slot hslot
  rcases List.mem_append.mp ((slots_setPool_perm kind pool stock).subset hslot) with hfree | hbeside
  · exact hpool slot hfree
  · exact h slot ((slots_perm_slotsBeside kind stock).symm.subset (List.mem_append_right _ hbeside))

end Every

/-! ### The views built since -/

/-- The slots hold the views that were numbered from `base` on, each of them once, and say of
which kind their views are. -/
structure Complete (base : Nat) (journal : Journal H K S)
    (slots : List (Slot K (Tracked K V S) S)) : Prop where
  base_le : base ≤ journal.created
  numbers_perm : (slots.map fun slot ↦ slot.view.number).Perm
    (List.range' base (journal.created - base))
  kind_eq : ∀ slot ∈ slots, slot.view.kind = slot.kind

namespace Complete

variable {base : Nat} {journal journal' : Journal H K S}
  {slots slots' : List (Slot K (Tracked K V S) S)} {old new : Slot K (Tracked K V S) S}

omit [DecidableEq K] in
theorem perm (h : Complete base journal slots) (hslots : slots'.Perm slots) :
    Complete base journal slots' where
  base_le := h.base_le
  numbers_perm := (hslots.map _).trans h.numbers_perm
  kind_eq slot hslot := h.kind_eq slot (hslots.subset hslot)

omit [DecidableEq K] in
theorem congr (h : Complete base journal slots) (hcreated : journal'.created = journal.created) :
    Complete base journal' slots where
  base_le := hcreated ▸ h.base_le
  numbers_perm := hcreated ▸ h.numbers_perm
  kind_eq := h.kind_eq

omit [DecidableEq K] in
/-- Nothing is lost where a slot gives way to one with the same view. -/
theorem replace (h : Complete base journal (old :: slots))
    (hnumber : new.view.number = old.view.number) (hview : new.view.kind = old.view.kind)
    (hkind : new.kind = old.kind) (hcreated : journal'.created = journal.created) :
    Complete base journal' (new :: slots) where
  base_le := hcreated ▸ h.base_le
  numbers_perm := by
    rw [List.map_cons, hnumber, hcreated]
    exact h.numbers_perm
  kind_eq slot hslot := by
    rcases List.mem_cons.mp hslot with rfl | hrest
    · rw [hview, hkind]
      exact h.kind_eq old List.mem_cons_self
    · exact h.kind_eq slot (List.mem_cons_of_mem _ hrest)

omit [DecidableEq K] in
/-- Nothing is lost where the slot of the view built last comes in. -/
theorem add (h : Complete base journal slots) (hnumber : new.view.number = journal.created)
    (hkind : new.view.kind = new.kind) (hcreated : journal'.created = journal.created + 1) :
    Complete base journal' (new :: slots) where
  base_le := by
    have hle := h.base_le
    omega
  numbers_perm := by
    have hle := h.base_le
    have hcount : journal'.created - base = journal.created - base + 1 := by omega
    have hlast : base + (journal.created - base) = journal.created := by omega
    rw [List.map_cons, hnumber, hcount, List.range'_1_concat, hlast]
    exact (h.numbers_perm.cons _).trans (List.perm_append_singleton ..).symm
  kind_eq slot hslot := by
    rcases List.mem_cons.mp hslot with rfl | hrest
    · exact hkind
    · exact h.kind_eq slot hrest

end Complete

/-- The stock is sound, and its slots hold every view numbered from `base` on, each once. -/
structure Conserved (base : Nat) (s : Hosted (Journal H K S) (ViewStock K (Tracked K V S) S)) :
    Prop where
  sound : s.held.Sound
  complete : Complete base s.host s.held.slots

namespace Conserved

variable {base : Nat} {s : Hosted (Journal H K S) (ViewStock K (Tracked K V S) S)}

/-- Before any view is built, none can be lost. -/
theorem empty (journal : Journal H K S) :
    Conserved (V := V) journal.created ⟨journal, ViewStock.empty⟩ where
  sound := .empty
  complete := ⟨Nat.le_refl _, by simp [slots, ViewStock.empty, Keyed.values, Keyed.empty], nofun⟩

theorem released (h : Conserved base s) (key : K) :
    Conserved base ⟨s.host, s.held.released key⟩ where
  sound := h.sound.released key
  complete := h.complete.perm (slots_released_perm key s.held)

theorem foldl_released (h : Conserved base s) (keys : List K) :
    Conserved base ⟨s.host, keys.foldl ViewStock.released s.held⟩ := by
  induction keys generalizing s with
  | nil => exact h
  | cons key rest ih => exact ih (h.released key)

/-- Working on a live view loses none. -/
theorem work {slot : Slot K (Tracked K V S) S} (h : Conserved base s)
    (hlive : s.held.live.find? key = some slot)
    {t : Hosted (Journal H K S) (Slot K (Tracked K V S) S)}
    (ht : Slot.SameView ⟨s.host, slot⟩ t) :
    Conserved base ⟨t.host, s.held.put key t.held⟩ where
  sound := h.sound.put (ht.key_eq.trans (h.sound.key_eq hlive))
  complete := by
    have hslots := h.complete.perm (slots_perm_slotsWithout hlive).symm
    exact hslots.replace ht.number_eq ht.viewKind_eq ht.kind_eq ht.created_eq

/-- Giving a key a pooled view loses none, whatever the view is told. -/
theorem reuse {slot : Slot K (Tracked K V S) S} {rest : List (Slot K (Tracked K V S) S)}
    {kind : ViewKind} (h : Conserved base s) (hfree : s.held.live.find? key = none)
    (hpool : (s.held.pool kind).free = slot :: rest)
    {t : Hosted (Journal H K S) (Slot K (Tracked K V S) S)}
    (ht : Slot.SameView ⟨s.host, slot.under key⟩ t) :
    Conserved base ⟨t.host, (s.held.setPool kind ⟨rest⟩).put key t.held⟩ where
  sound := by
    refine (h.sound.setPool fun slot hslot ↦ ?_).put ht.key_eq
    exact h.sound.kind_eq (hpool ▸ List.mem_cons_of_mem _ hslot)
  complete := by
    have hbefore := slots_perm_slotsBeside kind s.held
    rw [hpool] at hbefore
    have hafter := slots_setPool_perm kind ⟨rest⟩ s.held
    have hcomplete := h.complete.perm ((hafter.cons slot).trans hbefore.symm)
    have hwithout : (s.held.setPool kind ⟨rest⟩).slotsWithout key = _ := slotsWithout_of_none hfree
    rw [slots_put, hwithout]
    exact hcomplete.replace ht.number_eq ht.viewKind_eq ht.kind_eq ht.created_eq

/-- Finding a pool empty changes nothing. -/
theorem setPool_nil {kind : ViewKind} {journal : Journal H K S} (h : Conserved base s)
    (hpool : (s.held.pool kind).free = []) (hcreated : journal.created = s.host.created) :
    Conserved base ⟨journal, s.held.setPool kind ⟨[]⟩⟩ where
  sound := h.sound.setPool (by simp)
  complete := by
    have hbefore := slots_perm_slotsBeside kind s.held
    rw [hpool] at hbefore
    have hafter := slots_setPool_perm kind ⟨[]⟩ s.held
    exact (h.complete.perm (hafter.trans hbefore.symm)).congr hcreated

/-- Giving a key the view that was just built adds this view, whatever it is told. -/
theorem build {kind : ViewKind} {view : Tracked K V S} {journal : Journal H K S}
    (h : Conserved base s) (hfree : s.held.live.find? key = none)
    (hpool : (s.held.pool kind).free = []) (hnumber : view.number = s.host.created)
    (hkind : view.kind = kind) (hcreated : journal.created = s.host.created + 1)
    {t : Hosted (Journal H K S) (Slot K (Tracked K V S) S)}
    (ht : Slot.SameView ⟨journal, (Slot.ofView view kind).under key⟩ t) :
    Conserved base ⟨t.host, (s.held.setPool kind ⟨[]⟩).put key t.held⟩ where
  sound := (h.setPool_nil hpool rfl).sound.put ht.key_eq
  complete := by
    have hcomplete := (h.setPool_nil hpool rfl).complete
    have hwithout : (s.held.setPool kind ⟨[]⟩).slotsWithout key = _ := slotsWithout_of_none hfree
    rw [slots_put, hwithout]
    refine hcomplete.add (ht.number_eq.trans hnumber) ?_ (ht.created_eq.trans hcreated)
    rw [ht.viewKind_eq, ht.kind_eq]
    exact hkind

end Conserved

/-! ### Passes lose no view -/

variable [Scalar S] [ViewHandle H V S] {source : ViewSource K (Journal H K S) (Tracked K V S)}
  {layout : Layout K S} {base : Nat} {s : Hosted (Journal H K S) (ViewStock K (Tracked K V S) S)}

/-- The turn of one key loses no view, however it ends. -/
theorem realize_conserved (hsource : source.Journals) (key : K) (h : Conserved base s) :
    (realize source layout key).Ensures s (fun _ ↦ Conserved base) (Conserved base) := by
  have hreleased := h.released key
  have hfree : (s.held.released key).live.find? key = none := by simp [find?_released]
  refine realize_ensures h.sound (fun _ _ ↦ h) ?kept ?reused ?asked
  case kept =>
    intro rect slot _ hlive _
    exact (keep_ensures hsource _).mono (fun _ _ ht ↦ h.work hlive ht.1)
      fun _ ht ↦ h.work hlive ht.1
  case reused =>
    intro rect slot rest _ hkind hpool
    rw [← pool_released_of_kind hkind] at hpool
    exact (enter_ensures hsource _).mono (fun _ t ht ↦ hreleased.reuse hfree hpool ht.1)
      fun t ht ↦ hreleased.reuse hfree hpool ht
  case asked =>
    intro rect _ hkind hpool
    rw [← pool_released_of_kind hkind] at hpool
    obtain ⟨step, hcreate⟩ := hsource.create s.host key
    simp only [hcreate]
    refine (Journal.create_ensures _ _ _).mono (fun view? journal hview ↦ ?_)
      fun journal hjournal ↦ hreleased.setPool_nil hpool hjournal.1
    cases view? with
    | none => exact hreleased.setPool_nil hpool hview.1
    | some view =>
      obtain ⟨hnumber, hviewKind, hcreated, -⟩ := hview
      exact (enter_ensures hsource _).mono
        (fun _ t ht ↦ hreleased.build hfree hpool hnumber hviewKind hcreated ht.1)
        fun t ht ↦ hreleased.build hfree hpool hnumber hviewKind hcreated ht

theorem realizeAll_conserved (hsource : source.Journals) (keys : List K) (h : Conserved base s) :
    (realizeAll source layout keys).Ensures s (fun _ ↦ Conserved base) (Conserved base) := by
  induction keys generalizing s with
  | nil => exact h
  | cons key rest ih =>
    simp only [realizeAll, Step.ensures_bind]
    refine (realize_conserved hsource key h).mono (fun _ t ht ↦ ?_) fun _ ht ↦ ht
    exact (ih ht).mono (fun _ _ hu ↦ hu) fun _ hu ↦ hu

/-- A pass loses no view, however it ends. -/
theorem follow_conserved (hsource : source.Journals) (leaving keys : List K)
    (inWindow : K → Bool) (h : Conserved base s) :
    (follow source layout leaving keys inWindow).Ensures s (fun _ ↦ Conserved base)
      (Conserved base) := by
  obtain ⟨count, hvacate⟩ := vacate_eq h.sound layout.rebind leaving inWindow
  simp only [follow, Step.ensures_bind, Step.ensures_onHeld, Step.ensures_of_eq_ok hvacate,
    Step.ensures_get, Step.ensures_require, Step.ensures_pure]
  refine (realizeAll_conserved hsource keys (h.foldl_released _)).mono (fun _ t ht ↦ ?_)
    fun _ ht ↦ ht
  split
  · exact ht
  · exact ht

/-! ### Where each view is -/

/-- A place where a view can be. -/
inductive Place (K : Type) where
  /-- In use, under a key. -/
  | live (key : K)
  /-- Out of use, in the pool of a kind. -/
  | pooled (kind : ViewKind)

/-- All views of a stock, each with the place where it is. -/
def whereabouts (stock : ViewStock K V S) : List (V × Place K) :=
  (stock.live.entries.map fun entry ↦ (entry.2.view, .live entry.1)) ++
    stock.pools.entries.flatMap fun entry ↦
      entry.2.free.map fun slot ↦ (slot.view, .pooled entry.1)

omit [DecidableEq K] [Scalar S] [ViewHandle H V S] in
theorem map_fst_whereabouts (stock : ViewStock K V S) :
    stock.whereabouts.map Prod.fst = stock.slots.map Slot.view := by
  simp only [whereabouts, slots, List.map_append, List.map_map, List.map_flatMap, Keyed.values,
    List.flatMap_map]
  rfl

/-- Every view built since number `base` is in exactly one place, and there are no others. A pooled
view is in the pool of its kind. -/
structure Accounted (base : Nat) (s : Hosted (Journal H K S) (ViewStock K (Tracked K V S) S)) :
    Prop where
  base_le : base ≤ s.host.created
  numbers_perm : (s.held.whereabouts.map fun entry ↦ entry.1.number).Perm
    (List.range' base (s.host.created - base))
  kind_eq : ∀ {view kind}, (view, .pooled kind) ∈ s.held.whereabouts → view.kind = kind
  count_eq : s.held.liveCount + s.held.pooledCount = s.host.created - base

omit [Scalar S] [ViewHandle H V S] in
theorem Conserved.accounted (h : Conserved base s) : Accounted base s where
  base_le := h.complete.base_le
  numbers_perm := by
    have hnumbers : (s.held.whereabouts.map fun entry ↦ entry.1.number) =
        s.held.slots.map fun slot ↦ slot.view.number := by
      have hviews := congrArg (List.map Tracked.number) (map_fst_whereabouts s.held)
      rwa [List.map_map, List.map_map] at hviews
    rw [hnumbers]
    exact h.complete.numbers_perm
  kind_eq {view kind} hview := by
    rw [whereabouts, List.mem_append] at hview
    rcases hview with hlive | hpooled
    · simp at hlive
    · obtain ⟨⟨other, pool⟩, hpool, hslot⟩ := List.mem_flatMap.mp hpooled
      obtain ⟨slot, hfree, heq⟩ := List.mem_map.mp hslot
      obtain ⟨rfl, hplace⟩ := Prod.mk.inj heq
      obtain rfl := Place.pooled.inj hplace
      have hfind : s.held.pool other = pool := by
        rw [ViewStock.pool, Keyed.find?_eq_some_iff.mpr hpool, Option.getD_some]
      have hmem : slot ∈ s.held.slots := List.mem_append_right _
        (List.mem_flatMap.mpr ⟨pool, List.mem_map_of_mem hpool, hfree⟩)
      exact (h.complete.kind_eq slot hmem).trans (h.sound.kind_eq (hfind ▸ hfree))
  count_eq := by
    have hlength := h.complete.numbers_perm.length_eq
    rwa [List.length_map, List.length_range', length_slots] at hlength

end Windowing.ViewStock
