import Mathlib.Data.List.MinMax
import Mathlib.Order.Nat
import Windowing.Proofs.Following
import Windowing.Proofs.Recording

/-!
# How many views a pass has built

The host is asked for a view only where the pool of its kind is empty. Then every view of the kind
is live, and after the views outside the window went to their pools, live views are in the window
under different keys. The key that asks is in the window too, and it has no view; so there are fewer
views of the kind than keys in the window. A view that is not built is moved, and moving one changes
neither how many there are nor their kinds.

## Main definitions

* `ViewStock.kinds`, `ViewStock.countOf` — the kinds of all views, and how many there are of one.
* `ViewStock.Stocked` — how many views a stock holds at least, and of one kind at most.

## Main results

* `ViewStock.countOf_lt_of_pool` — where the pool of a kind is empty, there is room for one more.
* `ViewStock.follow_stocked` — a pass keeps as many views of a kind as its window has keys, or as
  there were before.
* `ViewStock.stocked_since` — a run keeps as many as the largest window since the stock was emptied.
-/

namespace Windowing

namespace ViewStock

variable {H K V S : Type}

/-! ### The kinds of the views -/

/-- The kinds of all views of a stock, in use and in the pools, one entry for each view. -/
def kinds (stock : ViewStock K V S) : List ViewKind :=
  stock.slots.map Slot.kind

/-- The number of views of a kind, in use and in the pools. -/
def countOf (kind : ViewKind) (stock : ViewStock K V S) : Nat :=
  stock.kinds.count kind

theorem length_kinds (stock : ViewStock K V S) :
    stock.kinds.length = stock.liveCount + stock.pooledCount := by
  rw [kinds, List.length_map, length_slots]

/-- A record changes no kinds. -/
theorem kinds_bare (stock : ViewStock K (Tracked K V S) S) : stock.bare.kinds = stock.kinds := by
  simp only [kinds, slots, bare, Keyed.values_map, List.map_append, List.map_map, List.map_flatMap,
    List.flatMap_map, Pool.map]
  rfl

/-- Taking views out of a pool takes their kinds. -/
theorem kinds_setPool_perm {stock : ViewStock K V S} {kind : ViewKind} (taken rest)
    (hpool : (stock.pool kind).free = taken ++ rest) :
    stock.kinds.Perm (taken.map Slot.kind ++ (stock.setPool kind ⟨rest⟩).kinds) := by
  have hbefore := slots_perm_slotsBeside kind stock
  have hafter := slots_setPool_perm kind ⟨rest⟩ stock
  rw [hpool, List.append_assoc] at hbefore
  rw [kinds, kinds, ← List.map_append]
  exact (hbefore.trans (hafter.symm.append_left taken)).map Slot.kind

variable [DecidableEq K] {stock : ViewStock K V S} {key : K} {kind : ViewKind}
  {slot old : Slot K V S}

theorem kinds_released_perm (key : K) (stock : ViewStock K V S) :
    (stock.released key).kinds.Perm stock.kinds :=
  (slots_released_perm key stock).map Slot.kind

theorem kinds_foldl_released_perm (keys : List K) (stock : ViewStock K V S) :
    (keys.foldl released stock).kinds.Perm stock.kinds := by
  induction keys generalizing stock with
  | nil => exact .refl _
  | cons key rest ih => exact (ih _).trans (kinds_released_perm key stock)

/-- Working on a live view leaves the kinds as they are. -/
theorem kinds_put_perm (hlive : stock.live.find? key = some old) (hkind : slot.kind = old.kind) :
    (stock.put key slot).kinds.Perm stock.kinds := by
  have hslots := (slots_perm_slotsWithout hlive).map Slot.kind
  rw [List.map_cons, ← hkind] at hslots
  exact hslots.symm

/-- A key that had no view brings the kind of the one that it gets. -/
theorem kinds_put_of_none (hfree : stock.live.find? key = none) :
    (stock.put key slot).kinds = slot.kind :: stock.kinds := by
  rw [kinds, slots_put, slotsWithout_of_none hfree, List.map_cons, kinds]

/-- Where the pool of a kind is empty, all views of the kind are live. -/
theorem countOf_le_liveCount (h : stock.Sound) (hpool : (stock.pool kind).free = []) :
    stock.countOf kind ≤ stock.liveCount := by
  have hpooled : kind ∉ (stock.pools.values.flatMap Pool.free).map Slot.kind := by
    rw [List.mem_map]
    rintro ⟨slot, hslot, rfl⟩
    obtain ⟨pool, hmem, hfree⟩ := List.mem_flatMap.mp hslot
    obtain ⟨other, hfind⟩ := Keyed.mem_values_iff.mp hmem
    have hother : stock.pool other = pool := by rw [ViewStock.pool, hfind, Option.getD_some]
    have hkind : slot.kind = other := h.kind_eq (hother ▸ hfree)
    rw [hkind, hother] at hpool
    rw [hpool] at hfree
    cases hfree
  rw [countOf, kinds, slots, List.map_append, List.count_append, List.count_eq_zero.mpr hpooled,
    Nat.add_zero]
  exact List.count_le_length.trans (by rw [List.length_map, Keyed.length_values, liveCount])

/-- Where the pool of a kind is empty and a key of the window has no view, there are fewer views of
the kind than keys in the window. -/
theorem countOf_lt_of_pool {window : List K} (h : stock.Sound)
    (hpool : (stock.pool kind).free = []) (hkey : key ∈ window)
    (hfree : stock.live.find? key = none)
    (hwindow : ∀ {other slot}, stock.live.find? other = some slot → other ∈ window) :
    stock.countOf kind < window.length := by
  have hlive : stock.live.keys ⊆ window.erase key := by
    intro other hother
    obtain ⟨slot, hslot⟩ : ∃ slot, stock.live.find? other = some slot :=
      Option.ne_none_iff_exists'.mp fun hnone ↦ Keyed.find?_eq_none_iff.mp hnone hother
    refine (List.mem_erase_of_ne ?_).mpr (hwindow hslot)
    rintro rfl
    rw [hfree] at hslot
    cases hslot
  have hkeys : stock.live.keys.length ≤ (window.erase key).length :=
    (List.subperm_of_subset stock.live.nodup hlive).length_le
  have hcount : stock.countOf kind ≤ stock.live.keys.length :=
    (countOf_le_liveCount h hpool).trans_eq (List.length_map _).symm
  have hpos : 0 < window.length := List.length_pos_of_mem hkey
  rw [List.length_erase_of_mem hkey] at hkeys
  omega

/-! ### How many views there are -/

/-- The stock holds at least `least` views, at most `most` of each kind, and only views of the kinds
that are needed. -/
structure Stocked (needs : ViewKind → Prop) (least most : Nat) (stock : ViewStock K V S) :
    Prop where
  least_le : least ≤ stock.kinds.length
  countOf_le : ∀ kind, stock.countOf kind ≤ most
  needs : ∀ kind ∈ stock.kinds, needs kind

namespace Stocked

variable {W : Type} {needs : ViewKind → Prop} {least most : Nat} {other : ViewStock K W S}

omit [DecidableEq K]

theorem empty (needs : ViewKind → Prop) (most : Nat) :
    (ViewStock.empty : ViewStock K V S).Stocked needs 0 most :=
  ⟨Nat.zero_le _, fun _ ↦ Nat.zero_le _, nofun⟩

theorem mono {most' : Nat} (h : stock.Stocked needs least most) (hmost : most ≤ most') :
    stock.Stocked needs least most' :=
  ⟨h.least_le, fun kind ↦ (h.countOf_le kind).trans hmost, h.needs⟩

theorem perm (h : stock.Stocked needs least most) (hkinds : other.kinds.Perm stock.kinds) :
    other.Stocked needs least most where
  least_le := h.least_le.trans_eq hkinds.length_eq.symm
  countOf_le kind := (hkinds.count_eq kind).trans_le (h.countOf_le kind)
  needs kind hkind := h.needs kind (hkinds.subset hkind)

/-- A view that is added is of a kind that is needed and of which there is room for one more. -/
theorem add (h : stock.Stocked needs least most) (hkind : needs kind)
    (hroom : stock.countOf kind < most) (hkinds : other.kinds.Perm (kind :: stock.kinds)) :
    other.Stocked needs least most where
  least_le := by
    rw [hkinds.length_eq, List.length_cons]
    exact h.least_le.trans (Nat.le_succ _)
  countOf_le wanted := by
    rw [countOf, hkinds.count_eq, List.count_cons]
    split
    · next heq =>
      obtain rfl := beq_iff_eq.mp heq
      exact hroom
    · exact h.countOf_le wanted
  needs wanted hwanted := by
    rcases List.mem_cons.mp (hkinds.subset hwanted) with rfl | hold
    · exact hkind
    · exact h.needs wanted hold

/-- Where all views are of one kind, there are no more of them than of this kind. -/
theorem length_le (h : stock.Stocked needs least most)
    (hone : ∀ kind', needs kind' → kind' = kind) :
    stock.kinds.length ≤ most := by
  have hcount : stock.countOf kind = stock.kinds.length :=
    List.count_eq_length.mpr fun wanted hwanted ↦ (hone wanted (h.needs wanted hwanted)).symm
  exact hcount ▸ h.countOf_le kind

end Stocked

/-! ### A pass -/

variable [ViewHandle H V S] {source : ViewSource K (Journal H K S) (Tracked K V S)} {base : Nat}
  {least most : Nat} {needs : ViewKind → Prop}
  {s : Hosted (Journal H K S) (ViewStock K (Tracked K V S) S)}

/-- Work on live views beside a pass changes neither how many there are nor their kinds. -/
theorem upheld_stocked (needs : ViewKind → Prop) (least most : Nat) :
    Upheld fun s : Hosted (Journal H K S) (ViewStock K (Tracked K V S) S) ↦
      s.held.Stocked needs least most where
  withHost _ h := h
  style _ h hlive := h.perm (kinds_put_perm hlive rfl)
  editView _ h hlive := h.perm (kinds_put_perm hlive rfl)

theorem refill_stocked (hsource : source.Journals) (key : K) (selected : Bool)
    (h : s.held.Stocked needs least most) :
    (refill source key selected).Ensures s (fun _ t ↦ t.held.Stocked needs least most)
      fun t ↦ t.held.Stocked needs least most := by
  simp only [refill, Step.ensures_bind, ensures_onLive]
  cases hlive : s.held.live.find? key with
  | none => exact h
  | some slot =>
    refine (present_ensures hsource key selected _).mono (fun _ t ht ↦ ?_) fun t ht ↦ ?_
    · exact h.perm (kinds_put_perm hlive ht.1.kind_eq)
    · exact h.perm (kinds_put_perm hlive ht.1.kind_eq)

variable [Scalar S] {layout : Layout K S} {window : List K}

/-- The turn of a key of the window has at most one view built, and only where there are fewer views
of its kind than keys in the window. -/
theorem realize_stocked (hsource : source.Journals)
    (hneeds : ∀ host key, needs (source.kind host key)) {key : K} (hkey : key ∈ window)
    (hmost : window.length ≤ most) (hsound : s.held.Sound)
    (hwindow : ∀ {other slot}, s.held.live.find? other = some slot → other ∈ window)
    (h : s.held.Stocked needs least most) :
    (realize source layout key).Ensures s (fun _ t ↦ t.held.Stocked needs least most)
      fun t ↦ t.held.Stocked needs least most := by
  have hreleased := h.perm (kinds_released_perm key s.held)
  have hfree : (s.held.released key).live.find? key = none := by simp [find?_released]
  have hstays {other : K} {slot : Slot K (Tracked K V S) S}
      (hslot : (s.held.released key).live.find? other = some slot) : other ∈ window := by
    rw [find?_released] at hslot
    split at hslot
    · cases hslot
    · exact hwindow hslot
  refine realize_ensures hsound (fun _ _ ↦ h) ?kept ?reused ?asked
  case kept =>
    intro rect slot _ hlive _
    exact (keep_ensures hsource _).mono
      (fun _ _ ht ↦ h.perm (kinds_put_perm hlive ht.1.kind_eq))
      fun _ ht ↦ h.perm (kinds_put_perm hlive ht.1.kind_eq)
  case reused =>
    intro rect slot rest _ hkind hpool stock
    rw [← pool_released_of_kind hkind] at hpool
    have hkinds : (s.held.released key).kinds.Perm (slot.kind :: stock.kinds) :=
      kinds_setPool_perm [slot] rest hpool
    have hput {t : Hosted (Journal H K S) (Slot K (Tracked K V S) S)}
        (ht : Slot.SameView ⟨s.host, slot.under key⟩ t) :
        (stock.put key t.held).Stocked needs least most := by
      have hadded : (stock.put key t.held).kinds = t.held.kind :: stock.kinds :=
        kinds_put_of_none hfree
      have hsame : t.held.kind = slot.kind := ht.kind_eq
      rw [hsame] at hadded
      exact hreleased.perm (hadded ▸ hkinds.symm)
    exact (enter_ensures hsource _).mono (fun _ _ ht ↦ hput ht.1) fun _ ht ↦ hput ht
  case asked =>
    intro rect _ hkind hpool stock
    rw [← pool_released_of_kind hkind] at hpool
    have hkinds : stock.kinds.Perm (s.held.released key).kinds :=
      (kinds_setPool_perm [] [] hpool).symm
    have hroom := countOf_lt_of_pool (hsound.released key) hpool hkey hfree hstays
    have hput {slot : Slot K (Tracked K V S) S} (hslot : slot.kind = source.kind s.host key) :
        (stock.put key slot).Stocked needs least most := by
      have hadded : (stock.put key slot).kinds = slot.kind :: stock.kinds := kinds_put_of_none hfree
      rw [hslot] at hadded
      exact hreleased.add (hneeds s.host key) (hroom.trans_le hmost) (hadded ▸ hkinds.cons _)
    refine Step.ensures_of_forall (fun view? host ↦ ?_) fun _ ↦ hreleased.perm hkinds
    cases view? with
    | none => exact hreleased.perm hkinds
    | some view =>
      exact (enter_ensures hsource _).mono (fun _ _ ht ↦ hput ht.1.kind_eq)
        fun _ ht ↦ hput ht.kind_eq

theorem realizeAll_stocked (hsource : source.Journals)
    (hneeds : ∀ host key, needs (source.kind host key)) {keys : List K}
    (hkeys : ∀ key ∈ keys, key ∈ window) (hmost : window.length ≤ most)
    (hconserved : Conserved base s)
    (hwindow : ∀ {other slot}, s.held.live.find? other = some slot → other ∈ window)
    (h : s.held.Stocked needs least most) :
    (realizeAll source layout keys).Ensures s (fun _ t ↦ t.held.Stocked needs least most)
      fun t ↦ t.held.Stocked needs least most := by
  induction keys generalizing s with
  | nil => exact h
  | cons key rest ih =>
    obtain ⟨hkey, hrest⟩ := List.forall_mem_cons.mp hkeys
    have hturn : (realize source layout key).Ensures s _ _ :=
      realize_turn hsource key hconserved.sound
    have hstocked : (realize source layout key).Ensures s _ _ :=
      realize_stocked hsource hneeds hkey hmost hconserved.sound hwindow h
    have hkept : (realize source layout key).Ensures s _ _ :=
      realize_conserved hsource key hconserved
    simp only [realizeAll, Step.ensures_bind]
    refine ((hturn.and hkept).and hstocked).mono (fun _ t ht ↦ ?_) fun _ ht ↦ ht.2
    obtain ⟨⟨hturn, hkept⟩, hstocked⟩ := ht
    refine (ih hrest hkept (fun {other slot} hslot ↦ ?_) hstocked).mono (fun _ _ hu ↦ hu)
      fun _ hu ↦ hu
    by_cases hother : other = key
    · exact hother ▸ hkey
    · exact hwindow ((hturn.beside other hother).symm.trans hslot)

/-- A pass, completed or not, leaves no more views of a kind than its window has keys, unless there
were more before. -/
theorem follow_stocked (hsource : source.Journals)
    (hneeds : ∀ host key, needs (source.kind host key)) {leaving keys : List K}
    {inWindow : K → Bool} (hwindow : ∀ key, inWindow key = true ↔ key ∈ keys)
    (hleaving : ∀ key ∈ leaving, key ∉ keys)
    (hconserved : Conserved base s) (htidy : layout.rebind = false → Tidy leaving keys s)
    (h : s.held.Stocked needs least most) :
    (follow source layout leaving keys inWindow).Ensures s
      (fun _ t ↦ t.held.Stocked needs least (max most keys.length))
      fun t ↦ t.held.Stocked needs least (max most keys.length) := by
  obtain ⟨count, hvacate⟩ := vacate_eq hconserved.sound layout.rebind leaving inWindow
  have hvacated := find?_vacated hwindow hleaving htidy
  have hinside {other : K} {slot : Slot K (Tracked K V S) S}
      (hslot : (s.held.vacated layout.rebind leaving inWindow).live.find? other = some slot) :
      other ∈ keys := by
    by_contra hout
    rw [hvacated, if_neg hout] at hslot
    cases hslot
  have hstocked := (h.mono (Nat.le_max_left most keys.length)).perm
    (kinds_foldl_released_perm (if layout.rebind then s.held.live.keys.filter (!inWindow ·)
      else leaving) s.held)
  simp only [follow, Step.ensures_bind, Step.ensures_onHeld, Step.ensures_of_eq_ok hvacate,
    Step.ensures_get, Step.ensures_require, Step.ensures_pure]
  refine (realizeAll_stocked hsource hneeds (fun _ ↦ id) (Nat.le_max_right ..)
    (hconserved.foldl_released _) hinside hstocked).mono (fun _ t ht ↦ ?_) fun _ ht ↦ ht
  split
  · exact ht
  · exact ht

omit [Scalar S] in
/-- Where the host refused no view, a completed pass leaves as many views as its window has keys. -/
theorem Exact.length_le {keys : List K} (h : Exact source keys [] s) (hkeys : keys.Nodup) :
    keys.length ≤ s.held.kinds.length := by
  have hlive : keys ⊆ s.held.live.keys := by
    intro key hkey
    obtain ⟨slot, hslot⟩ := Option.isSome_iff_exists.mp
      ((h.live_iff key).mpr ⟨hkey, List.not_mem_nil⟩)
    exact Keyed.mem_keys_of_find? hslot
  have hcount : s.held.live.keys.length = s.held.liveCount := List.length_map _
  rw [length_kinds]
  exact ((List.subperm_of_subset hkeys hlive).length_le.trans_eq hcount).trans
    (Nat.le_add_right ..)

end ViewStock

/-! ### A run -/

section Run

variable {K V S α β σ : Type}

/-- The largest of what is measured of some calls, each with the state in which it was made. -/
def Step.largest (measure : β → σ → Nat) (made : List (β × σ)) : Nat :=
  (made.map fun entry ↦ measure entry.1 entry.2).foldr max 0

/-- A bound of everything that is measured is one of the largest. -/
theorem Step.largest_le {measure : β → σ → Nat} {made : List (β × σ)} {bound : Nat}
    (h : ∀ entry ∈ made, measure entry.1 entry.2 ≤ bound) : Step.largest measure made ≤ bound :=
  List.max_le_of_forall_le _ _ (List.forall_mem_map.mpr h)

/-- Suppose that a call leaves no more views of a kind than there were, or than the window has keys
that it is about, and that a marked call leaves none. Then after a run there are no more than the
largest window has keys that a call since the last marked one was about. If a call that fills its
window leaves as many views as there are keys in it, as many are still there. -/
theorem ViewStock.stocked_since {perform : β → Step σ α} {marked : β → Bool}
    {needs : ViewKind → Prop} (stock : σ → ViewStock K V S) (coherent : σ → Prop)
    (size : β → σ → Nat) (fills : β → σ → Prop)
    (hcoherent : ∀ call s, coherent s → coherent ((perform call).after s))
    (hempties : ∀ call s, marked call = true → stock ((perform call).after s) = .empty)
    (hgrows : ∀ call s, marked call = false → coherent s → ∀ {least most},
      (stock s).Stocked needs least most →
        (stock ((perform call).after s)).Stocked needs least (max most (size call s)))
    (hfills : ∀ call s, marked call = false → coherent s → fills call s →
      size call s ≤ (stock ((perform call).after s)).kinds.length)
    (calls : List β) {s : σ} (hs : coherent s) (hempty : stock s = .empty) :
    let made := Step.since perform marked calls s []
    let last := stock (Step.runAll perform calls s).2
    last.Stocked needs 0 (Step.largest size made) ∧
      ∀ entry ∈ made, fills entry.1 entry.2 → size entry.1 entry.2 ≤ last.kinds.length := by
  intro made last
  refine (Step.holds_since (fun made t ↦ coherent t ∧
    (stock t).Stocked needs 0 (Step.largest size made) ∧
      ∀ entry ∈ made, fills entry.1 entry.2 → size entry.1 entry.2 ≤ (stock t).kinds.length)
    (fun call earlier t ⟨ht, hstocked, hfilled⟩ ↦ ?_) calls [] s
    ⟨hs, hempty ▸ .empty needs 0, nofun⟩).2
  refine ⟨hcoherent call t ht, ?_⟩
  cases hcall : marked call with
  | true =>
    rw [hempties call t hcall]
    exact ⟨.empty needs 0, nofun⟩
  | false =>
    have hafter := hgrows call t hcall ht ⟨Nat.le_refl _, hstocked.countOf_le, hstocked.needs⟩
    refine ⟨⟨Nat.zero_le _, fun kind ↦ ?_, hafter.needs⟩, fun entry hentry hfull ↦ ?_⟩
    · exact (hafter.countOf_le kind).trans_eq (Nat.max_comm ..)
    · rcases List.mem_cons.mp hentry with rfl | hearlier
      · exact hfills call t hcall ht hfull
      · exact (hfilled entry hearlier hfull).trans hafter.least_le

/-- Where all views are of one kind, and there are as many as every window has keys, there are as
many as the largest one has. -/
theorem ViewStock.Stocked.count_eq_largest {stock : ViewStock K V S} {kind : ViewKind}
    {measure : β → σ → Nat} {made : List (β × σ)}
    (h : stock.Stocked (· = kind) 0 (Step.largest measure made))
    (hmade : ∀ entry ∈ made, measure entry.1 entry.2 ≤ stock.kinds.length) :
    stock.liveCount + stock.pooledCount = Step.largest measure made := by
  rw [← length_kinds]
  exact Nat.le_antisymm (h.length_le fun _ ↦ id) (Step.largest_le hmade)

end Run

end Windowing
