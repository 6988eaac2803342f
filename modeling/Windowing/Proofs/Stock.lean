import Windowing.Pass
import Windowing.Proofs.Ensures
import Windowing.Proofs.Keyed

/-!
# What happens to a stock of views

In a sound stock a live slot says which key it shows, and a pool holds slots of its own kind
only. Under this condition the checks that the bookkeeping makes of itself never fail, and each
operation on the stock comes to a plain function of it. The turn of one key in a layout pass is
described once, as a rule with one case for each thing that can happen; whatever is shown of a
pass is shown by going through these cases.

## Main definitions

* `ViewStock.Sound` — the condition.
* `ViewStock.released`, `ViewStock.vacated`, `ViewStock.put`, `ViewStock.setPool` — the changes of
  a stock.

## Main results

* `ViewStock.release_eq`, `ViewStock.releaseAll_eq` — what releasing views comes to.
* `ViewStock.realize_ensures` — what can happen when a pass comes to a key.
-/

namespace Windowing

/-- A slot as it is live under a key. -/
def Slot.under {K V S : Type} (key : K) (slot : Slot K V S) : Slot K V S :=
  { slot with key := some key }

namespace ViewStock

variable {H K V S α : Type} [DecidableEq K]

/-! ### Changes of a stock -/

/-- The stock with a slot live under a key. -/
def put (key : K) (slot : Slot K V S) (stock : ViewStock K V S) : ViewStock K V S :=
  { stock with live := stock.live.insert key slot }

/-- The stock with another pool of a kind. -/
def setPool (kind : ViewKind) (pool : Pool (Slot K V S)) (stock : ViewStock K V S) :
    ViewStock K V S :=
  { stock with pools := stock.pools.insert kind pool }

/-- The stock with the view live under a key, if there is one, in its pool. -/
def released (stock : ViewStock K V S) (key : K) : ViewStock K V S :=
  match stock.live.find? key with
  | none => stock
  | some slot => putBack slot { stock with live := stock.live.erase key }

variable {stock : ViewStock K V S} {key other : K} {kind : ViewKind} {slot : Slot K V S}

theorem find?_put : (stock.put key slot).live.find? other =
    if other = key then some slot else stock.live.find? other :=
  Keyed.find?_insert ..

theorem put_put (old : Slot K V S) : (stock.put key old).put key slot = stock.put key slot := by
  simp only [put, Keyed.insert_insert]

omit [DecidableEq K] in
theorem pool_setPool (pool : Pool (Slot K V S)) (other : ViewKind) :
    (stock.setPool kind pool).pool other = if other = kind then pool else stock.pool other := by
  simp only [ViewStock.pool, setPool, Keyed.find?_insert]
  split <;> rfl

omit [DecidableEq K] in
theorem pool_putBack (other : ViewKind) :
    (stock.putBack slot).pool other =
      if other = slot.kind then (stock.pool slot.kind).release slot else stock.pool other := by
  simp only [ViewStock.pool, putBack, Keyed.find?_insert]
  split <;> rfl

theorem released_of_none (h : stock.live.find? key = none) : stock.released key = stock := by
  simp only [released, h]

/-- Releasing a key leaves what is live under all others. -/
theorem find?_released : (stock.released key).live.find? other =
    if other = key then none else stock.live.find? other := by
  cases h : stock.live.find? key with
  | none =>
    rw [released_of_none h]
    split
    · next heq => rw [heq, h]
    · rfl
  | some slot =>
    simp only [released, h]
    exact Keyed.find?_erase ..

/-- A released view goes to the pool of its kind, and all other pools stay. -/
theorem pool_released (other : ViewKind) :
    (stock.released key).pool other =
      match stock.live.find? key with
      | none => stock.pool other
      | some slot =>
        if other = slot.kind then (stock.pool slot.kind).release slot else stock.pool other := by
  rw [released]
  cases h : stock.live.find? key with
  | none => rfl
  | some slot => exact pool_putBack other

theorem kindOf?_eq_some_iff : stock.kindOf? key = some kind ↔
    ∃ slot, stock.live.find? key = some slot ∧ slot.kind = kind := by
  simp only [kindOf?, Option.map_eq_some_iff]

/-- Releasing a view of another kind leaves the pool of a kind. -/
theorem pool_released_of_kind (hkind : stock.kindOf? key ≠ some kind) :
    (stock.released key).pool kind = stock.pool kind := by
  rw [pool_released]
  cases hlive : stock.live.find? key with
  | none => rfl
  | some old =>
    have hne : kind ≠ old.kind := fun heq ↦
      hkind (kindOf?_eq_some_iff.mpr ⟨old, hlive, heq.symm⟩)
    exact if_neg hne

/-! ### Soundness -/

/-- Every live slot says which key it shows, and every pooled slot is in the pool of its kind. -/
structure Sound (stock : ViewStock K V S) : Prop where
  key_eq : ∀ {key slot}, stock.live.find? key = some slot → slot.key = some key
  kind_eq : ∀ {kind slot}, slot ∈ (stock.pool kind).free → slot.kind = kind

theorem Sound.empty : (empty : ViewStock K V S).Sound where
  key_eq h := by simp [ViewStock.empty] at h
  kind_eq h := by simp [ViewStock.empty, ViewStock.pool, Pool.empty] at h

theorem Sound.put (h : stock.Sound) (hkey : slot.key = some key) : (stock.put key slot).Sound where
  key_eq {other found} hfind := by
    rw [find?_put] at hfind
    split at hfind
    · next heq =>
      obtain rfl := Option.some.inj hfind
      rw [hkey, heq]
    · exact h.key_eq hfind
  kind_eq := h.kind_eq

theorem Sound.setPool (h : stock.Sound) {pool : Pool (Slot K V S)}
    (hpool : ∀ slot ∈ pool.free, slot.kind = kind) : (stock.setPool kind pool).Sound where
  key_eq := h.key_eq
  kind_eq {other slot} hmem := by
    rw [pool_setPool] at hmem
    split at hmem
    · next heq => rw [hpool slot hmem, heq]
    · exact h.kind_eq hmem

theorem Sound.released (h : stock.Sound) (key : K) : (stock.released key).Sound where
  key_eq {other slot} hfind := by
    rw [find?_released] at hfind
    split at hfind
    · cases hfind
    · exact h.key_eq hfind
  kind_eq {kind slot} hmem := by
    rw [pool_released] at hmem
    cases hlive : stock.live.find? key with
    | none =>
      rw [hlive] at hmem
      exact h.kind_eq hmem
    | some old =>
      simp only [hlive] at hmem
      split at hmem
      · next heq =>
        rcases List.mem_cons.mp hmem with rfl | hold
        · exact heq.symm
        · rw [h.kind_eq hold, heq]
      · exact h.kind_eq hmem

/-! ### Releasing views -/

/-- Releasing a view does not fail if its slot says which key it shows. -/
theorem release_of_labelled (h : ∀ slot, stock.live.find? key = some slot → slot.key = some key) :
    release key stock = .ok (stock.live.find? key).isSome (stock.released key) := by
  rw [Step.eq_ok_iff, release, released]
  cases hlive : stock.live.find? key with
  | none => simp [hlive]
  | some slot => simp [hlive, h slot hlive]

/-- In a sound stock, releasing a view does not fail. -/
theorem release_eq (h : stock.Sound) (key : K) :
    release key stock = .ok (stock.live.find? key).isSome (stock.released key) :=
  release_of_labelled fun _ hlive ↦ h.key_eq hlive

/-- In a sound stock, releasing the views of several keys does not fail. -/
theorem releaseAll_eq (keys : List K) (h : stock.Sound) :
    ∃ count, releaseAll keys stock = .ok count (keys.foldl ViewStock.released stock) := by
  induction keys generalizing stock with
  | nil => exact ⟨0, rfl⟩
  | cons key rest ih =>
    obtain ⟨count, hrest⟩ := ih (h.released key)
    refine ⟨count + (stock.live.find? key).isSome.toNat, ?_⟩
    rw [Step.eq_ok_iff]
    simp [releaseAll, Step.ensures_of_eq_ok (release_eq h key), Step.ensures_of_eq_ok hrest]

/-- After some keys are released, a view is live under the others only. -/
theorem find?_foldl_released (keys : List K) (stock : ViewStock K V S) (other : K) :
    (keys.foldl released stock).live.find? other =
      if other ∈ keys then none else stock.live.find? other := by
  induction keys generalizing stock with
  | nil => simp
  | cons key rest ih =>
    rw [List.foldl_cons, ih, find?_released]
    by_cases hrest : other ∈ rest
    · simp [hrest]
    · by_cases hkey : other = key <;> simp [hrest, hkey]

/-- The stock after the views that are to go went to their pools. -/
def vacated (rebind : Bool) (leaving : List K) (inWindow : K → Bool) (stock : ViewStock K V S) :
    ViewStock K V S :=
  (if rebind then stock.live.keys.filter (!inWindow ·) else leaving).foldl released stock

/-- The views that go to their pools are those outside the window in a rebinding pass, and those
of the leaving keys in any other. -/
theorem vacate_eq (h : stock.Sound) (rebind : Bool) (leaving : List K) (inWindow : K → Bool) :
    ∃ count, vacate rebind leaving inWindow stock = .ok count
      (stock.vacated rebind leaving inWindow) := by
  rw [vacate, vacated]
  split
  · exact releaseAll_eq _ h
  · exact releaseAll_eq _ h

/-! ### Live views and supply -/

/-- A step on the view live under a key is a step on its slot, which is put back. -/
@[simp]
theorem ensures_onLive {s : Hosted H (ViewStock K V S)} (key : K)
    (step : Step (Hosted H (Slot K V S)) α)
    {ok : Option α → Hosted H (ViewStock K V S) → Prop}
    {cut : Hosted H (ViewStock K V S) → Prop} :
    (onLive key step).Ensures s ok cut ↔
      match s.held.live.find? key with
      | none => ok none s
      | some slot =>
        step.Ensures ⟨s.host, slot⟩ (fun a t ↦ ok (some a) ⟨t.host, s.held.put key t.held⟩)
          fun t ↦ cut ⟨t.host, s.held.put key t.held⟩ := by
  rw [onLive]
  simp only [Step.ensures_bind, Step.ensures_get]
  cases s.held.live.find? key with
  | none => simp
  | some slot => simp [put]

/-- Styling views is not cut short. -/
theorem restyle_answers [BEq K] [Hashable K] [ViewHandle H V S]
    (changes : List (Selection.Change K)) (s : Hosted H (ViewStock K V S)) :
    (restyle changes).Ensures s (fun _ _ ↦ True) fun _ ↦ False := by
  induction changes generalizing s with
  | nil => trivial
  | cons change rest ih =>
    simp only [restyle, Step.ensures_bind, ensures_onLive, Step.ensures_modify]
    cases s.held.live.find? change.key with
    | none => exact ih s
    | some slot => exact ih _

theorem releaseForeign_eq (h : stock.Sound) (hkind : stock.kindOf? key ≠ some kind) :
    releaseForeign key kind stock =
      .ok (stock.live.find? key).isSome (stock.released key) := by
  rw [Step.eq_ok_iff, releaseForeign]
  simp only [Step.ensures_bind, Step.ensures_get]
  cases hlive : stock.live.find? key with
  | none => simp [kindOf?, hlive, released_of_none hlive]
  | some slot =>
    have hne : slot.kind ≠ kind := by simpa [kindOf?, hlive] using hkind
    simp [kindOf?, hlive, hne, Step.ensures_of_eq_ok (release_eq h key)]

theorem releaseForeign_eq_of_kind (hkind : stock.kindOf? key = some kind) :
    releaseForeign key kind stock = .ok false stock := by
  rw [Step.eq_ok_iff, releaseForeign]
  simp [hkind]

omit [DecidableEq K] in
theorem takePooled_eq (kind : ViewKind) (stock : ViewStock K V S) :
    takePooled kind stock = .ok (stock.pool kind).free.head?
      (stock.setPool kind ⟨(stock.pool kind).free.tail⟩) := rfl

/-- Where a key has no live view, making a slot live under it does not fail. -/
theorem goLive_eq (hfree : stock.live.find? key = none) (slot : Slot K V S) :
    supply.goLive key slot stock = .ok () (stock.put key (slot.under key)) := by
  rw [Step.eq_ok_iff, supply.goLive]
  simp [hfree, put, Slot.under]

/-- What can happen when a key without a live view is to be given one. -/
theorem supply_ensures {s : Hosted H (ViewStock K V S)} {create : Step H (Option V)}
    {ok : Option Bool → Hosted H (ViewStock K V S) → Prop}
    {cut : Hosted H (ViewStock K V S) → Prop}
    (h : s.held.Sound) (hfree : s.held.live.find? key = none)
    (reused : ∀ slot rest, (s.held.pool kind).free = slot :: rest →
      ok (some false) ⟨s.host, (s.held.setPool kind ⟨rest⟩).put key (slot.under key)⟩)
    (asked : (s.held.pool kind).free = [] →
      create.Ensures s.host
        (fun view? host ↦
          match view? with
          | some view => ok (some true)
            ⟨host, (s.held.setPool kind ⟨[]⟩).put key ((Slot.ofView view kind).under key)⟩
          | none => ok none ⟨host, s.held.setPool kind ⟨[]⟩⟩)
        fun host ↦ cut ⟨host, s.held.setPool kind ⟨[]⟩⟩) :
    (supply key kind create).Ensures s ok cut := by
  have hlive (pool : Pool (Slot K V S)) :
      (s.held.setPool kind pool).live.find? key = none := hfree
  rw [supply]
  simp only [Step.ensures_bind, Step.ensures_onHeld,
    Step.ensures_of_eq_ok (takePooled_eq kind s.held)]
  cases hpool : (s.held.pool kind).free with
  | nil =>
    simp only [List.head?_nil, List.tail_nil, Step.ensures_bind, Step.ensures_onHost]
    refine (asked hpool).mono (fun view? host hview ↦ ?_) fun _ hcut ↦ hcut
    cases view? with
    | none => simpa using hview
    | some view => simpa [Step.ensures_of_eq_ok (goLive_eq (hlive _) _)] using hview
  | cons slot rest =>
    have hslot : slot.kind = kind := h.kind_eq (hpool ▸ List.mem_cons_self)
    simpa [Step.ensures_of_eq_ok (goLive_eq (hlive _) _), hslot] using reused slot rest hpool

variable [Scalar S] [ViewHandle H V S]

/-- What can happen when a pass comes to a key of its window. -/
theorem realize_ensures {source : ViewSource K H V} {layout : Layout K S}
    {s : Hosted H (ViewStock K V S)} {ok : Tally → Hosted H (ViewStock K V S) → Prop}
    {cut : Hosted H (ViewStock K V S) → Prop} (h : s.held.Sound)
    (lost : ∀ fault, layout.rect key = .error fault → cut s)
    (kept : ∀ rect slot, layout.rect key = .ok rect → s.held.live.find? key = some slot →
      slot.kind = source.kind s.host key →
      (keep source layout key rect).Ensures ⟨s.host, slot⟩
        (fun tally t ↦ ok ({ released := 0 } + tally) ⟨t.host, s.held.put key t.held⟩)
        fun t ↦ cut ⟨t.host, s.held.put key t.held⟩)
    (reused : ∀ rect slot rest, layout.rect key = .ok rect →
      s.held.kindOf? key ≠ some (source.kind s.host key) →
      (s.held.pool (source.kind s.host key)).free = slot :: rest →
      let stock := (s.held.released key).setPool (source.kind s.host key) ⟨rest⟩
      (enter source layout key rect).Ensures ⟨s.host, slot.under key⟩
        (fun tally t ↦ ok ({ released := (s.held.live.find? key).isSome.toNat } + tally + {})
          ⟨t.host, stock.put key t.held⟩)
        fun t ↦ cut ⟨t.host, stock.put key t.held⟩)
    (asked : ∀ rect, layout.rect key = .ok rect →
      s.held.kindOf? key ≠ some (source.kind s.host key) →
      (s.held.pool (source.kind s.host key)).free = [] →
      let stock := (s.held.released key).setPool (source.kind s.host key) ⟨[]⟩
      (source.create (source.kind s.host key)).Ensures s.host
        (fun view? host ↦
          match view? with
          | some view =>
            (enter source layout key rect).Ensures
              ⟨host, (Slot.ofView view (source.kind s.host key)).under key⟩
              (fun tally t ↦ ok
                ({ released := (s.held.live.find? key).isSome.toNat } + tally + { created := 1 })
                ⟨t.host, stock.put key t.held⟩)
              fun t ↦ cut ⟨t.host, stock.put key t.held⟩
          | none => ok { released := (s.held.live.find? key).isSome.toNat } ⟨host, stock⟩)
        fun host ↦ cut ⟨host, stock⟩) :
    (realize source layout key).Ensures s ok cut := by
  rw [realize]
  cases hrect : layout.rect key with
  | error fault => simpa using lost fault hrect
  | ok rect =>
    simp only [Step.ensures_bind, Step.ensures_ofExcept, Step.ensures_get, Step.ensures_onHeld]
    by_cases hkind : s.held.kindOf? key = some (source.kind s.host key)
    · obtain ⟨slot, hlive, hslot⟩ := kindOf?_eq_some_iff.mp hkind
      simpa [Step.ensures_of_eq_ok (releaseForeign_eq_of_kind hkind), hlive]
        using kept rect slot hrect hlive hslot
    · have hfree : (s.held.released key).live.find? key = none := by simp [find?_released]
      simp only [Step.ensures_of_eq_ok (releaseForeign_eq h hkind), ensures_onLive, hfree,
        Step.ensures_bind]
      have hpool := pool_released_of_kind hkind
      refine supply_ensures (h.released key) hfree (fun slot rest hslots ↦ ?_) fun hnil ↦ ?_
      · simpa [find?_put, put_put] using reused rect slot rest hrect hkind (hpool ▸ hslots)
      · refine (asked rect hrect hkind (hpool ▸ hnil)).mono (fun view? host hview ↦ ?_)
          fun _ hcut ↦ hcut
        cases view? with
        | none => simpa using hview
        | some view => simpa [find?_put, put_put] using hview

end ViewStock

end Windowing
