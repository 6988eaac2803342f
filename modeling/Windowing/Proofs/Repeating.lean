import Windowing.Proofs.Exact
import Windowing.Proofs.Following

/-!
# Passes made twice

A completed pass leaves each view of its window where it belongs and of the kind that the source
asked for. A pass that follows with the same window and the same answers of the source finds
nothing to do then: it tells no view anything, it moves none, and it leaves the host alone.

## Main definitions

* `ViewStock.SameViews` — two stocks with the same views in the same places.
* `ViewStock.askedKinds` — the kinds that a pass asks the source for.
* `ViewStock.Placed` — a key has a view, and the view is where the key goes to.

## Main results

* `ViewStock.follow_placed` — what a completed pass leaves.
* `ViewStock.follow_again` — a pass that finds it so does nothing.
-/

namespace Windowing

variable {H K V : Type}

/-! ### Placing a view where it is -/

/-- A view is told nothing when it goes where it is. -/
theorem Slot.place_of_placed [ViewHandle H V Rat] {slot : Hosted H (Slot K V Rat)}
    {rect : Rect Rat} (h : slot.held.placed = some rect) : place rect false slot = slot := by
  obtain ⟨host, ⟨view, kind, key, placed⟩⟩ := slot
  obtain rfl : placed = some rect := h
  simp [place, Size.eq_iff, Point.eq_iff]

namespace ViewStock

variable {S : Type} [DecidableEq K]

/-! ### The same views -/

/-- The same views are live under the same keys, and the same views wait in the same pools. -/
structure SameViews (before after : ViewStock K V S) : Prop where
  find?_eq : ∀ key, after.live.find? key = before.live.find? key
  pools_eq : after.pools = before.pools

theorem SameViews.refl (stock : ViewStock K V S) : SameViews stock stock :=
  ⟨fun _ ↦ rfl, rfl⟩

theorem SameViews.trans {a b c : ViewStock K V S} (hab : SameViews a b) (hbc : SameViews b c) :
    SameViews a c :=
  ⟨fun key ↦ (hbc.find?_eq key).trans (hab.find?_eq key), hbc.pools_eq.trans hab.pools_eq⟩

/-- Writing back what is there changes no view. -/
theorem sameViews_put {stock : ViewStock K V S} {key : K} {slot : Slot K V S}
    (h : stock.live.find? key = some slot) : SameViews stock (stock.put key slot) where
  find?_eq other := by
    rw [find?_put]
    split
    · next heq => rw [heq, h]
    · rfl
  pools_eq := rfl

theorem SameViews.mem_keys_iff {a b : ViewStock K V S} (h : SameViews a b) (key : K) :
    key ∈ b.live.keys ↔ key ∈ a.live.keys := by
  rw [← not_iff_not, ← Keyed.find?_eq_none_iff, ← Keyed.find?_eq_none_iff, h.find?_eq]

/-! ### What the source is asked -/

variable [Scalar S] [ViewHandle H V S]

/-- The kinds that the source answers when a pass comes to the given keys, one after another. -/
def askedKinds (source : ViewSource K H V) (layout : Layout K S) :
    List K → Hosted H (ViewStock K V S) → List ViewKind
  | [], _ => []
  | key :: rest, s =>
    source.kind s.host key :: askedKinds source layout rest ((realize source layout key).after s)

/-- The kinds that the source answers in a pass. -/
def askedIn (source : ViewSource K H V) (layout : Layout K S) (leaving keys : List K)
    (inWindow : K → Bool) (s : Hosted H (ViewStock K V S)) : List ViewKind :=
  askedKinds source layout keys ⟨s.host, (vacate layout.rebind leaving inWindow).after s.held⟩

/-! ### What a pass leaves -/

/-- If the key has a view, the view was last given the rectangle that the key goes to. -/
def Placed (layout : Layout K S) (stock : ViewStock K V S) (key : K) : Prop :=
  ∀ slot, stock.live.find? key = some slot →
    ∃ rect, layout.rect key = .ok rect ∧ slot.placed = some rect

variable {source : ViewSource K H V} {layout : Layout K S} {key : K} {rect : Rect S}

omit [DecidableEq K] [Scalar S] in
theorem present_slotKind (selected : Bool) (slot : Hosted H (Slot K V S)) :
    (present source key selected).Ensures slot (fun _ t ↦ t.held.kind = slot.held.kind)
      fun _ ↦ True := by
  simp only [present, Slot.onView, Step.ensures_bind, Step.ensures_modify, Step.ensures_onPart]
  exact Step.ensures_of_forall (fun _ _ ↦ rfl) fun _ ↦ trivial

omit [DecidableEq K] in
theorem keep_placed (slot : Hosted H (Slot K V S)) :
    (keep source layout key rect).Ensures slot
      (fun _ t ↦ t.held.kind = slot.held.kind ∧ t.held.placed = some rect) fun _ ↦ True := by
  rw [keep]
  cases hrebind : layout.rebind with
  | false => exact ⟨rfl, rfl⟩
  | true =>
    simp only [if_true, Step.ensures_bind]
    exact (present_slotKind _ slot).mono (fun _ _ ht ↦ ⟨ht, rfl⟩) fun _ _ ↦ trivial

omit [DecidableEq K] in
theorem enter_placed (slot : Hosted H (Slot K V S)) :
    (enter source layout key rect).Ensures slot
      (fun _ t ↦ t.held.kind = slot.held.kind ∧ t.held.placed = some rect) fun _ ↦ True := by
  simp only [enter, Step.ensures_bind]
  exact (present_slotKind _ slot).mono (fun _ _ ht ↦ ⟨ht, rfl⟩) fun _ _ ↦ trivial

/-- After the turn of a key its view is of the kind asked for, and it is where the key goes to. -/
theorem realize_placed {s : Hosted H (ViewStock K V S)} (h : s.held.Sound) :
    (realize source layout key).Ensures s
      (fun _ t ↦ ∀ slot, t.held.live.find? key = some slot →
        slot.kind = source.kind s.host key ∧
          ∃ rect, layout.rect key = .ok rect ∧ slot.placed = some rect) fun _ ↦ True := by
  have hput {stock : ViewStock K V S} {rect : Rect S} {slot : Slot K V S}
      (hrect : layout.rect key = .ok rect)
      (hslot : slot.kind = source.kind s.host key ∧ slot.placed = some rect) (found : Slot K V S)
      (hfound : (stock.put key slot).live.find? key = some found) :
      found.kind = source.kind s.host key ∧
        ∃ rect, layout.rect key = .ok rect ∧ found.placed = some rect := by
    have hfind : (stock.put key slot).live.find? key = some slot := find?_put.trans (if_pos rfl)
    obtain rfl := Option.some.inj (hfind.symm.trans hfound)
    exact ⟨hslot.1, rect, hrect, hslot.2⟩
  refine realize_ensures h (fun _ _ ↦ trivial) ?kept ?reused ?asked
  case kept =>
    intro rect slot hrect _ hkind
    exact (keep_placed _).mono (fun _ _ ht ↦ hput hrect ⟨ht.1.trans hkind, ht.2⟩) fun _ _ ↦ trivial
  case reused =>
    intro rect slot rest hrect _ hpool
    have hkind : slot.kind = source.kind s.host key := h.kind_eq (hpool ▸ List.mem_cons_self)
    exact (enter_placed _).mono (fun _ _ ht ↦ hput hrect ⟨ht.1.trans hkind, ht.2⟩) fun _ _ ↦ trivial
  case asked =>
    intro rect hrect _ _
    refine Step.ensures_of_forall (fun view? host ↦ ?_) fun _ ↦ trivial
    cases view? with
    | none =>
      have hnone : (s.held.released key).live.find? key = none := find?_released.trans (if_pos rfl)
      exact fun slot hslot ↦ absurd (hnone.symm.trans hslot) nofun
    | some view =>
      exact (enter_placed _).mono (fun _ _ ht ↦ hput hrect ht) fun _ _ ↦ trivial

section Journal

variable {base : Nat} {source : ViewSource K (Journal H K S) (Tracked K V S)}
  {s : Hosted (Journal H K S) (ViewStock K (Tracked K V S) S)}

/-- After the turns of all keys their views are where the keys go to. If every key has a view, these
are of the kinds that the source was asked for. -/
theorem realizeAll_placed (hsource : source.Journals) {keys : List K} (hkeys : keys.Nodup)
    (h : Conserved base s) :
    (realizeAll source layout keys).Ensures s
      (fun _ t ↦ (∀ key, key ∉ keys → t.held.live.find? key = s.held.live.find? key) ∧
        (∀ key ∈ keys, Placed layout t.held key) ∧
        ((∀ key ∈ keys, (t.held.live.find? key).isSome = true) →
          (askedKinds source layout keys s).map some = keys.map t.held.kindOf?))
      fun _ ↦ True := by
  induction keys generalizing s with
  | nil => exact ⟨fun _ _ ↦ rfl, nofun, fun _ ↦ rfl⟩
  | cons key rest ih =>
    obtain ⟨hkey, hkeys⟩ := List.nodup_cons.mp hkeys
    have hturn : (realize source layout key).Ensures s _ _ := realize_turn hsource key h.sound
    have hplaced : (realize source layout key).Ensures s _ _ := realize_placed h.sound
    have hconserved : (realize source layout key).Ensures s _ _ := realize_conserved hsource key h
    simp only [realizeAll, Step.ensures_bind]
    refine ((hturn.and hplaced).and hconserved).and_eq_ok.mono (fun _ mid hmid ↦ ?_)
      fun _ _ ↦ trivial
    obtain ⟨⟨⟨hturn, hplaced⟩, hconserved⟩, heq⟩ := hmid
    refine (ih hkeys hconserved).mono (fun _ t ht ↦ ?_) fun _ _ ↦ trivial
    obtain ⟨hbeside, hrest, hasked⟩ := ht
    have hstays : t.held.live.find? key = mid.held.live.find? key := hbeside key hkey
    refine ⟨fun other hother ↦ ?beside, fun other hother ↦ ?placed, fun hlive ↦ ?asked⟩
    case beside =>
      obtain ⟨hne, hother⟩ := List.ne_and_not_mem_of_not_mem_cons hother
      exact (hbeside other hother).trans (hturn.beside other hne)
    case placed =>
      rcases List.mem_cons.mp hother with rfl | hother
      · exact fun slot hslot ↦ (hplaced slot (hstays.symm.trans hslot)).2
      · exact hrest other hother
    case asked =>
      obtain ⟨slot, hslot⟩ := Option.isSome_iff_exists.mp (hlive key List.mem_cons_self)
      have hkind : t.held.kindOf? key = some (source.kind s.host key) :=
        kindOf?_eq_some_iff.mpr ⟨slot, hslot, (hplaced slot (hstays.symm.trans hslot)).1⟩
      rw [askedKinds, Step.after_of_eq_ok heq, List.map_cons, List.map_cons, hkind,
        hasked fun other hother ↦ hlive other (.tail _ hother)]

/-- What a completed pass leaves: every live view belongs to the window and is where its key goes
to, and if every key of the window has a view, these are of the kinds that the source was asked
for. -/
theorem follow_placed (hsource : source.Journals) {leaving keys : List K} {inWindow : K → Bool}
    (hkeys : keys.Nodup) (h : Conserved base s) :
    (follow source layout leaving keys inWindow).Ensures s
      (fun _ t ↦ t.held.live.keys.all inWindow = true ∧
        (∀ key ∈ keys, Placed layout t.held key) ∧
        ((∀ key ∈ keys, (t.held.live.find? key).isSome = true) →
          (askedIn source layout leaving keys inWindow s).map some = keys.map t.held.kindOf?))
      fun _ ↦ True := by
  obtain ⟨count, hvacate⟩ := vacate_eq h.sound layout.rebind leaving inWindow
  have hconserved : Conserved base ⟨s.host, s.held.vacated layout.rebind leaving inWindow⟩ :=
    h.foldl_released _
  simp only [follow, askedIn, Step.ensures_bind, Step.ensures_onHeld,
    Step.ensures_of_eq_ok hvacate, Step.after_of_eq_ok hvacate, Step.ensures_get,
    Step.ensures_require, Step.ensures_pure]
  refine (realizeAll_placed hsource hkeys hconserved).mono (fun _ t ht ↦ ?_) fun _ _ ↦ trivial
  split
  · next hall => exact ⟨hall, ht.2⟩
  · trivial

end Journal

/-! ### A pass that finds its work done -/

section Again

variable [ViewHandle H V Rat] {source : ViewSource K H V} {layout : Layout K Rat}
  {s : Hosted H (ViewStock K V Rat)} {slot : Slot K V Rat} {rect : Rect Rat}

/-- The turn of a key whose view is of the right kind and in the right place does nothing. -/
theorem realize_again (hrebind : layout.rebind = false) (hforce : layout.force = false)
    (hslot : s.held.live.find? key = some slot) (hrect : layout.rect key = .ok rect)
    (hplaced : slot.placed = some rect) (hkind : slot.kind = source.kind s.host key) :
    realize source layout key s = .ok {} ⟨s.host, s.held.put key slot⟩ := by
  have hlive := kindOf?_eq_some_iff.mpr ⟨slot, hslot, hkind⟩
  have hkeep : keep source layout key rect ⟨s.host, slot⟩ =
      .ok { rebound := 0 } ⟨s.host, slot⟩ := by
    have hplace : (Slot.place rect false ⟨s.host, slot⟩ : Hosted H (Slot K V Rat)) =
        ⟨s.host, slot⟩ := Slot.place_of_placed hplaced
    rw [Step.eq_ok_iff, keep, hrebind, hforce]
    simp [hplace]
  rw [Step.eq_ok_iff, realize]
  simp only [hrect, Step.ensures_bind, Step.ensures_ofExcept, Step.ensures_get, Step.ensures_onHeld,
    Step.ensures_of_eq_ok (releaseForeign_eq_of_kind hlive), ensures_onLive, hslot,
    Step.ensures_of_eq_ok hkeep, Step.ensures_pure]
  exact ⟨rfl, trivial⟩

/-- The turns of keys whose views are of the right kinds and in the right places do nothing. -/
theorem realizeAll_again {keys : List K} (hrebind : layout.rebind = false)
    (hforce : layout.force = false)
    (hplaced : ∀ key ∈ keys, Placed layout s.held key)
    (hasked : (askedKinds source layout keys s).map some = keys.map s.held.kindOf?) :
    ∃ stock, realizeAll source layout keys s = .ok {} ⟨s.host, stock⟩ ∧ SameViews s.held stock := by
  induction keys generalizing s with
  | nil => exact ⟨s.held, rfl, .refl _⟩
  | cons key rest ih =>
    simp only [askedKinds, List.map_cons, List.cons.injEq] at hasked
    obtain ⟨hkind, hrest⟩ := hasked
    obtain ⟨slot, hslot, hsame⟩ := kindOf?_eq_some_iff.mp hkind.symm
    obtain ⟨rect, hrect, hrectslot⟩ := hplaced key List.mem_cons_self slot hslot
    have hturn := realize_again hrebind hforce hslot hrect hrectslot hsame
    have hput := sameViews_put hslot
    have hkinds (other : K) : (s.held.put key slot).kindOf? other = s.held.kindOf? other :=
      congrArg (Option.map Slot.kind) (hput.find?_eq other)
    rw [Step.after_of_eq_ok hturn] at hrest
    obtain ⟨stock, hall, hviews⟩ := @ih ⟨s.host, s.held.put key slot⟩
      (fun other hother found hfound ↦
        hplaced other (.tail _ hother) found ((hput.find?_eq other).symm.trans hfound))
      (hrest.trans (List.map_congr_left fun other _ ↦ (hkinds other).symm))
    refine ⟨stock, ?_, hput.trans hviews⟩
    rw [Step.eq_ok_iff, realizeAll]
    simp only [Step.ensures_bind, Step.ensures_of_eq_ok hturn, Step.ensures_of_eq_ok hall,
      Step.ensures_pure]
    exact ⟨rfl, trivial⟩

/-- A pass over a window that no key leaves, and whose views are of the right kinds and in the right
places, does nothing. -/
theorem follow_again {keys : List K} {inWindow : K → Bool} (hrebind : layout.rebind = false)
    (hforce : layout.force = false) (hwindow : s.held.live.keys.all inWindow = true)
    (hplaced : ∀ key ∈ keys, Placed layout s.held key)
    (hasked : (askedIn source layout [] keys inWindow s).map some = keys.map s.held.kindOf?) :
    ∃ stock, follow source layout [] keys inWindow s = .ok {} ⟨s.host, stock⟩ ∧
      SameViews s.held stock := by
  have hvacate : vacate layout.rebind [] inWindow s.held = .ok 0 s.held := by
    rw [vacate, hrebind]
    rfl
  rw [askedIn, Step.after_of_eq_ok hvacate] at hasked
  obtain ⟨stock, hall, hviews⟩ := realizeAll_again hrebind hforce hplaced hasked
  have hstays : stock.live.keys.all inWindow = true := by
    rw [List.all_eq_true] at hwindow ⊢
    exact fun key hkey ↦ hwindow key ((hviews.mem_keys_iff key).mp hkey)
  refine ⟨stock, ?_, hviews⟩
  rw [Step.eq_ok_iff, follow]
  simp only [Step.ensures_bind, Step.ensures_onHeld, Step.ensures_of_eq_ok hvacate,
    Step.ensures_of_eq_ok hall, Step.ensures_get, Step.ensures_require, hstays, Step.ensures_pure]
  exact ⟨rfl, trivial⟩

end Again

end ViewStock

end Windowing
