import Windowing.Proofs.Conservation

/-!
# What a completed pass leaves live

A pass comes to the keys of its window one after another. The turn of a key concerns this key
alone: afterwards it has a view of the right kind with its content, unless the host refused to
build one. Before the turns the views outside the window are released. A rebinding pass finds
them by going through all live views, and any other pass relies on the live views being in the
old window.

## Main definitions

* `ViewStock.refusedKeys` — the keys for which the host refused to build a view.
* `ViewStock.Exact` — the live views are those of the window, and show their keys.
* `ViewStock.Upkeep` — work on live views beside a pass.
* `ViewStock.Upheld` — a property that is kept by all work on views beside a pass but filling them.

## Main results

* `ViewStock.realizeAll_fills` — what the turns of several keys leave.
* `ViewStock.follow_exact` — what a completed pass leaves.
-/

namespace Windowing.ViewStock

variable {H K V S : Type} [DecidableEq K] [Scalar S] [ViewHandle H V S]

/-! ### Kinds stay -/

/-- Where the source keeps the kinds of its items, they are the same after the turn of a key. -/
theorem realize_kinds {source : ViewSource K H V} {layout : Layout K S} {key : K}
    (hkinds : source.KindsFixed) {s : Hosted H (ViewStock K V S)} (h : s.held.Sound) :
    (realize source layout key).Ensures s (fun _ t ↦ source.kind t.host = source.kind s.host)
      fun t ↦ source.kind t.host = source.kind s.host := by
  refine realize_ensures h (fun _ _ ↦ rfl) ?kept ?reused ?asked
  case kept => exact fun _ slot _ _ _ ↦ keep_kinds hkinds ⟨s.host, slot⟩
  case reused => exact fun _ slot _ _ _ _ ↦ enter_kinds hkinds ⟨s.host, slot.under key⟩
  case asked =>
    intro rect _ _ _
    have hcreate : (source.create (source.kind s.host key)).Ensures s.host
        (fun _ host ↦ source.kind host = source.kind s.host) _ :=
      Step.ensures_iff_after.mpr (hkinds.create ..)
    refine hcreate.mono (fun view? host hhost ↦ ?_) fun _ hhost ↦ hhost
    cases view? with
    | none => exact hhost
    | some view =>
      exact (enter_kinds hkinds _).mono (fun _ _ ht ↦ ht.trans hhost) fun _ ht ↦ ht.trans hhost

/-! ### The turn of a key -/

variable {source : ViewSource K (Journal H K S) (Tracked K V S)} {layout : Layout K S} {base : Nat}
  {key : K} {s t : Hosted (Journal H K S) (ViewStock K (Tracked K V S) S)}

/-- The slot is what the turn of a key makes of it. Its view is of the kind that the key needs, and
it was filled for the key, unless the pass does not rebind and the view was live under the key in
`s` already. -/
structure Fills (source : ViewSource K (Journal H K S) (Tracked K V S)) (layout : Layout K S)
    (key : K) (s : Hosted (Journal H K S) (ViewStock K (Tracked K V S) S))
    (slot : Slot K (Tracked K V S) S) : Prop where
  kind_eq : source.KindsFixed → slot.kind = source.kind s.host key
  content : slot.view.content = .item key ∨ layout.rebind = false ∧
    ∃ old, s.held.live.find? key = some old ∧ slot.view.content = old.view.content

omit [Scalar S] in
theorem Fills.congr {slot : Slot K (Tracked K V S) S} (h : Fills source layout key t slot)
    (hlive : t.held.live.find? key = s.held.live.find? key)
    (hkind : source.KindsFixed → source.kind t.host = source.kind s.host) :
    Fills source layout key s slot where
  kind_eq hkinds := by rw [h.kind_eq hkinds, hkind hkinds]
  content := hlive ▸ h.content

/-- The turn of a key, completed: the other keys have what they had, and the key has a view unless
the host refused to build one, which is counted. -/
structure Turn (source : ViewSource K (Journal H K S) (Tracked K V S)) (layout : Layout K S)
    (key : K) (s t : Hosted (Journal H K S) (ViewStock K (Tracked K V S) S)) : Prop where
  beside : ∀ other, other ≠ key → t.held.live.find? other = s.held.live.find? other
  found : t.host.refusals = s.host.refusals ∧
      (∃ slot, t.held.live.find? key = some slot ∧ Fills source layout key s slot) ∨
    t.host.refusals = s.host.refusals + 1 ∧ t.held.live.find? key = none

omit [Scalar S] in
/-- Giving the key a view is a turn of it. -/
theorem turn_put {kind : ViewKind} {pool : Pool (Slot K (Tracked K V S) S)}
    {journal : Journal H K S} {slot : Slot K (Tracked K V S) S}
    (hkind : slot.kind = source.kind s.host key) (hcontent : slot.view.content = .item key)
    (hrefusals : journal.refusals = s.host.refusals) :
    Turn source layout key s ⟨journal, ((s.held.released key).setPool kind pool).put key slot⟩ where
  beside other hother := by
    rw [find?_put, if_neg hother]
    exact find?_released.trans (if_neg hother)
  found := .inl ⟨hrefusals, slot, find?_put.trans (if_pos rfl), fun _ ↦ hkind, .inl hcontent⟩

/-- What the turn of a key comes to when it is not cut short. -/
theorem realize_turn (hsource : source.Journals) (key : K) (h : s.held.Sound) :
    (realize source layout key).Ensures s (fun _ ↦ Turn source layout key s) fun _ ↦ True := by
  refine realize_ensures h (fun _ _ ↦ trivial) ?kept ?reused ?asked
  case kept =>
    intro rect slot _ hlive hkind
    refine (keep_ensures hsource _).mono (fun _ t ht ↦ ?_) fun _ _ ↦ trivial
    obtain ⟨hsame, hcontent⟩ := ht
    refine ⟨fun other hother ↦ find?_put.trans (if_neg hother), .inl ⟨hsame.refusals_eq, t.held,
      find?_put.trans (if_pos rfl), fun _ ↦ hsame.kind_eq.trans hkind, ?_⟩⟩
    cases hrebind : layout.rebind with
    | true => exact .inl (by simpa [hrebind] using hcontent)
    | false => exact .inr ⟨rfl, slot, hlive, by simpa [hrebind] using hcontent⟩
  case reused =>
    intro rect slot rest _ _ hpool
    have hkind : slot.kind = source.kind s.host key := h.kind_eq (hpool ▸ List.mem_cons_self)
    refine (enter_ensures hsource _).mono (fun _ t ht ↦ ?_) fun _ _ ↦ trivial
    exact turn_put (ht.1.kind_eq.trans hkind) ht.2 ht.1.refusals_eq
  case asked =>
    intro rect _ _ _
    obtain ⟨step, hcreate⟩ := hsource.create s.host key
    rw [hcreate]
    refine (Journal.create_ensures _ _ _).mono (fun view? journal hview ↦ ?_) fun _ _ ↦ trivial
    cases view? with
    | none =>
      refine ⟨fun other hother ↦ find?_released.trans (if_neg hother), .inr ⟨hview.2, ?_⟩⟩
      exact find?_released.trans (if_pos rfl)
    | some view =>
      obtain ⟨-, -, -, hrefusals⟩ := hview
      refine (enter_ensures hsource _).mono (fun _ t ht ↦ ?_) fun _ _ ↦ trivial
      exact turn_put ht.1.kind_eq ht.2 (ht.1.refusals_eq.trans hrefusals)

/-! ### The turns of all keys -/

/-- The keys for which the host refuses to build a view when a pass comes to the given ones, one
after another. -/
def refusedKeys (source : ViewSource K (Journal H K S) (Tracked K V S)) (layout : Layout K S) :
    List K → Hosted (Journal H K S) (ViewStock K (Tracked K V S) S) → List K
  | [], _ => []
  | key :: rest, s =>
    let t := (realize source layout key).after s
    if s.host.refusals < t.host.refusals then key :: refusedKeys source layout rest t
    else refusedKeys source layout rest t

/-- After the turns of several keys, each of them has a view unless the host refused to build one,
and all other keys have what they had. -/
structure Turns (source : ViewSource K (Journal H K S) (Tracked K V S)) (layout : Layout K S)
    (keys refused : List K) (s t : Hosted (Journal H K S) (ViewStock K (Tracked K V S) S)) :
    Prop where
  beside : ∀ key, key ∉ keys → t.held.live.find? key = s.held.live.find? key
  missing : ∀ key ∈ refused, t.held.live.find? key = none
  filled : ∀ key ∈ keys, key ∉ refused →
    ∃ slot, t.held.live.find? key = some slot ∧ Fills source layout key s slot
  kinds : source.KindsFixed → source.kind t.host = source.kind s.host

/-- The turn of a key, followed by the turns of others. -/
theorem Turn.cons {rest : List K} {mid : Hosted (Journal H K S) (ViewStock K (Tracked K V S) S)}
    (hkey : key ∉ rest) (hturn : Turn source layout key s mid)
    (hkinds : source.KindsFixed → source.kind mid.host = source.kind s.host)
    (hmid : (realize source layout key).after s = mid)
    (hrest : Turns source layout rest (refusedKeys source layout rest mid) mid t) :
    Turns source layout (key :: rest) (refusedKeys source layout (key :: rest) s) s t := by
  have hstays : t.held.live.find? key = mid.held.live.find? key := hrest.beside key hkey
  have hfills {other : K} (hother : other ∈ rest) {slot : Slot K (Tracked K V S) S}
      (h : Fills source layout other mid slot) : Fills source layout other s slot :=
    h.congr (hturn.beside other fun heq ↦ hkey (heq ▸ hother)) hkinds
  refine ⟨fun other hother ↦ ?beside, fun other hother ↦ ?missing, fun other hother hnot ↦ ?filled,
    fun hfixed ↦ (hrest.kinds hfixed).trans (hkinds hfixed)⟩
  case beside =>
    obtain ⟨hne, hother⟩ := List.ne_and_not_mem_of_not_mem_cons hother
    exact (hrest.beside other hother).trans (hturn.beside other hne)
  case missing =>
    simp only [refusedKeys, hmid] at hother
    rcases hturn.found with ⟨hcount, -⟩ | ⟨hcount, hnone⟩
    · rw [if_neg (by omega)] at hother
      exact hrest.missing other hother
    · rw [if_pos (by omega)] at hother
      rcases List.mem_cons.mp hother with rfl | hother
      · exact hstays.trans hnone
      · exact hrest.missing other hother
  case filled =>
    simp only [refusedKeys, hmid] at hnot
    rcases hturn.found with ⟨hcount, slot, hslot, hfill⟩ | ⟨hcount, -⟩
    · rw [if_neg (by omega)] at hnot
      rcases List.mem_cons.mp hother with rfl | hother
      · exact ⟨slot, hstays.trans hslot, hfill⟩
      · obtain ⟨slot, hslot, hfill⟩ := hrest.filled other hother hnot
        exact ⟨slot, hslot, hfills hother hfill⟩
    · rw [if_pos (by omega)] at hnot
      obtain ⟨hne, hnot⟩ := List.ne_and_not_mem_of_not_mem_cons hnot
      have hother := (List.mem_cons.mp hother).resolve_left hne
      obtain ⟨slot, hslot, hfill⟩ := hrest.filled other hother hnot
      exact ⟨slot, hslot, hfills hother hfill⟩

/-- What the turns of several keys come to when none is cut short. -/
theorem realizeAll_fills (hsource : source.Journals) {keys : List K} (hkeys : keys.Nodup)
    (h : Conserved base s) :
    (realizeAll source layout keys).Ensures s
      (fun _ ↦ Turns source layout keys (refusedKeys source layout keys s) s) fun _ ↦ True := by
  induction keys generalizing s with
  | nil => exact ⟨fun _ _ ↦ rfl, by simp [refusedKeys], by simp, fun _ ↦ rfl⟩
  | cons key rest ih =>
    obtain ⟨hkey, hkeys⟩ := List.nodup_cons.mp hkeys
    have hturn : (realize source layout key).Ensures s _ _ := realize_turn hsource key h.sound
    have hconserved : (realize source layout key).Ensures s _ _ := realize_conserved hsource key h
    have hkinds : (realize source layout key).Ensures s _ _ :=
      Step.ensures_forall fun hfixed ↦ realize_kinds hfixed h.sound
    simp only [realizeAll, Step.ensures_bind]
    refine ((hturn.and hconserved).and hkinds).and_eq_ok.mono (fun _ mid hmid ↦ ?_)
      fun _ _ ↦ trivial
    obtain ⟨⟨⟨hturn, hconserved⟩, hkinds⟩, heq⟩ := hmid
    refine (ih hkeys hconserved).mono (fun _ t ht ↦ ?_) fun _ _ ↦ trivial
    exact hturn.cons hkey hkinds (Step.after_of_eq_ok heq) ht

/-! ### A completed pass -/

/-- The keys for which the host refuses to build a view in a pass. -/
def refusedIn (source : ViewSource K (Journal H K S) (Tracked K V S)) (layout : Layout K S)
    (leaving keys : List K) (inWindow : K → Bool)
    (s : Hosted (Journal H K S) (ViewStock K (Tracked K V S) S)) : List K :=
  refusedKeys source layout keys ⟨s.host, (vacate layout.rebind leaving inWindow).after s.held⟩

/-- Live are exactly the given keys but those refused. Each view shows its key, and it is of the
kind that the key needs if the source keeps the kinds of its items. -/
structure Exact (source : ViewSource K (Journal H K S) (Tracked K V S)) (keys refused : List K)
    (s : Hosted (Journal H K S) (ViewStock K (Tracked K V S) S)) : Prop where
  live_iff : ∀ key, (s.held.live.find? key).isSome = true ↔ key ∈ keys ∧ key ∉ refused
  content_eq : ∀ {key slot}, s.held.live.find? key = some slot → slot.view.content = .item key
  kind_eq : source.KindsFixed → ∀ {key slot}, s.held.live.find? key = some slot →
    slot.kind = source.kind s.host key

/-- What a pass that does not rebind takes for granted: every live view shows its key, and the key
is in the window or among those that leave it. -/
structure Tidy (leaving keys : List K)
    (s : Hosted (Journal H K S) (ViewStock K (Tracked K V S) S)) : Prop where
  content_eq : ∀ {key slot}, s.held.live.find? key = some slot → slot.view.content = .item key
  mem : ∀ {key slot}, s.held.live.find? key = some slot → key ∈ keys ∨ key ∈ leaving

omit [Scalar S] in
/-- The turns of all keys leave exactly these keys live but those refused, if no other key had a
view before, and views that are not filled again show their keys already. -/
theorem Turns.exact {keys refused : List K} (h : Turns source layout keys refused s t)
    (hout : ∀ key, key ∉ keys → s.held.live.find? key = none)
    (hcontent : layout.rebind = false → ∀ {key slot}, s.held.live.find? key = some slot →
      slot.view.content = .item key) : Exact source keys refused t := by
  have hmem {key : K} {slot : Slot K (Tracked K V S) S}
      (hslot : t.held.live.find? key = some slot) : key ∈ keys ∧ key ∉ refused := by
    refine ⟨Decidable.by_contra fun hkey ↦ ?_, fun hkey ↦ ?_⟩
    · rw [h.beside key hkey, hout key hkey] at hslot
      cases hslot
    · rw [h.missing key hkey] at hslot
      cases hslot
  have hfills {key : K} {slot : Slot K (Tracked K V S) S}
      (hslot : t.held.live.find? key = some slot) : Fills source layout key s slot := by
    obtain ⟨found, hfound, hfills⟩ := h.filled key (hmem hslot).1 (hmem hslot).2
    exact Option.some.inj (hfound.symm.trans hslot) ▸ hfills
  refine ⟨fun key ↦ ⟨fun hlive ↦ ?live, fun ⟨hkey, hnot⟩ ↦ ?found⟩, fun {key slot} hslot ↦ ?content,
    fun hfixed {key slot} hslot ↦ ?kind⟩
  case live =>
    obtain ⟨slot, hslot⟩ := Option.isSome_iff_exists.mp hlive
    exact hmem hslot
  case found =>
    obtain ⟨slot, hslot, -⟩ := h.filled key hkey hnot
    rw [hslot, Option.isSome_some]
  case content =>
    rcases (hfills hslot).content with hitem | ⟨hrebind, old, hold, hkept⟩
    · exact hitem
    · exact hkept.trans (hcontent hrebind hold)
  case kind => rw [(hfills hslot).kind_eq hfixed, h.kinds hfixed]

omit [Scalar S] [ViewHandle H V S] in
/-- Once the views that are to go are released, no key outside the window has a view. -/
theorem find?_vacated {rebind : Bool} {leaving keys : List K} {inWindow : K → Bool}
    (hwindow : ∀ key, inWindow key = true ↔ key ∈ keys) (hleaving : ∀ key ∈ leaving, key ∉ keys)
    (htidy : rebind = false → Tidy leaving keys s) (key : K) :
    (s.held.vacated rebind leaving inWindow).live.find? key =
      if key ∈ keys then s.held.live.find? key else none := by
  rw [vacated, find?_foldl_released]
  cases rebind with
  | true =>
    by_cases hkey : key ∈ keys
    · simp [hkey, hwindow]
    · by_cases hlive : key ∈ s.held.live.keys
      · have hout : inWindow key = false := by simpa [hkey] using (hwindow key).not
        simp [hkey, hlive, hout]
      · simp [hkey, hlive, Keyed.find?_eq_none_iff.mpr hlive]
  | false =>
    simp only [Bool.false_eq_true, if_false]
    by_cases hkey : key ∈ keys
    · have hstays : key ∉ leaving := fun h ↦ hleaving key h hkey
      rw [if_neg hstays, if_pos hkey]
    · rw [if_neg hkey]
      split
      · rfl
      · next hstays =>
        refine Option.eq_none_iff_forall_ne_some.mpr fun slot hslot ↦ ?_
        exact ((htidy rfl).mem hslot).elim hkey hstays

/-- The keys for which the host refuses to build a view are those of the turns, which come after the
views that are to go were released. -/
theorem refusedIn_eq (h : s.held.Sound) (leaving keys : List K) (inWindow : K → Bool) :
    refusedIn source layout leaving keys inWindow s = refusedKeys source layout keys
      ⟨s.host, s.held.vacated layout.rebind leaving inWindow⟩ := by
  obtain ⟨count, hvacate⟩ := vacate_eq h layout.rebind leaving inWindow
  rw [refusedIn, Step.after_of_eq_ok hvacate]

/-- A completed pass leaves exactly the keys of its window live, but those refused. -/
theorem follow_exact (hsource : source.Journals) {leaving keys : List K} {inWindow : K → Bool}
    (hkeys : keys.Nodup) (hwindow : ∀ key, inWindow key = true ↔ key ∈ keys)
    (hleaving : ∀ key ∈ leaving, key ∉ keys) (h : Conserved base s)
    (htidy : layout.rebind = false → Tidy leaving keys s) :
    (follow source layout leaving keys inWindow).Ensures s
      (fun _ ↦ Exact source keys (refusedIn source layout leaving keys inWindow s))
      fun _ ↦ True := by
  obtain ⟨count, hvacate⟩ := vacate_eq h.sound layout.rebind leaving inWindow
  have hvacated := find?_vacated hwindow hleaving htidy
  have hconserved : Conserved base ⟨s.host, s.held.vacated layout.rebind leaving inWindow⟩ :=
    h.foldl_released _
  have hrefused : refusedIn source layout leaving keys inWindow s = _ :=
    refusedIn_eq h.sound leaving keys inWindow
  have hout (key : K) (hkey : key ∉ keys) := (hvacated key).trans (if_neg hkey)
  have hcontent (hrebind : layout.rebind = false) {key : K} {slot : Slot K (Tracked K V S) S}
      (hslot : (s.held.vacated layout.rebind leaving inWindow).live.find? key = some slot) :
      slot.view.content = .item key := by
    rw [hvacated] at hslot
    split at hslot
    · exact (htidy hrebind).content_eq hslot
    · cases hslot
  simp only [follow, Step.ensures_bind, Step.ensures_onHeld, Step.ensures_of_eq_ok hvacate,
    Step.ensures_get, Step.ensures_require, Step.ensures_pure, hrefused]
  refine (realizeAll_fills hsource hkeys hconserved).mono (fun _ t ht ↦ ?_) fun _ _ ↦ trivial
  split
  · exact ht.exact hout hcontent
  · trivial

/-! ### Work beside a pass -/

/-- Work on the live views of a stock: no view is lost, no key gets one, and each view shows what it
showed or its key. -/
structure Upkeep (base : Nat)
    (before after : Hosted (Journal H K S) (ViewStock K (Tracked K V S) S)) : Prop where
  conserved : Conserved base after
  content_eq : ∀ {key slot}, after.held.live.find? key = some slot →
    ∃ old, before.held.live.find? key = some old ∧
      (slot.view.content = old.view.content ∨ slot.view.content = .item key)

omit [Scalar S] [ViewHandle H V S]

theorem Upkeep.refl (h : Conserved base s) : Upkeep base s s :=
  ⟨h, fun {_ slot} hslot ↦ ⟨slot, hslot, .inl rfl⟩⟩

/-- Work on one live view. -/
theorem upkeep_put {slot : Slot K (Tracked K V S) S} (h : Conserved base s)
    (hlive : s.held.live.find? key = some slot)
    {t : Hosted (Journal H K S) (Slot K (Tracked K V S) S)} (ht : Slot.SameView ⟨s.host, slot⟩ t)
    (hcontent : t.held.view.content = slot.view.content ∨ t.held.view.content = .item key) :
    Upkeep base s ⟨t.host, s.held.put key t.held⟩ where
  conserved := h.work hlive ht
  content_eq {other found} hfound := by
    rw [find?_put] at hfound
    split at hfound
    · next heq =>
      obtain rfl := Option.some.inj hfound
      subst heq
      exact ⟨slot, hlive, hcontent⟩
    · exact ⟨found, hfound, .inl rfl⟩

variable [ViewHandle H V S]

/-- Filling a live view again. -/
theorem refill_upkeep (hsource : source.Journals) (key : K) (selected : Bool)
    (h : Conserved base s) :
    (refill source key selected).Ensures s (fun _ ↦ Upkeep base s) (Upkeep base s) := by
  simp only [refill, Step.ensures_bind, ensures_onLive]
  cases hlive : s.held.live.find? key with
  | none => exact .refl h
  | some slot =>
    refine (present_ensures hsource key selected _).mono (fun _ t ht ↦ ?_) fun t ht ↦ ?_
    · exact upkeep_put h hlive ht.1 (.inr ht.2)
    · exact upkeep_put h hlive ht.1 (.inl ht.2)

/-- A change of the host that builds no view, and styling a live view or changing what it wraps,
keep the property. -/
structure Upheld (holds : Hosted (Journal H K S) (ViewStock K (Tracked K V S) S) → Prop) :
    Prop where
  withHost : ∀ {journal stock} (host : H), holds ⟨journal, stock⟩ →
    holds ⟨{ journal with host }, stock⟩
  style : ∀ {s key slot} (selected : Bool), holds s → s.held.live.find? key = some slot →
    let styled := Slot.style selected ⟨s.host, slot⟩
    holds ⟨styled.host, s.held.put key styled.held⟩
  editView : ∀ {s key slot} (change : V → V), holds s → s.held.live.find? key = some slot →
    let view := { slot.view with view := change slot.view.view }
    holds ⟨s.host, s.held.put key { slot with view }⟩

end Windowing.ViewStock
