import Windowing.Proofs.Faults

/-!
# Sources that serve

What a source does is up to the host, and the host may change whenever it is worked with. A source
is said to serve while its host is in certain states, if in each of them it answers the same length,
builds a view for every item and fills it, and if whatever a collection does leaves the host in such
a state again. A pass that a source serves is not cut short by it and refuses no view.

## Main definitions

* `ViewSource.Serves`, `ItemSource.Serves` — a source that serves while its host is ready.

## Main results

* `ViewStock.realize_served` — the turn of a key that is served gives it a view.
* `ViewStock.realizeAll_served` — the turns of all keys are served.
* `Rehearsal.serves_items` — a rehearsal that neither refuses nor gives up serves.
-/

namespace Windowing

variable {H K V S : Type}

/-! ### What the host is to do -/

/-- While the host is ready, the source builds a view for each key that is wanted, and fills it. The
host stays ready when it is asked to, and when a view is told something. -/
structure ViewSource.Serves [ViewHandle H V S] (source : ViewSource K H V) (wanted : K → Prop)
    (ready : H → Prop) : Prop where
  create : ∀ {host key}, wanted key → ready host →
    (source.create (source.kind host key)).Ensures host
      (fun view? t ↦ view?.isSome = true ∧ ready t) fun _ ↦ False
  bind : ∀ {key} {view : Hosted H V}, wanted key → ready view.host →
    (source.bind key).Ensures view (fun _ t ↦ ready t.host) fun _ ↦ False
  setPosition : ∀ (position : Point S) {view : Hosted H V}, ready view.host →
    ready (ViewHandle.setPosition position view).host
  setSize : ∀ (size : Size S) {view : Hosted H V}, ready view.host →
    ready (ViewHandle.setSize size view).host
  setSelected : ∀ selected {view : Hosted H V}, ready view.host →
    ready (ViewHandle.setSelected selected view).host

/-- While the host is ready, the source answers that there are `len` items, and builds and fills a
view for each of them. -/
structure ItemSource.Serves [ViewHandle H V S] (source : ItemSource H V) (len : Nat)
    (ready : H → Prop) : Prop extends source.views.Serves (· < len) ready where
  len_eq : ∀ {host}, ready host → (source.len host).1 = len
  polled : ∀ {host}, ready host → ready (source.len host).2

/-- Writing a journal does not keep a source from serving. -/
theorem ItemSource.Serves.journaled [ViewHandle H V S] {source : ItemSource H V} {len : Nat}
    {ready : H → Prop} (h : source.Serves len ready) :
    (source.journaled (S := S)).Serves len fun journal ↦ ready journal.host where
  create {journal index} hindex hready := by
    have hcreate : (source.create (source.kind journal.host index)).Ensures journal.host _ _ :=
      h.create hindex hready
    change (Journal.create _ (source.create (source.kind journal.host index))).Ensures _ _ _
    simp only [Journal.create, Journal.onHost, Step.ensures_bind, Step.ensures_within]
    refine hcreate.mono (fun view? host ⟨hsome, hhost⟩ ↦ ?_) fun _ ↦ id
    cases view? with
    | none => cases hsome
    | some view => exact ⟨rfl, hhost⟩
  bind {index view} hindex hready := by
    have hbind : (source.bind index).Ensures (Journal.bare view) _ _ := h.bind hindex hready
    change (Journal.bind index (source.kind · index) (source.bind index)).Ensures _ _ _
    simp only [Journal.bind, Step.ensures_bind, Step.ensures_modify, Step.ensures_within]
    exact hbind
  setPosition position _ hready := h.setPosition position hready
  setSize size _ hready := h.setSize size hready
  setSelected selected _ hready := h.setSelected selected hready
  len_eq hready := h.len_eq hready
  polled hready := h.polled hready

/-- From now on the rehearsal answers that there are `len` items, and it neither refuses to build a
view nor gives up. -/
def Rehearsal.Willing (len : Nat) (host : Rehearsal Nat Nat) : Prop :=
  ∃ kinds created, host = { (ofPoll len : Rehearsal Nat Nat) with kinds, created }

theorem Rehearsal.serves_items (len : Nat) :
    (Rehearsal.items : ItemSource (Rehearsal Nat Nat) (BlankView S)).Serves len
      (Rehearsal.Willing len) where
  create {host index} _ h := by
    obtain ⟨kinds, created, rfl⟩ := h
    exact ⟨rfl, kinds, created + 1, rfl⟩
  bind {key view} _ h := by
    cases view
    obtain ⟨kinds, created, rfl⟩ := h
    exact ⟨kinds, created, rfl⟩
  setPosition _ _ h := h
  setSize _ _ h := h
  setSelected _ _ h := h
  len_eq := by
    rintro _ ⟨kinds, created, rfl⟩
    rfl
  polled := by
    rintro _ ⟨kinds, created, rfl⟩
    exact ⟨kinds, created, rfl⟩

namespace ViewStock

/-! ### One view -/

section View

variable [ViewHandle H V S] {source : ViewSource K H V} {wanted : K → Prop} {ready : H → Prop}
  {key : K} {slot : Hosted H (Slot K V S)}

theorem present_served (h : source.Serves wanted ready) (hkey : wanted key) (selected : Bool)
    (hready : ready slot.host) :
    (present source key selected).Ensures slot (fun _ t ↦ ready t.host) fun _ ↦ False := by
  simp only [present, Slot.onView, Step.ensures_bind, Step.ensures_modify, Step.ensures_onPart]
  exact h.bind hkey (h.setSelected selected hready)

variable [Scalar S] {layout : Layout K S}

theorem place_served (h : source.Serves wanted ready) (rect : Rect S) (force : Bool)
    (hready : ready slot.host) : ready (Slot.place rect force slot).host :=
  Slot.place_induction rect slot force (fun view ↦ ready view.host) hready
    (fun _ ↦ h.setSize rect.size) fun _ ↦ h.setPosition rect.origin

theorem keep_served (h : source.Serves wanted ready) (hkey : wanted key) (rect : Rect S)
    (hready : ready slot.host) :
    (keep source layout key rect).Ensures slot (fun _ t ↦ ready t.host) fun _ ↦ False := by
  rw [keep]
  cases layout.rebind with
  | false => exact place_served h rect layout.force hready
  | true =>
    simp only [if_true, Step.ensures_bind]
    exact (present_served h hkey _ hready).mono (fun _ _ ↦ place_served h rect layout.force)
      fun _ ↦ id

theorem enter_served (h : source.Serves wanted ready) (hkey : wanted key) (rect : Rect S)
    (hready : ready slot.host) :
    (enter source layout key rect).Ensures slot (fun _ t ↦ ready t.host) fun _ ↦ False := by
  simp only [enter, Step.ensures_bind]
  exact (present_served h hkey _ hready).mono (fun _ _ ↦ place_served h rect true) fun _ ↦ id

end View

variable [DecidableEq K] [ViewHandle H V S] {wanted : K → Prop} {ready : H → Prop} {key : K}

/-- Styling views leaves the host ready. -/
theorem restyle_served [BEq K] [Hashable K] {source : ViewSource K H V}
    (h : source.Serves wanted ready) (changes : List (Selection.Change K))
    {s : Hosted H (ViewStock K V S)} (hready : ready s.host) :
    (restyle changes).Ensures s (fun _ t ↦ ready t.host) fun _ ↦ False := by
  induction changes generalizing s with
  | nil => exact hready
  | cons change rest ih =>
    simp only [restyle, Step.ensures_bind, ensures_onLive, Step.ensures_modify]
    cases s.held.live.find? change.key with
    | none => exact ih hready
    | some slot => exact ih (h.setSelected change.isSelected hready)

variable [Scalar S] {layout : Layout K S}

/-! ### The turn of a key -/

/-- The turn of a key that is served gives it a view. -/
theorem realize_served {source : ViewSource K H V} (h : source.Serves wanted ready)
    (hkey : wanted key) (hrect : ∃ rect, layout.rect key = .ok rect)
    {s : Hosted H (ViewStock K V S)} (hsound : s.held.Sound) (hready : ready s.host) :
    (realize source layout key).Ensures s
      (fun _ t ↦ ready t.host ∧ (t.held.live.find? key).isSome = true) fun _ ↦ False := by
  have hlive {stock : ViewStock K V S} {slot : Slot K V S} :
      ((stock.put key slot).live.find? key).isSome = true := by
    rw [find?_put, if_pos rfl, Option.isSome_some]
  refine realize_ensures hsound (fun fault hlost ↦ ?lost) ?kept ?reused ?asked
  case lost =>
    obtain ⟨rect, hrect⟩ := hrect
    cases hrect.symm.trans hlost
  case kept =>
    intro rect slot _ _ _
    have hkept : (keep source layout key rect).Ensures ⟨s.host, slot⟩ _ _ :=
      keep_served h hkey rect hready
    exact hkept.mono (fun _ _ ht ↦ ⟨ht, hlive⟩) fun _ ↦ id
  case reused =>
    intro rect slot _ _ _ _
    have hentered : (enter source layout key rect).Ensures ⟨s.host, slot.under key⟩ _ _ :=
      enter_served h hkey rect hready
    exact hentered.mono (fun _ _ ht ↦ ⟨ht, hlive⟩) fun _ ↦ id
  case asked =>
    intro rect _ _ _
    refine (h.create hkey hready).mono (fun view? host ⟨hsome, hhost⟩ ↦ ?_) fun _ ↦ id
    cases view? with
    | none => cases hsome
    | some view =>
      let slot : Slot K V S := (Slot.ofView view (source.kind s.host key)).under key
      have hentered : (enter source layout key rect).Ensures ⟨host, slot⟩ _ _ :=
        enter_served h hkey rect hhost
      exact hentered.mono (fun _ _ ht ↦ ⟨ht, hlive⟩) fun _ ↦ id

/-! ### The turns of all keys -/

section Journaled

variable {source : ViewSource K (Journal H K S) (Tracked K V S)}
  {ready : Journal H K S → Prop} {base : Nat}
  {s : Hosted (Journal H K S) (ViewStock K (Tracked K V S) S)}

/-- The turns of keys that are served are not cut short, and the host refuses no view in them. -/
theorem realizeAll_served (hsource : source.Journals) (h : source.Serves wanted ready)
    {keys : List K} (hkeys : ∀ key ∈ keys, wanted key)
    (hrect : ∀ key ∈ keys, ∃ rect, layout.rect key = .ok rect) (hconserved : Conserved base s)
    (hready : ready s.host) :
    (realizeAll source layout keys).Ensures s (fun _ _ ↦ True) (fun _ ↦ False) ∧
      refusedKeys source layout keys s = [] := by
  induction keys generalizing s with
  | nil => exact ⟨trivial, rfl⟩
  | cons key rest ih =>
    obtain ⟨hkey, hrest⟩ := List.forall_mem_cons.mp hkeys
    obtain ⟨hplaced, hrect⟩ := List.forall_mem_cons.mp hrect
    have hsound := hconserved.sound
    obtain ⟨tally, t, hstep, hready, hlive⟩ :=
      (realize_served h hkey hplaced hsound hready).exists_eq_ok
    have hturn := (realize_turn hsource key hsound).of_ok hstep
    have hcount : t.host.refusals = s.host.refusals := by
      refine (hturn.found.resolve_right fun ⟨_, hnone⟩ ↦ ?_).1
      rw [hnone] at hlive
      cases hlive
    obtain ⟨hturns, hnone⟩ :=
      ih hrest hrect ((realize_conserved hsource key hconserved).of_ok hstep) hready
    refine ⟨?turns, ?refused⟩
    case turns =>
      simp only [realizeAll, Step.ensures_bind, Step.ensures_of_eq_ok hstep]
      exact hturns
    case refused =>
      simp only [refusedKeys, Step.after_of_eq_ok hstep, hcount, lt_irrefl, if_false, hnone]

end Journaled

end ViewStock

end Windowing
