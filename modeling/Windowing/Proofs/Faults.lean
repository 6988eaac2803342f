import Windowing.Proofs.Following

/-!
# What cuts a step short

A pass checks its own bookkeeping: a view that is released is to be the one that its key has, a
pooled view is to be of the kind that is asked for, no key gets a second view, and no view is left
outside the window. In a sound stock none of these checks fails, whatever the source does. So if the
rectangles of the items are known, a pass is cut short only by a fault that the source raised when
it was to build or to fill a view.

## Main definitions

* `Step.FaultsOnly` — the faults that a step may end with.
* `ViewSource.Raises` — the faults that a source may raise.

## Main results

* `ViewStock.realize_faultsOnly` — the work on one key is cut short by the source only.
* `ViewStock.follow_faultsOnly` — and so is the work on a whole window.
-/

namespace Windowing

/-! ### The faults of a step -/

namespace Step

variable {σ τ α β : Type}

/-- From `s` the step ends with an answer and a state of which `ok` holds, or with a fault that is
blamed. -/
def FaultsOnly (blamed : Fault → Prop) (step : Step σ α) (s : σ) (ok : α → σ → Prop) : Prop :=
  match step s with
  | .ok a t => ok a t
  | .error fault _ => blamed fault

variable {blamed : Fault → Prop} {s : σ} {ok : α → σ → Prop}

@[simp]
theorem faultsOnly_pure (a : α) : (pure a : Step σ α).FaultsOnly blamed s ok ↔ ok a s := Iff.rfl

@[simp]
theorem faultsOnly_get {ok : σ → σ → Prop} :
    (get : Step σ σ).FaultsOnly blamed s ok ↔ ok s s := Iff.rfl

@[simp]
theorem faultsOnly_modify (change : σ → σ) {ok : PUnit → σ → Prop} :
    (modify change : Step σ PUnit).FaultsOnly blamed s ok ↔ ok ⟨⟩ (change s) := Iff.rfl

@[simp]
theorem faultsOnly_bind (step : Step σ α) (next : α → Step σ β) {ok : β → σ → Prop} :
    (step >>= next).FaultsOnly blamed s ok ↔
      step.FaultsOnly blamed s fun a t ↦ (next a).FaultsOnly blamed t ok := by
  simp only [FaultsOnly, bind, EStateM.bind]
  cases step s <;> rfl

@[simp]
theorem faultsOnly_map (f : α → β) (step : Step σ α) {ok : β → σ → Prop} :
    (f <$> step).FaultsOnly blamed s ok ↔ step.FaultsOnly blamed s fun a t ↦ ok (f a) t := by
  simp only [FaultsOnly, Functor.map, EStateM.map]
  cases step s <;> rfl

@[simp]
theorem faultsOnly_ite (c : Prop) [Decidable c] (yes no : Step σ α) :
    (if c then yes else no).FaultsOnly blamed s ok ↔
      if c then yes.FaultsOnly blamed s ok else no.FaultsOnly blamed s ok := by
  split <;> rfl

@[simp]
theorem faultsOnly_within (part : σ → τ) (store : τ → σ → σ) (step : Step τ α) :
    (within part store step).FaultsOnly blamed s ok ↔
      step.FaultsOnly blamed (part s) fun a t ↦ ok a (store t s) := by
  simp only [FaultsOnly, within]
  cases step (part s) <;> rfl

@[simp]
theorem faultsOnly_require (condition : Bool) (fault : Fault) {ok : Unit → σ → Prop} :
    (require condition fault : Step σ Unit).FaultsOnly blamed s ok ↔
      if condition then ok () s else blamed fault := by
  rw [require]
  split <;> rfl

@[simp]
theorem faultsOnly_ofExcept (answer : Except Fault α) :
    (ofExcept answer : Step σ α).FaultsOnly blamed s ok ↔
      match answer with
      | .ok a => ok a s
      | .error fault => blamed fault := by
  cases answer <;> rfl

section Hosted

variable {H A B : Type} {hosted : Hosted H A} {ok : α → Hosted H A → Prop}

@[simp]
theorem faultsOnly_onHeld (step : Step A α) :
    (Hosted.onHeld step).FaultsOnly blamed hosted ok ↔
      step.FaultsOnly blamed hosted.held fun a held ↦ ok a ⟨hosted.host, held⟩ :=
  faultsOnly_within ..

@[simp]
theorem faultsOnly_onHost (step : Step H α) :
    (Hosted.onHost step).FaultsOnly blamed hosted ok ↔
      step.FaultsOnly blamed hosted.host fun a host ↦ ok a ⟨host, hosted.held⟩ :=
  faultsOnly_within ..

@[simp]
theorem faultsOnly_onPart (part : A → B) (store : B → A → A) (step : Step (Hosted H B) α) :
    (Hosted.onPart part store step).FaultsOnly blamed hosted ok ↔
      step.FaultsOnly blamed ⟨hosted.host, part hosted.held⟩
        fun a inner ↦ ok a ⟨inner.host, store inner.held hosted.held⟩ :=
  faultsOnly_within ..

end Hosted

/-- A step that is known to answer ends with no fault. -/
theorem faultsOnly_of_eq_ok {step : Step σ α} {a : α} {t : σ} (hr : step s = .ok a t) :
    step.FaultsOnly blamed s ok ↔ ok a t := by
  rw [FaultsOnly, hr]

theorem FaultsOnly.mono {step : Step σ α} {ok' : α → σ → Prop}
    (h : step.FaultsOnly blamed s ok) (hok : ∀ a t, ok a t → ok' a t) :
    step.FaultsOnly blamed s ok' := by
  rw [FaultsOnly] at h ⊢
  cases hr : step s with
  | ok a t =>
    rw [hr] at h
    exact hok a t h
  | error fault t =>
    rw [hr] at h
    exact h

/-- What comes after a step may use that it gave its answer. -/
theorem FaultsOnly.and_eq_ok {step : Step σ α} (h : step.FaultsOnly blamed s ok) :
    step.FaultsOnly blamed s fun a t ↦ ok a t ∧ step s = .ok a t := by
  rw [FaultsOnly] at h ⊢
  cases hr : step s with
  | ok a t =>
    rw [hr] at h
    exact ⟨h, rfl⟩
  | error fault t =>
    rw [hr] at h
    exact h

theorem FaultsOnly.and_ensures {step : Step σ α} {ok' : α → σ → Prop} {cut : σ → Prop}
    (h : step.FaultsOnly blamed s ok) (h' : step.Ensures s ok' cut) :
    step.FaultsOnly blamed s fun a t ↦ ok a t ∧ ok' a t :=
  h.and_eq_ok.mono fun _ _ ⟨h, hr⟩ ↦ ⟨h, h'.of_ok hr⟩

/-- A step that is never cut short ends with no fault at all. -/
theorem Ensures.faultsOnly {step : Step σ α} (h : step.Ensures s ok fun _ ↦ False) :
    step.FaultsOnly blamed s ok := by
  rw [Ensures] at h
  rw [FaultsOnly]
  cases hr : step s with
  | ok a t =>
    rw [hr] at h
    exact h
  | error fault t =>
    rw [hr] at h
    exact h.elim

/-- A step that ends with no fault is never cut short. -/
theorem FaultsOnly.ensures {step : Step σ α} (h : step.FaultsOnly (fun _ ↦ False) s ok) :
    step.Ensures s ok fun _ ↦ False := by
  rw [FaultsOnly] at h
  rw [Ensures]
  cases hr : step s with
  | ok a t =>
    rw [hr] at h
    exact h
  | error fault t =>
    rw [hr] at h
    exact h

theorem FaultsOnly.of_error {step : Step σ α} {fault : Fault} {t : σ}
    (h : step.FaultsOnly blamed s ok) (hr : step s = .error fault t) : blamed fault := by
  rw [FaultsOnly, hr] at h
  exact h

/-- If every call of a run may end with a blamed fault only, so may the run. -/
theorem blamed_of_mem_runAll {perform : β → Step σ α} (holds : σ → Prop) {calls : List β}
    (keeps : ∀ call ∈ calls, ∀ s, holds s → holds ((perform call).after s))
    (faults : ∀ call ∈ calls, ∀ s, holds s →
      (perform call).FaultsOnly blamed s fun _ _ ↦ True)
    (h : holds s) {fault : Fault} (hfault : .error fault ∈ (runAll perform calls s).1) :
    blamed fault := by
  induction calls generalizing s with
  | nil => cases hfault
  | cons call rest ih =>
    rcases List.mem_cons.mp hfault with hhead | htail
    · have hcall := faults call (.head _) s h
      rw [outcome] at hhead
      cases hr : perform call s with
      | ok a t =>
        rw [hr] at hhead
        cases hhead
      | error raised t =>
        rw [hr] at hhead
        cases hhead
        exact hcall.of_error hr
    · exact ih (fun later hlater ↦ keeps later (.tail _ hlater))
        (fun later hlater ↦ faults later (.tail _ hlater)) (keeps call (.head _) s h) htail

end Step

/-! ### The faults of a source -/

namespace ViewSource

variable {H K V : Type} {blamed : Fault → Prop}

/-- The source may raise the fault when it is to build a view, or to fill one. -/
def Raises (source : ViewSource K H V) (fault : Fault) : Prop :=
  (∃ kind host t, source.create kind host = .error fault t) ∨
    ∃ key view t, source.bind key view = .error fault t

/-- Whatever fault the source raises is blamed. -/
structure FaultsOnly (source : ViewSource K H V) (blamed : Fault → Prop) : Prop where
  create : ∀ kind host, (source.create kind).FaultsOnly blamed host fun _ _ ↦ True
  bind : ∀ key view, (source.bind key).FaultsOnly blamed view fun _ _ ↦ True

theorem faultsOnly_raises (source : ViewSource K H V) : source.FaultsOnly source.Raises where
  create kind host := by
    rw [Step.FaultsOnly]
    cases hr : source.create kind host with
    | ok view t => trivial
    | error fault t => exact .inl ⟨kind, host, t, hr⟩
  bind key view := by
    rw [Step.FaultsOnly]
    cases hr : source.bind key view with
    | ok done t => trivial
    | error fault t => exact .inr ⟨key, view, t, hr⟩

end ViewSource

section Journaled

variable {H K V S : Type} {blamed : Fault → Prop}

theorem Journal.create_faultsOnly {step : Step H (Option V)} {journal : Journal H K S}
    (h : step.FaultsOnly blamed journal.host fun _ _ ↦ True) (kind : ViewKind) :
    (Journal.create kind step).FaultsOnly blamed journal fun _ _ ↦ True := by
  simp only [Journal.create, Journal.onHost, Step.faultsOnly_bind, Step.faultsOnly_within]
  refine h.mono fun view? host _ ↦ ?_
  cases view? with
  | none => trivial
  | some view => trivial

theorem Journal.bind_faultsOnly {step : Step (Hosted H V) Unit}
    {view : Hosted (Journal H K S) (Tracked K V S)}
    (h : ∀ inner, step.FaultsOnly blamed inner fun _ _ ↦ True) (key : K) (kind : H → ViewKind) :
    (Journal.bind key kind step).FaultsOnly blamed view fun _ _ ↦ True := by
  simp only [Journal.bind, Step.faultsOnly_bind, Step.faultsOnly_modify, Step.faultsOnly_within]
  exact h _

/-- Writing a journal raises no faults. -/
theorem ItemSource.faultsOnly_journaled {source : ItemSource H V}
    (h : source.views.FaultsOnly blamed) : (source.journaled (S := S)).views.FaultsOnly blamed where
  create kind journal := Journal.create_faultsOnly (h.create kind journal.host) kind
  bind index _ := Journal.bind_faultsOnly (h.bind index) index (source.kind · index)

theorem TableSource.faultsOnly_journaled {source : TableSource H V}
    (h : source.views.FaultsOnly blamed) : (source.journaled (S := S)).views.FaultsOnly blamed where
  create kind journal := Journal.create_faultsOnly (h.create kind journal.host) .only
  bind cell _ := Journal.bind_faultsOnly (h.bind cell) cell fun _ ↦ .only

end Journaled

/-! ### The work of a pass -/

namespace ViewStock

section Key

variable {H K V S α : Type} [DecidableEq K] {blamed : Fault → Prop} {key : K}

@[simp]
theorem faultsOnly_onLive {s : Hosted H (ViewStock K V S)} (key : K)
    (step : Step (Hosted H (Slot K V S)) α) {ok : Option α → Hosted H (ViewStock K V S) → Prop} :
    (onLive key step).FaultsOnly blamed s ok ↔
      match s.held.live.find? key with
      | none => ok none s
      | some slot =>
        step.FaultsOnly blamed ⟨s.host, slot⟩
          fun a t ↦ ok (some a) ⟨t.host, s.held.put key t.held⟩ := by
  rw [onLive]
  simp only [Step.faultsOnly_bind, Step.faultsOnly_get]
  cases s.held.live.find? key with
  | none => rfl
  | some slot => simp [put]

variable [Scalar S] [ViewHandle H V S] {source : ViewSource K H V} {layout : Layout K S}
  {s : Hosted H (ViewStock K V S)}

omit [DecidableEq K] [Scalar S] in
theorem present_faultsOnly (hsource : source.FaultsOnly blamed) (selected : Bool)
    (slot : Hosted H (Slot K V S)) :
    (present source key selected).FaultsOnly blamed slot fun _ _ ↦ True := by
  simp only [present, Slot.onView, Step.faultsOnly_bind, Step.faultsOnly_modify,
    Step.faultsOnly_onPart]
  exact hsource.bind key _

omit [DecidableEq K] in
theorem keep_faultsOnly (hsource : source.FaultsOnly blamed) (rect : Rect S)
    (slot : Hosted H (Slot K V S)) :
    (keep source layout key rect).FaultsOnly blamed slot fun _ _ ↦ True := by
  rw [keep]
  cases layout.rebind with
  | false => trivial
  | true =>
    simp only [↓reduceIte, Step.faultsOnly_bind]
    exact (present_faultsOnly hsource _ slot).mono fun _ _ _ ↦ trivial

omit [DecidableEq K] in
theorem enter_faultsOnly (hsource : source.FaultsOnly blamed) (rect : Rect S)
    (slot : Hosted H (Slot K V S)) :
    (enter source layout key rect).FaultsOnly blamed slot fun _ _ ↦ True := by
  simp only [enter, Step.faultsOnly_bind]
  exact (present_faultsOnly hsource _ slot).mono fun _ _ _ ↦ trivial

omit [Scalar S] [ViewHandle H V S] in
/-- In a sound stock, a key without a view is given one unless the source gives up. -/
theorem supply_faultsOnly (hsource : source.FaultsOnly blamed) (kind : ViewKind)
    (h : s.held.Sound) (hfree : s.held.live.find? key = none) :
    (supply key kind (source.create kind)).FaultsOnly blamed s fun _ _ ↦ True := by
  have hlive (pool : Pool (Slot K V S)) : (s.held.setPool kind pool).live.find? key = none := hfree
  simp only [supply, Step.faultsOnly_bind, Step.faultsOnly_onHeld,
    Step.faultsOnly_of_eq_ok (takePooled_eq kind s.held)]
  cases hpool : (s.held.pool kind).free with
  | nil =>
    simp only [List.head?_nil, List.tail_nil, Step.faultsOnly_bind, Step.faultsOnly_onHost]
    refine (hsource.create kind s.host).mono fun view? host _ ↦ ?_
    cases view? with
    | none => trivial
    | some view => simp [Step.faultsOnly_of_eq_ok (goLive_eq (hlive _) _)]
  | cons slot rest =>
    have hslot : slot.kind = kind := h.kind_eq (hpool ▸ List.mem_cons_self)
    simp [hslot, Step.faultsOnly_of_eq_ok (goLive_eq (hlive _) _)]

/-- In a sound stock, what cuts the work on a key short is a fault of the source. -/
theorem realize_faultsOnly (hsource : source.FaultsOnly blamed) (h : s.held.Sound)
    (hrect : ∃ rect, layout.rect key = .ok rect) :
    (realize source layout key).FaultsOnly blamed s fun _ _ ↦ True := by
  obtain ⟨rect, hrect⟩ := hrect
  simp only [realize, hrect, Step.faultsOnly_bind, Step.faultsOnly_ofExcept, Step.faultsOnly_get,
    Step.faultsOnly_onHeld]
  by_cases hkind : s.held.kindOf? key = some (source.kind s.host key)
  · obtain ⟨slot, hlive, -⟩ := kindOf?_eq_some_iff.mp hkind
    simp only [Step.faultsOnly_of_eq_ok (releaseForeign_eq_of_kind hkind), faultsOnly_onLive, hlive]
    exact (keep_faultsOnly hsource rect _).mono fun _ _ _ ↦ trivial
  · have hfree : (s.held.released key).live.find? key = none := by simp [find?_released]
    simp only [Step.faultsOnly_of_eq_ok (releaseForeign_eq h hkind), faultsOnly_onLive, hfree,
      Step.faultsOnly_bind]
    have hsupply : (supply key (source.kind s.host key)
        (source.create (source.kind s.host key))).FaultsOnly blamed
        ⟨s.host, s.held.released key⟩ _ :=
      supply_faultsOnly hsource _ (h.released key) hfree
    refine hsupply.mono fun created t _ ↦ ?_
    cases created with
    | none => trivial
    | some built =>
      simp only [Step.faultsOnly_bind, faultsOnly_onLive]
      cases t.held.live.find? key with
      | none => trivial
      | some slot => exact (enter_faultsOnly hsource rect _).mono fun _ _ _ ↦ trivial

omit [Scalar S] in
/-- Filling a view again is cut short by the source only. -/
theorem refill_faultsOnly (hsource : source.FaultsOnly blamed) (selected : Bool) :
    (refill source key selected).FaultsOnly blamed s fun _ _ ↦ True := by
  simp only [refill, Step.faultsOnly_bind, faultsOnly_onLive]
  cases s.held.live.find? key with
  | none => trivial
  | some slot => exact (present_faultsOnly hsource selected _).mono fun _ _ _ ↦ trivial

end Key

section Window

variable {H K V S : Type} [DecidableEq K] [Scalar S] [ViewHandle H V S] {blamed : Fault → Prop}
  {source : ViewSource K (Journal H K S) (Tracked K V S)} {layout : Layout K S} {base : Nat}
  {s : Hosted (Journal H K S) (ViewStock K (Tracked K V S) S)}

theorem realizeAll_faultsOnly (hsource : source.Journals) (hfaults : source.FaultsOnly blamed)
    {keys : List K} (h : Conserved base s)
    (hrect : ∀ key ∈ keys, ∃ rect, layout.rect key = .ok rect) :
    (realizeAll source layout keys).FaultsOnly blamed s fun _ _ ↦ True := by
  induction keys generalizing s with
  | nil => trivial
  | cons key rest ih =>
    obtain ⟨hkey, hrest⟩ := List.forall_mem_cons.mp hrect
    have hturn := realize_faultsOnly hfaults h.sound hkey
    simp only [realizeAll, Step.faultsOnly_bind]
    refine (hturn.and_ensures (realize_conserved hsource key h)).mono fun _ t ht ↦ ?_
    exact (ih ht.2 hrest).mono fun _ _ _ ↦ trivial

/-- What cuts the work of a pass short is what cuts the turns of the keys short: where all keys are
done, no view is left outside the window. -/
theorem follow_faultsOnly_of_realizeAll (hsource : source.Journals) {leaving keys : List K}
    {inWindow : K → Bool} (hkeys : keys.Nodup) (hwindow : ∀ key, inWindow key = true ↔ key ∈ keys)
    (hleaving : ∀ key ∈ leaving, key ∉ keys) (h : Conserved base s)
    (htidy : layout.rebind = false → Tidy leaving keys s)
    (hturns : (realizeAll source layout keys).FaultsOnly blamed
      ⟨s.host, s.held.vacated layout.rebind leaving inWindow⟩ fun _ _ ↦ True) :
    (follow source layout leaving keys inWindow).FaultsOnly blamed s fun _ _ ↦ True := by
  obtain ⟨count, hvacate⟩ := vacate_eq h.sound layout.rebind leaving inWindow
  have hvacated := find?_vacated hwindow hleaving htidy
  have hconserved : Conserved base ⟨s.host, s.held.vacated layout.rebind leaving inWindow⟩ :=
    h.foldl_released _
  simp only [follow, Step.faultsOnly_bind, Step.faultsOnly_onHeld,
    Step.faultsOnly_of_eq_ok hvacate]
  refine (hturns.and_ensures (realizeAll_fills hsource hkeys hconserved)).mono fun _ t ht ↦ ?_
  have hinside : t.held.live.keys.all inWindow = true := by
    refine List.all_eq_true.mpr fun key hlive ↦ (hwindow key).mpr ?_
    by_contra hkey
    have hnone := (ht.2.beside key hkey).trans ((hvacated key).trans (if_neg hkey))
    exact Keyed.find?_eq_none_iff.mp hnone hlive
  simp only [Step.faultsOnly_get, Step.faultsOnly_require, hinside, if_true]
  trivial

/-- What cuts the work of a pass short is a fault of the source. -/
theorem follow_faultsOnly (hsource : source.Journals) (hfaults : source.FaultsOnly blamed)
    {leaving keys : List K} {inWindow : K → Bool} (hkeys : keys.Nodup)
    (hwindow : ∀ key, inWindow key = true ↔ key ∈ keys) (hleaving : ∀ key ∈ leaving, key ∉ keys)
    (h : Conserved base s) (htidy : layout.rebind = false → Tidy leaving keys s)
    (hrect : ∀ key ∈ keys, ∃ rect, layout.rect key = .ok rect) :
    (follow source layout leaving keys inWindow).FaultsOnly blamed s fun _ _ ↦ True :=
  follow_faultsOnly_of_realizeAll hsource hkeys hwindow hleaving h htidy
    (realizeAll_faultsOnly hsource hfaults (h.foldl_released _) hrect)

end Window

end ViewStock

end Windowing
