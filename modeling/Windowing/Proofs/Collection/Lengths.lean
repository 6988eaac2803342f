import Windowing.Proofs.Collection.Viewports
import Windowing.Proofs.Extent.Trim

/-!
# When a collection takes over a length

A collection notices that the length of the source has changed by comparing it with the length of
its model. That is the length that the last completed pass polled, unless another one was taken over
since: by a pass that was cut short, or by a call that selects an item. In this case no item past
the end is selected or has an extent of its own any more, and all views are to be bound again; and
this stays so until a pass is completed, unless the host itself sets the length of the model.

## Main definitions

* `Collection.TakenOver` — a length was taken over, and the views are to be bound again.
* `Collection.SincePoll` — what is the case since a pass polled a length.
* `Collection.Notices` — a pass that polls a length has reason to take it over, or had it before.
* `Collection.lastPoll` — the length that the last completed pass of a run polled.

## Main results

* `Collection.lead_sincePoll`, `Collection.layout_sincePoll` — calls keep it so, also where their
  pass is cut short.
* `Collection.sincePoll_runAll` — so it is after a run.
* `Collection.layout_takenOver` — a pass that polls another length leaves nothing past the end.
-/

namespace Windowing

namespace Collection

variable {E H M V S : Type} [ExtentModel M S]

/-! ### Since the last poll -/

/-- A length was taken over: the model has no leftovers, no item past the end is selected, and the
next pass is to bind all views again. -/
structure TakenOver (trim : M → Prop) (items : Collection M V S) : Prop where
  trim : trim items.model
  lt_len : ∀ index ∈ items.selection.order, index < ExtentModel.len items.model
  stale : items.due.rebind = true ∨ items.passOpen = true

/-- Since a pass was completed that polled the length `last`, the model still has this length, or
another one was taken over. -/
structure SincePoll (sound trim : M → Prop) (last : Nat) (items : Collection M V S) : Prop where
  sound : sound items.model
  followed : ExtentModel.len items.model = last ∨ TakenOver trim items

/-- A pass that polls the length `len` finds a reason to take it over, or the length polled last is
another one. -/
def Notices (sound trim : M → Prop) (last len : Nat) (items : Collection M V S) : Prop :=
  items.due.length = true ∨ len ≠ ExtentModel.len items.model ∨
    len ≠ last ∧ SincePoll sound trim last items

variable {sound trim : M → Prop} {last : Nat} {items other : Collection M V S}

open ExtentModel (SameCount)

theorem TakenOver.aside (h : TakenOver trim items) (haside : items.Aside other)
    (hmodel : SameCount sound trim items.model other.model) : TakenOver trim other where
  trim := hmodel.trim h.trim
  lt_len index hindex := by
    rw [haside.selection_eq] at hindex
    rw [hmodel.len_eq]
    exact h.lt_len index hindex
  stale := by
    rw [haside.passOpen_eq]
    exact h.stale.imp haside.rebind id

theorem SincePoll.aside (h : SincePoll sound trim last items) (haside : items.Aside other)
    (hmodel : SameCount sound trim items.model other.model) : SincePoll sound trim last other where
  sound := hmodel.sound
  followed := h.followed.imp hmodel.len_eq.trans fun htaken ↦ htaken.aside haside hmodel

/-- Dropping selections, and work on views. -/
theorem SincePoll.withSelection (h : SincePoll sound trim last items) {selection : Selection Nat}
    (hselection : ∀ index ∈ selection.order, index ∈ items.selection.order)
    (stock : ViewStock Nat V S) :
    SincePoll sound trim last { items with selection, stock } where
  sound := h.sound
  followed := h.followed.imp id fun htaken ↦
    ⟨htaken.trim, fun index hindex ↦ htaken.lt_len index (hselection index hindex), htaken.stale⟩

theorem SincePoll.withStock (h : SincePoll sound trim last items) (stock : ViewStock Nat V S) :
    SincePoll sound trim last { items with stock } :=
  h.withSelection (fun _ ↦ id) stock

variable [Scalar S] [ResizableModel M S] [CrossPlacement M S] {s : Hosted H (Collection M V S)}

section Trims

variable (htrims : ExtentModel.Trims sound trim)

include htrims

/-- Scrolling and edits change no length. -/
theorem Rolls.sameCount (hrolls : items.Rolls other) (h : sound items.model) :
    SameCount sound trim items.model other.model :=
  hrolls.reaches _ (htrims.aside h).viewport (.refl h)

theorem SincePoll.rolls (h : SincePoll sound trim last items) (hrolls : items.Rolls other) :
    SincePoll sound trim last other :=
  h.aside hrolls.toAside (hrolls.sameCount htrims h.sound)

/-- What taking over a length leaves. -/
theorem adoptLength_takenOver [LawfulCount M] (len : Nat) (h : sound items.model) :
    let adopted := (items.adoptLength len).1
    TakenOver trim adopted ∧ sound adopted.model ∧ ExtentModel.len adopted.model = len := by
  intro adopted
  have hmodel : adopted.model = ResizableModel.setLen len items.model :=
    (Viewport.clamp_steady (items.viewport.withModel (ResizableModel.setLen len
      items.model))).model_eq
  have hlen : ExtentModel.len adopted.model = len := by
    rw [hmodel]
    exact LawfulCount.len_setLen len items.model
  refine ⟨⟨hmodel ▸ htrims.trim_setLen len h, fun index hindex ↦ ?_, .inl rfl⟩,
    hmodel ▸ htrims.setLen len h, hlen⟩
  have hbound : Bounded.inBounds len index = true := List.of_mem_filter hindex
  rw [hlen]
  exact of_decide_eq_true hbound

theorem adoptLength_sincePoll [LawfulCount M] (len : Nat) (h : SincePoll sound trim last items) :
    SincePoll sound trim last (items.adoptLength len).1 := by
  obtain ⟨htaken, hsound, -⟩ := adoptLength_takenOver htrims len h.sound
  exact ⟨hsound, .inr htaken⟩

/-! ### Calls -/

theorem SincePoll.aimed [LawfulCount M] {len index : Nat} (h : SincePoll sound trim last items)
    (haimed : Aimed len index items other) : SincePoll sound trim last other := by
  cases haimed with
  | ignored stock hafter => exact hafter ▸ h.withStock stock
  -- The item that was selected lies within the length polled, which is now that of the model.
  | scrolled stock hlen hrolls =>
    have hselecting : SincePoll sound trim last (items.selecting len index stock) := by
      refine ⟨h.sound, h.followed.imp id fun htaken ↦ ⟨htaken.trim, fun key hkey ↦ ?_,
        htaken.stale⟩⟩
      rcases Selection.mem_order_select hkey with hold | ⟨rfl, hbound⟩
      · exact htaken.lt_len key hold
      · exact (of_decide_eq_true hbound).trans_eq hlen
    exact hselecting.rolls htrims hrolls
  | adopted stock hrolls =>
    have hsound : sound (items.selecting len index stock).model := h.sound
    obtain ⟨htaken, hadopted, -⟩ := adoptLength_takenOver htrims len hsound
    exact SincePoll.rolls htrims ⟨hadopted, .inr htaken⟩ hrolls

/-- The part of a call before its pass keeps it so, unless it is a call on the model that sets a
length or leaves something past the end. -/
theorem lead_sincePoll [LawfulCount M] [ViewHandle H V S] {edit : E → Step M (Reply S)}
    (source : ItemSource H V) (call : Call E H V S)
    (hedit : ∀ e, call = .model e → ∀ model, sound model →
      (edit e).Ensures model (fun _ ↦ SameCount sound trim model) (SameCount sound trim model))
    (h : SincePoll sound trim last s.held) :
    (call.lead edit source).Ensures s (fun _ t ↦ SincePoll sound trim last t.held)
      fun t ↦ SincePoll sound trim last t.held := by
  have hkeeps : call.LeadKeeps edit source (fun t ↦ SincePoll sound trim last t.held) s := by
    refine .ofHeld (SincePoll sound trim last) (h.rolls htrims) (fun e he ↦ ?model)
      (fun change hnarrows stock ↦ h.withSelection (hnarrows s.held.selection) stock)
      (fun index _ ↦ ?aim) fun stock _ ↦ ?views
    case model =>
      have hcount : (onModel (edit e)).Ensures s.held
          (fun _ t ↦ SameCount sound trim s.held.model t.model)
          fun t ↦ SameCount sound trim s.held.model t.model := by
        simp only [onModel, Viewport.onModel, Step.ensures_bind, Step.ensures_modify,
          Step.ensures_within]
        exact hedit e he _ h.sound
      exact ((onModel_ensures (edit e) s.held).and hcount).mono (fun _ _ ht ↦ h.aside ht.1 ht.2)
        fun _ ht ↦ h.aside ht.1 ht.2
    case aim =>
      exact (aim_spec source index).mono (fun _ _ ↦ h.aimed htrims) fun _ ↦ h.aimed htrims
    case views =>
      have hkept := h.withStock stock
      exact ⟨hkept.sound, hkept.followed.imp id fun htaken ↦
        ⟨htaken.trim, htaken.lt_len, htaken.stale⟩⟩
  exact hkeeps.ensures

/-! ### A pass -/

/-- Beyond taking over the length polled, a pass changes no length before it works on views. -/
theorem prepare_sameCount (source : ItemSource H V) (s : Hosted H (Collection M V S)) :
    let synced := (s.held.openPass.syncLength (source.len s.host).1).1
    sound synced.model →
    (prepare source).Ensures s
      (fun _ t ↦ synced.Aside t.held ∧ SameCount sound trim synced.model t.held.model)
      fun t ↦ synced.Aside t.held ∧ SameCount sound trim synced.model t.held.model := by
  intro synced h
  have haside := (htrims.aside h).viewport
  have happroach : (approach (source.len s.host).1).Ensures s.held.openPass
      (fun _ t ↦ SameCount sound trim synced.model t.model)
      fun t ↦ SameCount sound trim synced.model t.model := by
    simp only [approach, Step.ensures_bind, Step.ensures_modify, Step.ensures_modifyGet]
    exact (applyPending_viewport (fun viewport ↦ SameCount sound trim synced.model viewport.model)
      haside.scrollTo (.refl h)).mono (fun _ _ ht ↦ haside.window (haside.clamp ht)) fun _ ht ↦ ht
  rw [ensures_prepare]
  exact ((approach_ensures _ _).and happroach).mono (fun _ _ ht ↦ ⟨ht.1.1, ht.2⟩) fun _ ht ↦ ht

theorem syncLength_sincePoll [LawfulCount M] (len : Nat) (h : SincePoll sound trim last items) :
    SincePoll sound trim last (items.syncLength len).1 := by
  rw [syncLength]
  split
  · exact adoptLength_sincePoll htrims len h
  · exact h

omit htrims [Scalar S] [ResizableModel M S] [CrossPlacement M S] in
theorem SincePoll.openPass (h : SincePoll sound trim last items) :
    SincePoll sound trim last items.openPass :=
  ⟨h.sound, h.followed.imp id fun htaken ↦ ⟨htaken.trim, htaken.lt_len, .inr rfl⟩⟩

/-- A pass takes over the length it polls if a change is announced, or if the model has another one.
If the last completed pass polled another one, then a length was taken over since. In any case the
pass is to bind all views again. -/
theorem openPass_takenOver [LawfulCount M] {len : Nat} (h : sound items.model)
    (hnotices : Notices sound trim last len items) :
    let synced := (items.openPass.syncLength len).1
    TakenOver trim synced ∧ synced.due.rebind = true := by
  intro synced
  have hmodel : items.openPass.model = items.model := rfl
  by_cases hchanged : items.due.length = true ∨ len ≠ ExtentModel.len items.model
  · have hsync : items.openPass.syncLength len = items.openPass.adoptLength len :=
      if_pos (by simpa [length_due_openPass, hmodel] using hchanged)
    have hopened : sound items.openPass.model := h
    have htaken := (adoptLength_takenOver htrims len hopened).1
    simp only [synced, hsync]
    exact ⟨htaken, rfl⟩
  · have hsync : items.openPass.syncLength len = (items.openPass, []) :=
      if_neg (by simpa [length_due_openPass, hmodel] using hchanged)
    obtain ⟨hlength, hlen⟩ := not_or.mp hchanged
    obtain ⟨hlast, hsince⟩ := (hnotices.resolve_left hlength).resolve_left hlen
    have htaken := hsince.followed.resolve_left fun hsame ↦ hlast ((not_not.mp hlen).trans hsame)
    simp only [synced, hsync]
    refine ⟨⟨htaken.trim, htaken.lt_len, .inr rfl⟩, ?_⟩
    rw [Collection.openPass]
    dsimp only
    split
    · rfl
    · next hclosed => exact htaken.stale.resolve_right hclosed

/-- Where a pass that takes a length over begins its work on views, or one that follows such a pass
or call, the views are to be bound again. -/
theorem prepare_takenOver [LawfulCount M] (source : ItemSource H V) (h : sound s.held.model)
    (hnotices : Notices sound trim last (source.len s.host).1 s.held) :
    (prepare source).Ensures s
      (fun _ t ↦ TakenOver trim t.held ∧ ExtentModel.len t.held.model = (source.len s.host).1 ∧
        t.held.due.rebind = true)
      fun _ ↦ True := by
  obtain ⟨htaken, hrebind⟩ := openPass_takenOver htrims h hnotices
  have hlen := len_syncLength (source.len s.host).1 s.held.openPass
  have hopened : sound s.held.openPass.viewport.model := h
  have hsynced := syncLength_viewport htrims.toUpheld.viewport.passKeeps (source.len s.host).1 hopened
  exact (prepare_sameCount htrims source s hsynced).mono (fun _ t ⟨haside, hmodel⟩ ↦
    ⟨htaken.aside haside hmodel, hmodel.len_eq.trans hlen, haside.rebind hrebind⟩) fun _ _ ↦ trivial

/-- Such a pass, completed, leaves nothing past the end of the items polled. -/
theorem layout_takenOver [LawfulCount M] [ViewHandle H V S] (source : ItemSource H V)
    (h : sound s.held.model) (hnotices : Notices sound trim last (source.len s.host).1 s.held) :
    (layout source).Ensures s
      (fun _ t ↦ trim t.held.model ∧ ExtentModel.len t.held.model = (source.len s.host).1 ∧
        ∀ index ∈ t.held.selection.order, index < (source.len s.host).1)
      fun _ ↦ True := by
  refine layout_of_prepare ((prepare_takenOver htrims source h hnotices).mono
    (fun _ t ⟨htaken, hlen, _⟩ ↦ ?_) fun _ _ ↦ trivial)
  exact ⟨fun _ _ _ ↦ ⟨htaken.trim, hlen, hlen ▸ htaken.lt_len⟩, fun _ _ ↦ trivial⟩

/-- A pass that is cut short keeps it so. -/
theorem layout_sincePoll [LawfulCount M] [ViewHandle H V S] (source : ItemSource H V)
    (h : SincePoll sound trim last s.held) :
    (layout source).Ensures s (fun _ _ ↦ True) fun t ↦ SincePoll sound trim last t.held := by
  have hsynced := syncLength_sincePoll htrims (source.len s.host).1 h.openPass
  have hopen : (s.held.openPass.syncLength (source.len s.host).1).1.passOpen = true :=
    (syncLength_aside _ s.held.openPass).passOpen_eq
  refine layout_of_prepare ((prepare_sameCount htrims source s hsynced.sound).mono
    (fun _ t ⟨haside, hmodel⟩ ↦ ⟨fun _ _ _ ↦ trivial, fun _ _ ↦ ?_⟩)
    fun _ ⟨haside, hmodel⟩ ↦ hsynced.aside haside hmodel)
  have ht := hsynced.aside haside hmodel
  have hopen : t.held.passOpen = true := haside.passOpen_eq.trans hopen
  exact ⟨ht.sound, ht.followed.imp id fun htaken ↦ ⟨htaken.trim, htaken.lt_len, .inr hopen⟩⟩

/-- A pass that is completed leaves the model with the length that it polled. -/
theorem layout_polled [LawfulCount M] [ViewHandle H V S] (source : ItemSource H V)
    (h : sound s.held.model) :
    (layout source).Ensures s (fun _ t ↦ SincePoll sound trim (source.len s.host).1 t.held)
      fun _ ↦ True := by
  have hlen := len_syncLength (source.len s.host).1 s.held.openPass
  have hopened : sound s.held.openPass.viewport.model := h
  have hsynced := syncLength_viewport htrims.toUpheld.viewport.passKeeps (source.len s.host).1 hopened
  refine layout_of_prepare ((prepare_sameCount htrims source s hsynced).mono
    (fun _ _ ⟨_, hmodel⟩ ↦ ?_) fun _ _ ↦ trivial)
  exact ⟨fun _ _ _ ↦ ⟨hmodel.sound, .inl (hmodel.len_eq.trans hlen)⟩, fun _ _ ↦ trivial⟩

end Trims

/-! ### Runs -/

section Runs

variable [ViewHandle H V S] {edit : E → Step M (Reply S)} {source : ItemSource H V}
  {call : Call E H V S} {calls since : List (Call E H V S)} {len : Nat}

/-- The length that the pass of a call polls, if the call runs one and it is completed. -/
def Call.polled (edit : E → Step M (Reply S)) (source : ItemSource H V) (call : Call E H V S)
    (s : Hosted H (Collection M V S)) : Option Nat :=
  match call.lead edit source s with
  | .ok true t =>
    if ((Collection.layout source).outcome t).isOk then some (source.len t.host).1 else none
  | _ => none

/-- The length that the last completed pass of a run polled, and the calls made since. -/
def lastPoll (edit : E → Step M (Reply S)) (source : ItemSource H V) :
    List (Call E H V S) → Hosted H (Collection M V S) → Option (Nat × List (Call E H V S))
  | [], _ => none
  | call :: rest, s =>
    (lastPoll edit source rest ((call.perform edit source).after s)).or
      ((call.polled edit source s).map (·, rest))

/-- The calls made since the last poll are those at the end of the run. -/
theorem lastPoll_suffix (h : lastPoll edit source calls s = some (last, since)) :
    since <:+ calls := by
  induction calls generalizing s with
  | nil => cases h
  | cons call rest ih =>
    simp only [lastPoll, Option.or_eq_some_iff, Option.map_eq_some_iff, Prod.mk.injEq] at h
    rcases h with hlater | ⟨-, len, -, -, rfl⟩
    · exact (ih hlater).trans (List.suffix_cons ..)
    · exact List.suffix_cons ..

variable [LawfulCount M] (htrims : ExtentModel.Trims sound trim)

include htrims

/-- A call whose pass is completed leaves the model with the length polled. -/
theorem perform_polled
    (hkeeps : ∀ e model, sound model → (edit e).Ensures model (fun _ ↦ sound) sound)
    (h : sound s.held.model) (hpolled : call.polled edit source s = some len) :
    SincePoll sound trim len ((call.perform edit source).after s).held := by
  have hlead := lead_viewport htrims.toUpheld.viewport.tended source call (s := s)
    (fun e _ _ hmodel ↦ hkeeps e _ hmodel) h
  rw [Call.polled] at hpolled
  cases hled : call.lead edit source s with
  | error fault t => simp [hled] at hpolled
  | ok follows t =>
    cases follows with
    | false => simp [hled] at hpolled
    | true =>
      simp only [hled, Option.ite_none_right_eq_some, Option.some.injEq] at hpolled
      obtain ⟨hcompleted, rfl⟩ := hpolled
      obtain ⟨pass, u, hpass⟩ := Step.exists_eq_ok hcompleted
      rw [Call.after_perform_of_lead hled hpass]
      exact (layout_polled htrims source (hlead.of_ok hled)).of_ok hpass

/-- A call whose pass is cut short, and one that runs none, follow the last poll, unless the call
sets the length of the model itself. -/
theorem perform_sincePoll
    (hedit : ∀ e, call = .model e → ∀ model, sound model →
      (edit e).Ensures model (fun _ ↦ SameCount sound trim model) (SameCount sound trim model))
    (h : SincePoll sound trim last s.held) (hpolled : call.polled edit source s = none) :
    SincePoll sound trim last ((call.perform edit source).after s).held := by
  have hlead := lead_sincePoll htrims source call hedit h
  rw [Call.after_perform, Step.after_bind]
  rw [Call.polled] at hpolled
  rw [Step.Ensures] at hlead
  cases hled : call.lead edit source s with
  | error fault t =>
    rw [hled] at hlead
    exact hlead
  | ok follows t =>
    rw [hled] at hlead
    cases follows with
    | false => exact hlead
    | true =>
      have hcut := layout_sincePoll htrims source hlead
      rw [Step.Ensures] at hcut
      simp only [if_true]
      rw [Step.after_bind_pure (layout source) (fun _ ↦ ()) t, Step.after]
      cases hpass : layout source t with
      | ok pass u => simp [hled, Step.outcome, hpass, Except.isOk, Except.toBool] at hpolled
      | error fault u =>
        rw [hpass] at hcut
        exact hcut

/-- A run without a completed pass follows the last poll before it, unless the host sets the length
of the model. -/
theorem sincePoll_of_lastPoll_eq_none
    (hedit : ∀ e, .model e ∈ calls → ∀ model, sound model →
      (edit e).Ensures model (fun _ ↦ SameCount sound trim model) (SameCount sound trim model))
    (h : SincePoll sound trim last s.held) (hpoll : lastPoll edit source calls s = none) :
    SincePoll sound trim last (Step.runAll (Call.perform edit source) calls s).2.held := by
  induction calls generalizing s with
  | nil => exact h
  | cons call rest ih =>
    simp only [lastPoll, Option.or_eq_none_iff, Option.map_eq_none_iff] at hpoll
    exact ih (fun e he ↦ hedit e (.tail _ he))
      (perform_sincePoll htrims (fun e heq ↦ hedit e (heq ▸ .head _)) h hpoll.2) hpoll.1

/-- After a run the last poll of the run is followed, unless the host has set the length of the
model since. -/
theorem sincePoll_runAll
    (hkeeps : ∀ e model, sound model → (edit e).Ensures model (fun _ ↦ sound) sound)
    (hedit : ∀ e, .model e ∈ since → ∀ model, sound model →
      (edit e).Ensures model (fun _ ↦ SameCount sound trim model) (SameCount sound trim model))
    (h : ModelHas sound s) (hpoll : lastPoll edit source calls s = some (last, since)) :
    SincePoll sound trim last (Step.runAll (Call.perform edit source) calls s).2.held := by
  induction calls generalizing s with
  | nil => cases hpoll
  | cons call rest ih =>
    simp only [lastPoll, Option.or_eq_some_iff, Option.map_eq_some_iff, Prod.mk.injEq] at hpoll
    rcases hpoll with hlater | ⟨hnone, len, hpolled, rfl, rfl⟩
    · have hsound : ModelHas sound (Step.runAll (Call.perform edit source) [call] s).2 :=
        modelHas_runAll htrims.toUpheld source (fun e _ ↦ hkeeps e) h
      exact ih hsound hlater
    · have hpolled := perform_polled htrims hkeeps h hpolled
      have hsince : SincePoll sound trim len (Step.runAll (Call.perform edit source) rest
          ((call.perform edit source).after s)).2.held :=
        sincePoll_of_lastPoll_eq_none htrims hedit hpolled hnone
      exact hsince

end Runs

end Collection

end Windowing
