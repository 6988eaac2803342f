import Windowing.Proofs.Collection.Leads

/-!
# When a pass binds all views again

A pass of a collection binds all views again for one of a few reasons: it is the first pass, the one
before it was cut short, the host announces a change of all items or of their number, or the source
has another number of items than the model by the time that the pass begins, or by the time that an
item is selected. There is no other reason. Between two calls, what is due says no more than how the
last pass ended, since a call that makes a rebinding due goes on to its pass, and is not cut short
before.

## Main definitions

* `LawfulExtents` — models that know the extents of the items that they were told to have.
* `Collection.lastPass` — how the last pass of a run ended.
* `Collection.Owes` — what is due by how the last pass ended.
* `Collection.rebinds` — whether a pass binds all views again.

## Main results

* `Collection.owes_runAll` — after any run, only how its last pass ended makes a rebinding due.
* `Collection.rebinds_iff` — the reasons for which the pass of a call binds all views again.
-/

namespace Windowing

/-! ### Models that know their items -/

/-- Models that know the extents of their items once they were told how many there are. -/
class LawfulExtents (M : Type) {S : outParam Type} [ExtentModel M S] [ResizableModel M S] :
    Prop where
  extentOf_setLen : ∀ (len : Nat) (model : M) (index : Nat),
    index < ExtentModel.len (ResizableModel.setLen len model) →
      ∃ extent, ExtentModel.extentOf (ResizableModel.setLen len model) index = .ok extent

instance {S : Type} [Scalar S] : LawfulExtents (Strip S) where
  extentOf_setLen _ _ _ _ := ⟨_, rfl⟩

/-- A grid that is told its length makes room for as many tracks as its items need. -/
instance {M S : Type} [Scalar S] [ExtentModel M S] [ResizableModel M S] [LawfulCount M]
    [LawfulExtents M] : LawfulExtents (Grid M S) where
  extentOf_setLen len grid index hindex := by
    let resized : Grid M S := ResizableModel.setLen len grid
    have hlen : index < resized.len := hindex
    have hlast : Nat.min index (resized.len - 1) = index := Nat.min_eq_left (by omega)
    have htracks : ExtentModel.len resized.tracks = resized.trackCount := LawfulCount.len_setLen ..
    have htrack : resized.trackOf index < ExtentModel.len resized.tracks :=
      htracks ▸ Grid.trackOf_lt_trackCount hlen
    obtain ⟨extent, hextent⟩ := LawfulExtents.extentOf_setLen resized.trackCount grid.tracks
      (resized.trackOf index) htrack
    refine ⟨extent, ?_⟩
    change resized.extentOf index = .ok extent
    rw [Grid.extentOf, if_neg (by omega), hlast]
    exact (if_pos htrack).trans hextent

namespace Collection

variable {E H M V S : Type} [Scalar S] [ExtentModel M S]

/-! ### What is due -/

/-- In both states the same rebinding is due, and the same pass is open. -/
structure SameDue (before after : Collection M V S) : Prop where
  length_eq : after.due.length = before.due.length
  rebind_eq : after.due.rebind = before.due.rebind
  passOpen_eq : after.passOpen = before.passOpen

/-- What is due between two calls, by how the last pass ended: `none` where no pass began, and
otherwise whether it was completed. -/
structure Owes (last : Option Bool) (items : Collection M V S) : Prop where
  passOpen_iff : items.passOpen = true ↔ last = some false
  length_of_none : last = none → items.due.length = true
  settled : last = some true → items.due.length = false ∧ items.due.rebind = false

variable {items other : Collection M V S} {last : Option Bool}

omit [Scalar S] [ExtentModel M S] in
theorem SameDue.refl (items : Collection M V S) : items.SameDue items :=
  ⟨rfl, rfl, rfl⟩

omit [Scalar S] [ExtentModel M S] in
theorem SameDue.trans {a b c : Collection M V S} (hab : a.SameDue b) (hbc : b.SameDue c) :
    a.SameDue c where
  length_eq := hbc.length_eq.trans hab.length_eq
  rebind_eq := hbc.rebind_eq.trans hab.rebind_eq
  passOpen_eq := hbc.passOpen_eq.trans hab.passOpen_eq

omit [Scalar S] [ExtentModel M S] in
theorem SameDue.owes (h : items.SameDue other) (howes : Owes last items) : Owes last other where
  passOpen_iff := by rw [h.passOpen_eq]; exact howes.passOpen_iff
  length_of_none := by rw [h.length_eq]; exact howes.length_of_none
  settled := by rw [h.length_eq, h.rebind_eq]; exact howes.settled

omit [ExtentModel M S] in
theorem owes_initial (model : M) (axis : Axis) (mode : SelectionMode) (lookahead : Nat) :
    Owes none (initial model axis mode lookahead : Collection M V S) where
  passOpen_iff := ⟨nofun, nofun⟩
  length_of_none _ := rfl
  settled := nofun

/-! ### The part of a call before its pass -/

variable [ResizableModel M S] [CrossPlacement M S] {s : Hosted H (Collection M V S)}

omit [ResizableModel M S] [CrossPlacement M S] in
theorem requestScroll_sameDue (request : ScrollRequest S) (items : Collection M V S) :
    (requestScroll request).Ensures items (fun _ ↦ items.SameDue) items.SameDue := by
  refine (requestScroll_spec request items).mono ?_ ?_
  · rintro _ _ ⟨viewport, -, rfl⟩
    exact ⟨rfl, rfl, rfl⟩
  · rintro _ rfl
    exact ⟨rfl, rfl, rfl⟩

omit [ResizableModel M S] in
theorem setViewportSize_sameDue (size : Size S) (items : Collection M V S) :
    items.SameDue (items.setViewportSize size).1 := by
  rw [setViewportSize]
  by_cases hcross : Scalar.eq (items.axis.split size).2 items.crossExtent = true
  · simp only [if_pos hcross]
    split <;> exact ⟨rfl, rfl, rfl⟩
  · simp only [if_neg hcross, Bool.or_true, if_true]
    exact ⟨rfl, rfl, rfl⟩

omit [CrossPlacement M S] in
theorem setItemExtent_sameDue (index : Nat) (extent : S) (items : Collection M V S) :
    (setItemExtent index extent).Ensures items (fun _ ↦ items.SameDue) items.SameDue := by
  simp only [setItemExtent, setItemExtent.onViewport, Viewport.onModel, Step.ensures_bind,
    Step.ensures_within]
  refine Step.ensures_of_forall (fun applied model ↦ ?_) fun _ ↦ ⟨rfl, rfl, rfl⟩
  split <;> exact ⟨rfl, rfl, rfl⟩

omit [CrossPlacement M S] in
theorem clearItemExtent_sameDue (index : Nat) (items : Collection M V S) :
    items.SameDue (items.clearItemExtent index).1 := by
  rw [clearItemExtent]
  dsimp only
  split <;> exact ⟨rfl, rfl, rfl⟩

/-- What is due when the pass of a call begins, beside what was due before the call. -/
structure Announced (source : ItemSource H V) (call : Call E H V S)
    (before after : Hosted H (Collection M V S)) : Prop where
  passOpen_eq : after.held.passOpen = before.held.passOpen
  length_iff : after.held.due.length = true ↔
    before.held.due.length = true ∨ call = .lengthChanged
  rebind_iff : after.held.due.rebind = true ↔ before.held.due.rebind = true ∨
    call = .refreshAll ∨ ∃ index, call = .select index ∧
      (source.len before.host).1 ≠ ExtentModel.len before.held.model

omit [Scalar S] [ResizableModel M S] [CrossPlacement M S] in
/-- Most calls announce nothing. -/
theorem SameDue.announced {source : ItemSource H V} {call : Call E H V S}
    {t : Hosted H (Collection M V S)} (h : s.held.SameDue t.held) (hlength : call ≠ .lengthChanged)
    (hrefresh : call ≠ .refreshAll) (hselect : ∀ index, call = .select index →
      (source.len s.host).1 = ExtentModel.len s.held.model) : Announced source call s t where
  passOpen_eq := h.passOpen_eq
  length_iff := by rw [h.length_eq, or_iff_left hlength]
  rebind_iff := by
    have hsame : ¬∃ index, call = .select index ∧
        (source.len s.host).1 ≠ ExtentModel.len s.held.model := by
      rintro ⟨index, heq, hne⟩
      exact hne (hselect index heq)
    rw [h.rebind_eq, or_iff_left hsame, or_iff_left hrefresh]

variable [LawfulExtents M]

omit [CrossPlacement M S] in
/-- An item that was selected is scrolled to without fail once a length was taken over. -/
theorem requestScroll_adopted (len index : Nat) (align : ScrollAlign) (items : Collection M V S) :
    (requestScroll (.item index align)).Ensures (items.adoptLength len).1
      (fun _ ↦ (items.adoptLength len).1.SameDue) fun _ ↦ False := by
  have hmodel : (items.adoptLength len).1.viewport.model = ResizableModel.setLen len items.model :=
    (Viewport.clamp_steady _).model_eq
  obtain ⟨moved, hmoved⟩ := ScrollRequest.apply_answers
    (hmodel ▸ LawfulExtents.extentOf_setLen len items.model) (.item index align)
  simp only [requestScroll, Step.ensures_bind, Step.ensures_modify, Step.ensures_get,
    Step.ensures_ofExcept, Step.ensures_pure]
  rw [hmoved]
  exact ⟨rfl, rfl, rfl⟩

variable [ViewHandle H V S] {edit : E → Step M (Reply S)} {call : Call E H V S}
  {calls : List (Call E H V S)}

omit [CrossPlacement M S] in
/-- Selecting an item makes a rebinding due only where it goes on to a pass. -/
theorem aim_due (source : ItemSource H V) (index : Nat) :
    (aim source index).Ensures s
      (fun answer t ↦
        if answer.2 then Announced source (.select index : Call E H V S) s t
        else s.held.SameDue t.held)
      fun t ↦ s.held.SameDue t.held := by
  let len := (source.len s.host).1
  simp only [aim, pollLength, Step.ensures_bind, Step.ensures_onHost, Step.ensures_modifyGet]
  refine (changeSelection_spec _).mono (fun changes t ht ↦ ?_) fun _ ↦ False.elim
  obtain ⟨-, stock, ht⟩ := ht
  have hmodel : t.held.model = s.held.model := by rw [ht]; rfl
  have hsame : s.held.SameDue t.held := by rw [ht]; exact ⟨rfl, rfl, rfl⟩
  simp only [Step.ensures_ite, Step.ensures_pure, Step.ensures_bind, Step.ensures_onHeld,
    Step.ensures_modifyGet, Bool.false_eq_true, if_false, if_true, bne_iff_ne, hmodel]
  split
  · exact hsame
  · by_cases hlen : len = ExtentModel.len s.held.model
    · rw [if_neg (not_not.mpr hlen)]
      have hscrolled := requestScroll_sameDue (.item index .nearest) t.held
      exact hscrolled.mono
        (fun _ _ hu ↦ (hsame.trans hu).announced (by simp) (by simp) fun _ _ ↦ hlen)
        fun _ hu ↦ hsame.trans hu
    · rw [if_pos hlen]
      refine (requestScroll_adopted len index .nearest t.held).mono (fun _ u hu ↦ ?_)
        fun _ ↦ False.elim
      have hrebind : (t.held.adoptLength len).1.due.rebind = true := rfl
      have hlength : (t.held.adoptLength len).1.due.length = s.held.due.length := hsame.length_eq
      refine ⟨hu.passOpen_eq.trans hsame.passOpen_eq, ?_, ?_⟩
      · rw [hu.length_eq, hlength, or_iff_left (by simp)]
      · rw [hu.rebind_eq, hrebind]
        exact iff_of_true rfl (.inr (.inr ⟨index, rfl, hlen⟩))

/-- What is due after the part of a call before its pass. -/
theorem lead_due (edit : E → Step M (Reply S)) (source : ItemSource H V) (call : Call E H V S) :
    (call.lead edit source).Ensures s
      (fun follows t ↦ if follows then Announced source call s t else s.held.SameDue t.held)
      fun t ↦ s.held.SameDue t.held := by
  have hscrolls {step : Step (Collection M V S) Bool}
      (hstep : step.Ensures s.held (fun _ ↦ s.held.SameDue) s.held.SameDue) :
      (scrolling (H := H) step).Ensures s (fun _ t ↦ s.held.SameDue t.held)
        fun t ↦ s.held.SameDue t.held := by
    simpa only [scrolling, Step.ensures_bind, Step.ensures_onHeld, Step.ensures_pure] using hstep
  have hscroll (request : ScrollRequest S) := hscrolls (requestScroll_sameDue request s.held)
  have hchange (change : Selection Nat → Selection Nat × List (Selection.Change Nat)) :
      (changeSelection (H := H) change).Ensures s (fun _ t ↦ s.held.SameDue t.held)
        fun t ↦ s.held.SameDue t.held := by
    refine (changeSelection_spec change).mono ?_ fun _ ↦ False.elim
    rintro _ t ⟨-, stock, ht⟩
    rw [ht]
    exact ⟨rfl, rfl, rfl⟩
  cases call
  case layout => exact (SameDue.refl s.held).announced (by simp) (by simp) (by simp)
  case refreshAll =>
    exact ⟨rfl, by simp [announceRefresh, Due.refresh], by simp [announceRefresh, Due.refresh]⟩
  case lengthChanged => exact ⟨rfl, by simp [announceLength], by simp [announceLength]⟩
  all_goals simp only [Call.lead, Step.ensures_bind, Step.ensures_pure]
  case itemInvalidated index =>
    have hrevised : (revise source index).Ensures s (fun _ t ↦ s.held.SameDue t.held)
        fun t ↦ s.held.SameDue t.held := by
      simp only [revise, Step.ensures_bind, Step.ensures_get]
      split
      · exact .refl s.held
      · simp only [Step.ensures_ite, Step.ensures_bind, Step.ensures_get, Step.ensures_pure,
          onStock, Step.ensures_onPart]
        split
        · exact Step.ensures_of_forall (fun _ _ ↦ ⟨rfl, rfl, rfl⟩) fun _ ↦ ⟨rfl, rfl, rfl⟩
        · exact .refl s.held
    refine hrevised.mono (fun answer t ht ↦ ?_) fun _ ↦ id
    split
    · exact ht.announced (by simp) (by simp) (by simp)
    · exact ht
  case select index => exact aim_due source index
  all_goals
    simp only [Call.perform, Step.ensures_bind, Step.ensures_pure, Bool.false_eq_true, if_false]
  case unselect index => exact hchange _
  case unselectAll => exact hchange _
  case setSelectionMode mode => exact hchange _
  case isSelected index => exact .refl s.held
  case setViewportSize size => exact setViewportSize_sameDue size s.held
  case scrollTo offset => exact hscroll _
  case scrollBy delta =>
    refine hscrolls ?_
    simp only [Collection.scrollBy, Step.ensures_bind, Step.ensures_get]
    exact requestScroll_sameDue _ s.held
  case reveal index => exact hscroll _
  case bring index align => exact hscroll _
  case scrollToStart => exact hscroll _
  case scrollToEnd => exact hscroll _
  case isFullyVisible index =>
    simp only [Step.ensures_get, Step.ensures_ofExcept]
    split <;> exact .refl s.held
  case setItemExtent index extent => exact hscrolls (setItemExtent_sameDue index extent s.held)
  case clearItemExtent index => exact clearItemExtent_sameDue index s.held
  case model e =>
    simp only [onModel, Viewport.onModel, Step.ensures_onHeld, Step.ensures_bind,
      Step.ensures_modify, Step.ensures_within]
    exact Step.ensures_of_forall (fun _ _ ↦ ⟨rfl, rfl, rfl⟩) fun _ ↦ ⟨rfl, rfl, rfl⟩
  case destroyAll => exact ⟨rfl, rfl, rfl⟩
  case editView index change =>
    simp only [onStock, Step.ensures_onPart]
    exact Step.ensures_of_forall (fun _ _ ↦ ⟨rfl, rfl, rfl⟩) fun _ ↦ ⟨rfl, rfl, rfl⟩
  case host change => exact .refl s.held

/-! ### A pass -/

omit [CrossPlacement M S] [LawfulExtents M] [ViewHandle H V S] in
/-- Where a pass begins its work on views, a rebinding is due if it was before, if the last pass was
cut short, or if the length is taken over. -/
theorem prepare_due (source : ItemSource H V) (s : Hosted H (Collection M V S)) :
    (prepare source).Ensures s
      (fun _ t ↦ t.held.due.rebind = true ↔ s.held.passOpen = true ∨ s.held.due.rebind = true ∨
        s.held.due.length = true ∨ (source.len s.host).1 ≠ ExtentModel.len s.held.model)
      fun _ ↦ True := by
  let len := (source.len s.host).1
  let synced := (s.held.openPass.syncLength len).1
  have happroach : (approach len).Ensures s.held.openPass (fun _ t ↦ t.due = synced.due)
      fun _ ↦ True := by
    simp only [approach, Step.ensures_bind, Step.ensures_modify, Step.ensures_modifyGet]
    refine (applyPending_spec synced).mono ?_ fun _ _ ↦ trivial
    rintro _ _ ⟨viewport, -, rfl⟩
    rfl
  have hmodel : s.held.openPass.model = s.held.model := rfl
  have hopened : s.held.openPass.due.rebind = true ↔
      s.held.passOpen = true ∨ s.held.due.rebind = true := by
    rw [openPass]
    cases s.held.passOpen <;> simp [Due.refresh]
  have hsynced : synced.due.rebind = true ↔ s.held.openPass.due.rebind = true ∨
      s.held.due.length = true ∨ len ≠ ExtentModel.len s.held.model := by
    simp only [synced, syncLength, length_due_openPass, hmodel]
    split
    · next hadopts =>
      exact iff_of_true rfl (.inr (by simpa using hadopts))
    · next hkeeps =>
      have hnone : ¬(s.held.due.length = true ∨ len ≠ ExtentModel.len s.held.model) := by
        simpa using hkeeps
      exact (or_iff_left hnone).symm
  rw [ensures_prepare]
  refine happroach.mono (fun _ t ht ↦ ?_) fun _ _ ↦ trivial
  rw [ht, hsynced, hopened, or_assoc]

omit [LawfulExtents M] in
/-- A pass that is completed leaves no rebinding due, and one that is cut short stays open. -/
theorem layout_owes (source : ItemSource H V) (s : Hosted H (Collection M V S)) :
    (layout source).Ensures s (fun _ t ↦ Owes (some true) t.held)
      fun t ↦ Owes (some false) t.held := by
  have hopen {items : Collection M V S} (h : items.passOpen = true) : Owes (some false) items :=
    ⟨iff_of_true h rfl, nofun, nofun⟩
  have hsynced : (s.held.openPass.syncLength (source.len s.host).1).1.passOpen = true :=
    (syncLength_aside _ s.held.openPass).passOpen_eq
  refine layout_of_prepare ((prepare_aside source s).mono (fun _ t ht ↦ ?_) fun t ht ↦ ?_)
  · exact ⟨fun _ _ _ ↦ ⟨⟨nofun, nofun⟩, nofun, fun _ ↦ ⟨rfl, rfl⟩⟩,
      fun _ _ ↦ hopen (ht.2.passOpen_eq.trans hsynced)⟩
  · exact hopen (ht.2.passOpen_eq.trans hsynced)

/-- Whether a pass binds all views again, as it knows once it has found its window. -/
def rebinds (source : ItemSource H V) (s : Hosted H (Collection M V S)) : Bool :=
  match prepare source s with
  | .ok _ t => t.held.due.rebind
  | .error _ _ => false

omit [LawfulExtents M] in
theorem layout_due (source : ItemSource H V) (s : Hosted H (Collection M V S)) :
    (layout source).Ensures s
      (fun _ _ ↦ rebinds source s = true ↔ s.held.passOpen = true ∨ s.held.due.rebind = true ∨
        s.held.due.length = true ∨ (source.len s.host).1 ≠ ExtentModel.len s.held.model)
      fun _ ↦ True := by
  rw [ensures_layout]
  refine (prepare_due source s).and_eq_ok.mono (fun answer t ht ↦ ?_) fun _ _ ↦ trivial
  obtain ⟨hdue, hprepare⟩ := ht
  have hrebinds : rebinds source s = t.held.due.rebind := by rw [rebinds, hprepare]
  exact Step.ensures_of_forall (fun _ _ ↦ hrebinds ▸ hdue) fun _ ↦ trivial

/-! ### Runs -/

/-- How the pass of a call ends, if the call runs one: whether it is completed. -/
def Call.passEnd (edit : E → Step M (Reply S)) (source : ItemSource H V) (call : Call E H V S)
    (s : Hosted H (Collection M V S)) : Option Bool :=
  match call.lead edit source s with
  | .ok true t => some ((Collection.layout source).outcome t).isOk
  | _ => none

/-- How the last pass of a run ended, if one began: whether it was completed. -/
def lastPass (edit : E → Step M (Reply S)) (source : ItemSource H V) :
    List (Call E H V S) → Hosted H (Collection M V S) → Option Bool
  | [], _ => none
  | call :: rest, s =>
    (lastPass edit source rest ((call.perform edit source).after s)).or
      (call.passEnd edit source s)

/-- After a call, what is due goes by how its pass ended, if it ran one. -/
theorem perform_owes (source : ItemSource H V) (h : Owes last s.held) :
    Owes ((call.passEnd edit source s).or last) ((call.perform edit source).after s).held := by
  have hlead := lead_due edit source call (s := s)
  rw [Step.Ensures] at hlead
  rw [Call.after_perform, Step.after_bind, Call.passEnd]
  cases hled : call.lead edit source s with
  | error fault t =>
    rw [hled] at hlead
    exact hlead.owes h
  | ok follows t =>
    rw [hled] at hlead
    cases follows with
    | false => exact hlead.owes h
    | true =>
      have hpass := layout_owes source t
      simp only [if_true]
      rw [Step.after_bind_pure (layout source) (fun _ ↦ ()) t, Step.after, Step.outcome]
      rw [Step.Ensures] at hpass
      cases hended : layout source t with
      | ok pass u => rw [hended] at hpass; exact hpass
      | error fault u => rw [hended] at hpass; exact hpass

/-- After any run, what is due goes by how its last pass ended. -/
theorem owes_runAll (source : ItemSource H V) (h : Owes last s.held) :
    Owes ((lastPass edit source calls s).or last)
      (Step.runAll (Call.perform edit source) calls s).2.held := by
  induction calls generalizing s last with
  | nil => exact h
  | cons call rest ih =>
    rw [lastPass, Option.or_assoc]
    exact ih (perform_owes source h)

/-- The pass of a call binds all views again for one of these reasons: it is the first one, the last
one was cut short, the call announces a change of the length or of all items, or the source has
another number of items than the model, by the time of the pass or by that of the call that selects
an item. -/
theorem rebinds_iff {source : ItemSource H V} {t : Hosted H (Collection M V S)}
    (h : Owes last s.held) (hlead : call.lead edit source s = .ok true t)
    {pass : Pass IndexRange Nat} {u : Hosted H (Collection M V S)}
    (hpass : layout source t = .ok pass u) :
    rebinds source t = true ↔ last = none ∨ call = .lengthChanged ∨
      (source.len t.host).1 ≠ ExtentModel.len t.held.model ∨
      (∃ index, call = .select index ∧ (source.len s.host).1 ≠ ExtentModel.len s.held.model) ∨
      call = .refreshAll ∨ last = some false := by
  have hcalled : Announced source call s t := (lead_due edit source call).of_ok hlead
  rw [(layout_due source t).of_ok hpass, hcalled.passOpen_eq, hcalled.length_iff,
    hcalled.rebind_iff, h.passOpen_iff]
  rcases last with _ | _ | _
  · simp [h.length_of_none rfl]
  · simp
  · obtain ⟨hlength, hrebind⟩ := h.settled rfl
    simp only [hlength, hrebind, reduceCtorEq, Option.some.injEq, Bool.true_eq_false,
      Bool.false_eq_true, false_or]
    grind

end Collection

end Windowing
