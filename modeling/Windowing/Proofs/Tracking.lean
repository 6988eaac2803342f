import Windowing.Journal
import Windowing.Pass
import Windowing.Proofs.Ensures
import Windowing.Rehearsal

/-!
# What is told to a tracked view

A journal numbers the views and counts what the host refused. Telling a view something changes
neither the number nor the kind of the view, and a view that is filled shows the content of the
key for which that was completed. These are facts about one slot and its host; the modules on
passes put them together.

## Main definitions

* `Journal.refusals` — how often the host refused to build a view.
* `Slot.SameView` — two states of a slot and its journal that agree on which view there is.
* `ViewSource.Journals` — a source that writes a journal.
* `ViewSource.KindsFixed` — a source whose kinds do not change while it works.

## Main results

* `ViewStock.present_ensures`, `ViewStock.keep_ensures`, `ViewStock.enter_ensures` — what a view
  shows after a pass has worked on it, also where it was cut short.
-/

namespace Windowing

variable {H K V S : Type}

/-! ### Refusals -/

/-- Whether an entry says that the host refused to build a view. -/
def Journal.Entry.isRefusal : Journal.Entry K S → Bool
  | refused _ => true
  | _ => false

/-- How often the host refused to build a view. -/
def Journal.refusals (journal : Journal H K S) : Nat :=
  journal.entries.countP Entry.isRefusal

/-! ### Sources that write a journal -/

/-- A source that writes down each view it builds for a kind that it asks for, and each view that
it fills. -/
structure ViewSource.Journals (source : ViewSource K (Journal H K S) (Tracked K V S)) : Prop where
  create : ∀ host key, ∃ step,
    source.create (source.kind host key) = Journal.create (source.kind host key) step
  bind : ∀ key, ∃ kind step, source.bind key = Journal.bind key kind step

theorem ItemSource.journals_views (source : ItemSource H V) :
    (source.journaled (S := S)).views.Journals where
  create _ _ := ⟨_, rfl⟩
  bind index := ⟨(source.kind · index), source.bind index, rfl⟩

theorem TableSource.journals_views (source : TableSource H V) :
    (source.journaled (S := S)).views.Journals where
  create _ _ := ⟨_, rfl⟩
  bind cell := ⟨fun _ ↦ .only, source.bind cell, rfl⟩

/-- A source whose items keep their kinds while views are built, filled and told things. -/
structure ViewSource.KindsFixed [ViewHandle H V S] (source : ViewSource K H V) : Prop where
  create : ∀ kind host, source.kind ((source.create kind).after host) = source.kind host
  bind : ∀ key view, source.kind ((source.bind key).after view).host = source.kind view.host
  setPosition : ∀ (position : Point S) (view : Hosted H V),
    source.kind (ViewHandle.setPosition position view).host = source.kind view.host
  setSize : ∀ (size : Size S) (view : Hosted H V),
    source.kind (ViewHandle.setSize size view).host = source.kind view.host
  setSelected : ∀ selected (view : Hosted H V),
    source.kind (ViewHandle.setSelected selected view).host = source.kind view.host

/-- A view is built under a journal without a change of kinds if it is without one. -/
theorem ItemSource.kind_create_journaled {source : ItemSource H V}
    (h : ∀ kind host, source.kind ((source.create kind).after host) = source.kind host)
    (kind : ViewKind) (journal : Journal H Nat S) :
    source.kind ((Journal.create kind (source.create kind)).after journal).host =
      source.kind journal.host := by
  have hcreate : (source.create kind).Ensures journal.host
      (fun _ host ↦ source.kind host = source.kind journal.host) _ :=
    Step.ensures_iff_after.mpr (h kind journal.host)
  have hjournal : (Journal.create kind (source.create kind)).Ensures journal
      (fun _ t ↦ source.kind t.host = source.kind journal.host)
      fun t ↦ source.kind t.host = source.kind journal.host := by
    simp only [Journal.create, Journal.onHost, Step.ensures_bind, Step.ensures_within]
    refine hcreate.mono (fun view? host hhost ↦ ?_) fun _ hhost ↦ hhost
    cases view? with
    | none => exact hhost
    | some view => exact hhost
  exact Step.ensures_iff_after.mp hjournal

/-- Writing a journal changes no kinds. -/
theorem ItemSource.kindsFixed_journaled [ViewHandle H V S] {source : ItemSource H V}
    (h : source.views.KindsFixed) : (source.journaled (S := S)).views.KindsFixed where
  create := source.kind_create_journaled h.create
  bind index view := by
    have hbind : (source.bind index).Ensures (Journal.bare view)
        (fun _ t ↦ source.kind t.host = source.kind view.host.host) _ :=
      Step.ensures_iff_after.mpr (h.bind index (Journal.bare view))
    have hjournal : (Journal.bind index (source.kind · index) (source.bind index)).Ensures view
        (fun _ t ↦ source.kind t.host.host = source.kind view.host.host)
        fun t ↦ source.kind t.host.host = source.kind view.host.host := by
      simp only [Journal.bind, Step.ensures_bind, Step.ensures_modify, Step.ensures_within]
      exact hbind
    exact Step.ensures_iff_after.mp hjournal
  setPosition position view := h.setPosition position (Journal.bare view)
  setSize size view := h.setSize size (Journal.bare view)
  setSelected selected view := h.setSelected selected (Journal.bare view)

/-- A rehearsal keeps the kinds of its items. -/
theorem Rehearsal.kindsFixed_items {S : Type} :
    (Rehearsal.items : ItemSource (Rehearsal Nat Nat) (BlankView S)).views.KindsFixed (S := S) where
  create kind host := by
    have hcreate : (Rehearsal.create (S := S) kind).Ensures host (fun _ t ↦ t.kindOf = host.kindOf)
        fun t ↦ t.kindOf = host.kindOf := by
      have hbuilt : { host with created := host.created + 1 }.kindOf = host.kindOf := rfl
      simp [Rehearsal.create, hbuilt]
    exact Step.ensures_iff_after.mp hcreate
  bind index view := by
    have hbind : (Rehearsal.bind index).Ensures view (fun _ t ↦ t.host.kindOf = view.host.kindOf)
        fun t ↦ t.host.kindOf = view.host.kindOf := by
      simp [Rehearsal.bind]
    exact Step.ensures_iff_after.mp hbind
  setPosition _ _ := rfl
  setSize _ _ := rfl
  setSelected _ _ := rfl

/-! ### The same view -/

/-- Two states of a slot and its journal that agree on which view there is, on what the slot
remembers of it, and on what was built and refused. -/
structure Slot.SameView (before after : Hosted (Journal H K S) (Slot K (Tracked K V S) S)) :
    Prop where
  number_eq : after.held.view.number = before.held.view.number
  viewKind_eq : after.held.view.kind = before.held.view.kind
  kind_eq : after.held.kind = before.held.kind
  key_eq : after.held.key = before.held.key
  created_eq : after.host.created = before.host.created
  refusals_eq : after.host.refusals = before.host.refusals

namespace Slot.SameView

variable {a b c : Hosted (Journal H K S) (Slot K (Tracked K V S) S)}

theorem trans (hab : SameView a b) (hbc : SameView b c) : SameView a c where
  number_eq := hbc.number_eq.trans hab.number_eq
  viewKind_eq := hbc.viewKind_eq.trans hab.viewKind_eq
  kind_eq := hbc.kind_eq.trans hab.kind_eq
  key_eq := hbc.key_eq.trans hab.key_eq
  created_eq := hbc.created_eq.trans hab.created_eq
  refusals_eq := hbc.refusals_eq.trans hab.refusals_eq

end Slot.SameView

/-- Telling a view something is no refusal. -/
theorem Journal.refusals_tell {entry : Nat → Journal.Entry K S}
    (hentry : ∀ view, (entry view).isRefusal = false) (change : Tracked K V S → Tracked K V S)
    (inner : Hosted H V → Hosted H V) (view : Hosted (Journal H K S) (Tracked K V S)) :
    (Journal.tell entry change inner view).host.refusals = view.host.refusals :=
  List.countP_cons_of_neg (by simp [hentry])

/-- A view that the host builds is numbered and of the kind that was asked for; a refusal is
counted, and where the host gives up nothing is. -/
theorem Journal.create_ensures (kind : ViewKind) (step : Step H (Option V))
    (journal : Journal H K S) :
    (Journal.create kind step).Ensures journal
      (fun view? t ↦
        match view? with
        | some view => view.number = journal.created ∧ view.kind = kind ∧
          t.created = journal.created + 1 ∧ t.refusals = journal.refusals
        | none => t.created = journal.created ∧ t.refusals = journal.refusals + 1)
      fun t ↦ t.created = journal.created ∧ t.refusals = journal.refusals := by
  rw [Journal.create, Journal.onHost]
  rw [Step.ensures_bind, Step.ensures_within]
  refine Step.ensures_of_forall (fun view? host ↦ ?_) fun _ ↦ ⟨rfl, rfl⟩
  cases view? with
  | none => exact ⟨rfl, List.countP_cons_of_pos rfl⟩
  | some view => exact ⟨rfl, rfl, rfl, List.countP_cons_of_neg (by simp [Journal.Entry.isRefusal])⟩

namespace Slot

/-- The host reaches into a view. -/
theorem edit_sameView (change : V → V)
    (slot : Hosted (Journal H K S) (Slot K (Tracked K V S) S)) :
    let view := { slot.held.view with view := change slot.held.view.view }
    SameView slot ⟨slot.host, { slot.held with view }⟩ :=
  ⟨rfl, rfl, rfl, rfl, rfl, rfl⟩

variable [ViewHandle H V S]

theorem style_sameView (selected : Bool)
    (slot : Hosted (Journal H K S) (Slot K (Tracked K V S) S)) :
    SameView slot (style selected slot) :=
  ⟨rfl, rfl, rfl, rfl, rfl, Journal.refusals_tell (fun _ ↦ rfl) ..⟩

variable [Scalar S]

/-- What holds of a view and is kept when it is sized and moved holds of it once it is placed. -/
theorem place_induction {H K V S : Type} [Scalar S] [ViewHandle H V S] (rect : Rect S)
    (slot : Hosted H (Slot K V S)) (force : Bool) (holds : Hosted H V → Prop)
    (start : holds ⟨slot.host, slot.held.view⟩)
    (sized : ∀ view, holds view → holds (ViewHandle.setSize rect.size view))
    (moved : ∀ view, holds view → holds (ViewHandle.setPosition rect.origin view)) :
    holds ⟨(place rect force slot).host, (place rect force slot).held.view⟩ := by
  have hsized (c : Prop) [Decidable c] : holds (if c then ⟨slot.host, slot.held.view⟩ else
      ViewHandle.setSize rect.size ⟨slot.host, slot.held.view⟩) := by
    split
    · exact start
    · exact sized _ start
  have hmoved (c : Prop) [Decidable c] {view : Hosted H V} (h : holds view) :
      holds (if c then view else ViewHandle.setPosition rect.origin view) := by
    split
    · exact h
    · exact moved _ h
  exact hmoved _ (hsized _)

/-- Placing a view changes neither which view there is nor what it shows. -/
theorem place_sameView (rect : Rect S) (force : Bool)
    (slot : Hosted (Journal H K S) (Slot K (Tracked K V S) S)) :
    SameView slot (place rect force slot) ∧
      (place rect force slot).held.view.content = slot.held.view.content := by
  obtain ⟨hnumber, hkind, hcontent, hcreated, hrefusals⟩ := place_induction
    rect slot force
    (fun view ↦ view.held.number = slot.held.view.number ∧
      view.held.kind = slot.held.view.kind ∧ view.held.content = slot.held.view.content ∧
      view.host.created = slot.host.created ∧ view.host.refusals = slot.host.refusals)
    ⟨rfl, rfl, rfl, rfl, rfl⟩
    (fun view ⟨hn, hk, hc, hm, hr⟩ ↦
      ⟨hn, hk, hc, hm, (Journal.refusals_tell (fun _ ↦ rfl) ..).trans hr⟩)
    (fun view ⟨hn, hk, hc, hm, hr⟩ ↦
      ⟨hn, hk, hc, hm, (Journal.refusals_tell (fun _ ↦ rfl) ..).trans hr⟩)
  exact ⟨⟨hnumber, hkind, rfl, rfl, hcreated, hrefusals⟩, hcontent⟩

end Slot

/-! ### Work on a slot -/

namespace ViewStock

section Journal

variable [ViewHandle H V S] {source : ViewSource K (Journal H K S) (Tracked K V S)}

/-- A view that is filled shows the content of its key, and one whose filling is cut short shows
what it did. -/
theorem present_ensures (hsource : source.Journals) (key : K) (selected : Bool)
    (slot : Hosted (Journal H K S) (Slot K (Tracked K V S) S)) :
    (present source key selected).Ensures slot
      (fun _ t ↦ Slot.SameView slot t ∧ t.held.view.content = .item key)
      fun t ↦ Slot.SameView slot t ∧ t.held.view.content = slot.held.view.content := by
  obtain ⟨kind, step, hbind⟩ := hsource.bind key
  have hrefusals (entry : Journal.Entry K S) (hentry : entry.isRefusal = false)
      (journal : Journal H K S) : (journal.write entry).refusals = journal.refusals :=
    List.countP_cons_of_neg (by simp [hentry])
  have hstyle := Slot.style_sameView selected slot
  simp only [present, Slot.onView, hbind, Journal.bind, Step.ensures_bind, Step.ensures_modify,
    Step.ensures_onPart, Step.ensures_within]
  refine Step.ensures_of_forall (fun _ inner ↦ ⟨hstyle.trans ?_, rfl⟩)
    fun inner ↦ ⟨hstyle.trans ?_, rfl⟩
  · exact ⟨rfl, rfl, rfl, rfl, rfl, hrefusals _ rfl _⟩
  · exact ⟨rfl, rfl, rfl, rfl, rfl, hrefusals _ rfl _⟩

variable [Scalar S] {layout : Layout K S} {key : K} {rect : Rect S}

/-- A view that stays shows what it did, unless the pass fills it again. -/
theorem keep_ensures (hsource : source.Journals)
    (slot : Hosted (Journal H K S) (Slot K (Tracked K V S) S)) :
    (keep source layout key rect).Ensures slot
      (fun _ t ↦ Slot.SameView slot t ∧ t.held.view.content =
        if layout.rebind then .item key else slot.held.view.content)
      fun t ↦ Slot.SameView slot t ∧ t.held.view.content = slot.held.view.content := by
  have hplace := Slot.place_sameView rect layout.force (V := V) (H := H) (K := K)
  rw [keep]
  cases hrebind : layout.rebind with
  | false => simpa using hplace slot
  | true =>
    simp only [↓reduceIte, Step.ensures_bind]
    refine (present_ensures hsource key _ slot).mono (fun _ t ht ↦ ?_) fun _ ht ↦ ht
    exact ⟨ht.1.trans (hplace t).1, (hplace t).2.trans ht.2⟩

/-- A view given to a key is filled with its content. -/
theorem enter_ensures (hsource : source.Journals)
    (slot : Hosted (Journal H K S) (Slot K (Tracked K V S) S)) :
    (enter source layout key rect).Ensures slot
      (fun _ t ↦ Slot.SameView slot t ∧ t.held.view.content = .item key)
      fun t ↦ Slot.SameView slot t := by
  have hplace := Slot.place_sameView rect true (V := V) (H := H) (K := K)
  simp only [enter, Step.ensures_bind]
  refine (present_ensures hsource key _ slot).mono (fun _ t ht ↦ ?_) fun _ ht ↦ ht.1
  exact ⟨ht.1.trans (hplace t).1, (hplace t).2.trans ht.2⟩

end Journal

/-! ### Kinds while a pass works -/

section Kinds

variable [ViewHandle H V S] {source : ViewSource K H V} {key : K}

theorem present_kinds (hkinds : source.KindsFixed) (selected : Bool)
    (slot : Hosted H (Slot K V S)) :
    (present source key selected).Ensures slot
      (fun _ t ↦ source.kind t.host = source.kind slot.host)
      fun t ↦ source.kind t.host = source.kind slot.host := by
  have hstyle := hkinds.setSelected selected ⟨slot.host, slot.held.view⟩
  simp only [present, Slot.onView, Step.ensures_bind, Step.ensures_modify, Step.ensures_onPart]
  exact Step.ensures_iff_after.mpr ((hkinds.bind key _).trans hstyle)

variable [Scalar S] {layout : Layout K S} {rect : Rect S}

theorem place_kinds (hkinds : source.KindsFixed) (force : Bool) (slot : Hosted H (Slot K V S)) :
    source.kind (Slot.place rect force slot).host = source.kind slot.host :=
  Slot.place_induction rect slot force (fun view ↦ source.kind view.host = source.kind slot.host)
    rfl (fun view h ↦ (hkinds.setSize _ view).trans h)
    fun view h ↦ (hkinds.setPosition _ view).trans h

theorem keep_kinds (hkinds : source.KindsFixed) (slot : Hosted H (Slot K V S)) :
    (keep source layout key rect).Ensures slot
      (fun _ t ↦ source.kind t.host = source.kind slot.host)
      fun t ↦ source.kind t.host = source.kind slot.host := by
  rw [keep]
  cases hrebind : layout.rebind with
  | false => simpa using place_kinds hkinds layout.force slot
  | true =>
    simp only [↓reduceIte, Step.ensures_bind]
    exact (present_kinds hkinds _ slot).mono (fun _ t ht ↦ (place_kinds hkinds _ t).trans ht)
      fun _ ht ↦ ht

theorem enter_kinds (hkinds : source.KindsFixed) (slot : Hosted H (Slot K V S)) :
    (enter source layout key rect).Ensures slot
      (fun _ t ↦ source.kind t.host = source.kind slot.host)
      fun t ↦ source.kind t.host = source.kind slot.host := by
  simp only [enter, Step.ensures_bind]
  exact (present_kinds hkinds _ slot).mono (fun _ t ht ↦ (place_kinds hkinds _ t).trans ht)
    fun _ ht ↦ ht

end Kinds

end ViewStock

end Windowing
