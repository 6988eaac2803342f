import Windowing.Proofs.Exact
import Windowing.Proofs.Following

/-!
# What a slot remembers of its view

A slot remembers the rectangle that its view was last given, and the view is not told again what it
was told last. This is right only while the memory is: through release and reuse, and also where a
pass is cut short between giving a key its view and placing the view.

## Main definitions

* `Slot.Remembers` — the view was last told the rectangle that its slot remembers.

## Main results

* `Slot.place_remembers` — a view that is placed is where it was placed, told or not.
* `ViewStock.follow_remembers` — a pass keeps the memory of every slot right.
-/

namespace Windowing

variable {H K V : Type}

/-! ### One slot -/

/-- If the slot remembers a rectangle, its size and its origin are the ones that the view was last
given. -/
def Slot.Remembers {S : Type} [Scalar S] (slot : Slot K (Tracked K V S) S) : Prop :=
  ∀ rect ∈ slot.placed, slot.view.size = some rect.size ∧ slot.view.position = some rect.origin

variable [ViewHandle H V Rat]

/-- A placed view has the size and the position of its rectangle, whatever it had to be told. -/
theorem Slot.place_remembers (rect : Rect Rat) (force : Bool)
    {slot : Hosted (Journal H K Rat) (Slot K (Tracked K V Rat) Rat)} (h : slot.held.Remembers) :
    (place rect force slot).held.Remembers := by
  rintro _ ⟨⟩
  have hlast : ∀ last ∈ (if force then none else slot.held.placed),
      slot.held.view.size = some last.size ∧ slot.held.view.position = some last.origin := by
    cases force with
    | true => nofun
    | false => exact h
  simp only [place]
  generalize (if force then none else slot.held.placed) = last at hlast ⊢
  cases last with
  | none => exact ⟨rfl, rfl⟩
  | some last =>
    obtain ⟨hsize, hposition⟩ := hlast last rfl
    simp only [Option.any_some]
    have hsized : let view := if last.size.eq rect.size then ⟨slot.host, slot.held.view⟩ else
          ViewHandle.setSize rect.size ⟨slot.host, slot.held.view⟩
        view.held.size = some rect.size ∧ view.held.position = some last.origin := by
      dsimp only
      split
      · next hsame => exact ⟨hsize.trans (congrArg some (Size.eq_iff.mp hsame)), hposition⟩
      · exact ⟨rfl, hposition⟩
    split
    · next hsame =>
      exact ⟨hsized.1, hsized.2.trans (congrArg some (Point.eq_iff.mp hsame))⟩
    · exact ⟨hsized.1, rfl⟩

namespace ViewStock

variable {source : ViewSource K (Journal H K Rat) (Tracked K V Rat)} {layout : Layout K Rat}
  {key : K} {rect : Rect Rat}

/-! ### Work on a slot -/

/-- A view that is styled and filled is neither sized nor moved, however that ends. -/
theorem present_remembers (hsource : source.Journals) (selected : Bool)
    {slot : Hosted (Journal H K Rat) (Slot K (Tracked K V Rat) Rat)} (h : slot.held.Remembers) :
    (present source key selected).Ensures slot (fun _ t ↦ t.held.Remembers)
      fun t ↦ t.held.Remembers := by
  obtain ⟨kind, step, hbind⟩ := hsource.bind key
  simp only [present, Slot.onView, hbind, Journal.bind, Step.ensures_bind, Step.ensures_modify,
    Step.ensures_onPart, Step.ensures_within]
  exact Step.ensures_of_forall (fun _ _ ↦ h) fun _ ↦ h

theorem keep_remembers (hsource : source.Journals)
    {slot : Hosted (Journal H K Rat) (Slot K (Tracked K V Rat) Rat)} (h : slot.held.Remembers) :
    (keep source layout key rect).Ensures slot (fun _ t ↦ t.held.Remembers)
      fun t ↦ t.held.Remembers := by
  rw [keep]
  cases layout.rebind with
  | false => exact Slot.place_remembers rect layout.force h
  | true =>
    simp only [if_true, Step.ensures_bind]
    exact (present_remembers hsource _ h).mono
      (fun _ _ ht ↦ Slot.place_remembers rect layout.force ht) fun _ ht ↦ ht

theorem enter_remembers (hsource : source.Journals)
    {slot : Hosted (Journal H K Rat) (Slot K (Tracked K V Rat) Rat)} (h : slot.held.Remembers) :
    (enter source layout key rect).Ensures slot (fun _ t ↦ t.held.Remembers)
      fun t ↦ t.held.Remembers := by
  simp only [enter, Step.ensures_bind]
  exact (present_remembers hsource _ h).mono (fun _ _ ht ↦ Slot.place_remembers rect true ht)
    fun _ ht ↦ ht

/-! ### Work on a stock -/

variable [DecidableEq K]
  {s : Hosted (Journal H K Rat) (ViewStock K (Tracked K V Rat) Rat)}

/-- The turn of a key keeps the memory of every slot right, however it ends. -/
theorem realize_remembers (hsource : source.Journals) (hsound : s.held.Sound)
    (h : s.held.Every Slot.Remembers) :
    (realize source layout key).Ensures s (fun _ t ↦ t.held.Every Slot.Remembers)
      fun t ↦ t.held.Every Slot.Remembers := by
  have hrest (pool : Pool (Slot K (Tracked K V Rat) Rat))
      (hpool : ∀ slot ∈ pool.free, slot.Remembers) :
      ((s.held.released key).setPool (source.kind s.host key) pool).Every Slot.Remembers :=
    (h.released key).setPool hpool
  refine realize_ensures hsound (fun _ _ ↦ h) ?kept ?reused ?asked
  case kept =>
    intro rect slot _ hlive _
    exact (keep_remembers hsource (h.live hlive)).mono (fun _ _ ht ↦ h.put ht) fun _ ht ↦ h.put ht
  case reused =>
    intro rect slot rest _ hkind hpool
    have hslot : slot.Remembers := h.pooled (hpool ▸ List.mem_cons_self)
    have hothers := hrest ⟨rest⟩ fun other hother ↦
      h.pooled (hpool ▸ List.mem_cons_of_mem _ hother)
    exact (enter_remembers hsource hslot).mono (fun _ _ ht ↦ hothers.put ht)
      fun _ ht ↦ hothers.put ht
  case asked =>
    intro rect _ _ _
    have hothers := hrest ⟨[]⟩ (by simp)
    refine Step.ensures_of_forall (fun view? host ↦ ?_) fun _ ↦ hothers
    cases view? with
    | none => exact hothers
    | some view =>
      -- Nothing is remembered of a view that was just built.
      have hbuilt : (Slot.ofView view (source.kind s.host key) : Slot K _ Rat).Remembers := nofun
      exact (enter_remembers hsource hbuilt).mono (fun _ _ ht ↦ hothers.put ht)
        fun _ ht ↦ hothers.put ht

/-- No view is lost, and every slot remembers what its view was told. -/
structure Remembering (s : Hosted (Journal H K Rat) (ViewStock K (Tracked K V Rat) Rat)) :
    Prop where
  conserved : ∃ base, Conserved base s
  every : s.held.Every Slot.Remembers

omit [ViewHandle H V Rat] in
theorem Remembering.empty (journal : Journal H K Rat) :
    Remembering (V := V) ⟨journal, ViewStock.empty⟩ :=
  ⟨⟨_, .empty journal⟩, .empty _⟩

theorem realizeAll_remembers (hsource : source.Journals) (keys : List K) (h : Remembering s) :
    (realizeAll source layout keys).Ensures s (fun _ ↦ Remembering) Remembering := by
  induction keys generalizing s with
  | nil => exact h
  | cons key rest ih =>
    obtain ⟨base, hconserved⟩ := h.conserved
    simp only [realizeAll, Step.ensures_bind]
    refine ((realize_conserved hsource key hconserved).and
      (realize_remembers hsource hconserved.sound h.every)).mono (fun _ t ht ↦ ?_)
      fun _ ht ↦ ⟨⟨base, ht.1⟩, ht.2⟩
    exact (ih ⟨⟨base, ht.1⟩, ht.2⟩).mono (fun _ _ hu ↦ hu) fun _ hu ↦ hu

/-- A pass keeps the memory of every slot right, however it ends. -/
theorem follow_remembers (hsource : source.Journals) (layout : Layout K Rat) (leaving keys : List K)
    (inWindow : K → Bool) (h : Remembering s) :
    (follow source layout leaving keys inWindow).Ensures s (fun _ ↦ Remembering) Remembering := by
  obtain ⟨base, hconserved⟩ := h.conserved
  obtain ⟨count, hvacate⟩ := vacate_eq hconserved.sound layout.rebind leaving inWindow
  have hvacated : Remembering ⟨s.host, s.held.vacated layout.rebind leaving inWindow⟩ :=
    ⟨⟨base, hconserved.foldl_released _⟩, h.every.foldl_released _⟩
  simp only [follow, Step.ensures_bind, Step.ensures_onHeld, Step.ensures_of_eq_ok hvacate,
    Step.ensures_get, Step.ensures_require, Step.ensures_pure]
  refine (realizeAll_remembers hsource keys hvacated).mono (fun _ t ht ↦ ?_) fun _ ht ↦ ht
  split
  · exact ht
  · exact ht

theorem refill_remembers (hsource : source.Journals) (key : K) (selected : Bool)
    (h : Remembering s) :
    (refill source key selected).Ensures s (fun _ ↦ Remembering) Remembering := by
  obtain ⟨base, hconserved⟩ := h.conserved
  have hevery : (refill source key selected).Ensures s
      (fun _ t ↦ t.held.Every Slot.Remembers) fun t ↦ t.held.Every Slot.Remembers := by
    simp only [refill, Step.ensures_bind, ensures_onLive]
    cases hlive : s.held.live.find? key with
    | none => exact h.every
    | some slot =>
      exact (present_remembers hsource selected (h.every.live hlive)).mono
        (fun _ _ ht ↦ h.every.put ht) fun _ ht ↦ h.every.put ht
  exact ((refill_upkeep hsource key selected hconserved).and hevery).mono
    (fun _ _ ht ↦ ⟨⟨base, ht.1.conserved⟩, ht.2⟩) fun _ ht ↦ ⟨⟨base, ht.1.conserved⟩, ht.2⟩

/-- Work on views beside a pass keeps the memory right. -/
theorem upheld_remembering :
    Upheld (Remembering : Hosted (Journal H K Rat) (ViewStock K (Tracked K V Rat) Rat) → Prop) where
  withHost _ h := by
    obtain ⟨⟨base, hconserved⟩, hevery⟩ := h
    exact ⟨⟨base, hconserved.sound, hconserved.complete.congr rfl⟩, hevery⟩
  style {s key slot} selected h hlive := by
    obtain ⟨⟨base, hconserved⟩, hevery⟩ := h
    have hslot : slot.Remembers := hevery.live hlive
    exact ⟨⟨base, hconserved.work hlive (Slot.style_sameView selected ⟨s.host, slot⟩)⟩,
      hevery.put hslot⟩
  editView {s key slot} change h hlive := by
    obtain ⟨⟨base, hconserved⟩, hevery⟩ := h
    have hslot : slot.Remembers := hevery.live hlive
    exact ⟨⟨base, hconserved.work hlive (Slot.edit_sameView change ⟨s.host, slot⟩)⟩,
      hevery.put hslot⟩

end ViewStock

end Windowing
