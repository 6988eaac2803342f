import Windowing.Proofs.Conservation
import Windowing.Proofs.Reports

/-!
# How live views are styled

A view is told whether its item is selected when it is filled, and when a change of the selection is
about its item. Nothing else styles a view. So if all live views are styled as their items are
selected, they are so after the change of the selection too, since the reports of a change name
every item that it is about. A pass needs this of the views that it does not fill again; the others
it styles itself.

## Main definitions

* `ViewStock.StyledOn` — the live views under certain keys are styled as the keys are selected.
* `ViewStock.Styled` — all live views are.

## Main results

* `ViewStock.restyle_styled` — a change of the selection leaves no view styled wrong.
* `ViewStock.follow_styled` — nor does a pass that is completed.
-/

namespace Windowing

/-! ### Changes of a selection -/

namespace Selection

variable {K : Type} [BEq K] [LawfulBEq K]

/-- A change that is in place is about one key. -/
theorem Change.contains_apply {keys : List K} (hkeys : keys.Nodup) (change : Change K) (key : K) :
    (change.apply keys).contains key =
      if key == change.key then change.isSelected else keys.contains key := by
  cases change with
  | selected added =>
    rw [apply, List.contains_append, List.contains_cons, List.contains_nil, Bool.or_false,
      Change.key, isSelected]
    cases key == added with
    | true => rw [Bool.or_true, if_pos rfl]
    | false => rw [Bool.or_false, if_neg Bool.false_ne_true]
  | unselected dropped =>
    rw [apply, Change.key, isSelected, Bool.eq_iff_iff, List.contains_iff_mem, hkeys.mem_erase_iff]
    by_cases hkey : key = dropped <;> simp [hkey]

/-- Changes in place list no key twice. -/
theorem Change.nodup_apply {keys : List K} (hkeys : keys.Nodup) {change : Change K}
    (hfits : change.fits keys = true) : (change.apply keys).Nodup :=
  distinct_iff_nodup.mp (distinct_apply (distinct_iff_nodup.mpr hkeys) hfits)

end Selection

variable {H K V S : Type} [Scalar S] [ViewHandle H V S]

/-! ### One slot -/

/-- Placing a view does not style it. -/
theorem Slot.selected_place (rect : Rect S) (force : Bool)
    (slot : Hosted (Journal H K S) (Slot K (Tracked K V S) S)) :
    (place rect force slot).held.view.selected = slot.held.view.selected :=
  place_induction rect slot force (fun view ↦ view.held.selected = slot.held.view.selected) rfl
    (fun _ h ↦ h) fun _ h ↦ h

namespace ViewStock

section Slots

variable {source : ViewSource K (Journal H K S) (Tracked K V S)} {layout : Layout K S} {key : K}
  {rect : Rect S} {slot : Hosted (Journal H K S) (Slot K (Tracked K V S) S)}

omit [Scalar S] in
/-- A view is styled before it is filled, so it is styled also where filling it is cut short. -/
theorem present_styles (hsource : source.Journals) (selected : Bool) :
    (present source key selected).Ensures slot (fun _ t ↦ t.held.view.selected = some selected)
      fun t ↦ t.held.view.selected = some selected := by
  obtain ⟨kind, step, hbind⟩ := hsource.bind key
  simp only [present, Slot.onView, hbind, Journal.bind, Step.ensures_bind, Step.ensures_modify,
    Step.ensures_onPart, Step.ensures_within]
  exact Step.ensures_of_forall (fun _ _ ↦ rfl) fun _ ↦ rfl

/-- A view that stays is styled if it is filled again. -/
theorem keep_styles (hsource : source.Journals) :
    (keep source layout key rect).Ensures slot
      (fun _ t ↦ t.held.view.selected =
        if layout.rebind then some (layout.selected key) else slot.held.view.selected)
      fun _ ↦ True := by
  rw [keep]
  cases layout.rebind with
  | false => exact Slot.selected_place rect layout.force slot
  | true =>
    simp only [if_true, Step.ensures_bind]
    exact (present_styles hsource _).mono
      (fun _ t ht ↦ (Slot.selected_place rect layout.force t).trans ht) fun _ _ ↦ trivial

theorem enter_styles (hsource : source.Journals) :
    (enter source layout key rect).Ensures slot
      (fun _ t ↦ t.held.view.selected = some (layout.selected key)) fun _ ↦ True := by
  simp only [enter, Step.ensures_bind]
  exact (present_styles hsource _).mono (fun _ t ht ↦ (Slot.selected_place rect true t).trans ht)
    fun _ _ ↦ trivial

end Slots

/-! ### The stock -/

variable [DecidableEq K] {selected : K → Bool} {which : K → Prop} {key : K}

section Stocks

omit [Scalar S] [ViewHandle H V S]

/-- Each view live under one of the keys was last styled as its key is selected. -/
def StyledOn (which : K → Prop) (selected : K → Bool) (stock : ViewStock K (Tracked K V S) S) :
    Prop :=
  ∀ ⦃key slot⦄, stock.live.find? key = some slot → which key →
    slot.view.selected = some (selected key)

/-- Each live view was last styled as its key is selected. -/
def Styled (selected : K → Bool) (stock : ViewStock K (Tracked K V S) S) : Prop :=
  ∀ ⦃key slot⦄, stock.live.find? key = some slot → slot.view.selected = some (selected key)

variable {stock : ViewStock K (Tracked K V S) S} {slot : Slot K (Tracked K V S) S}

theorem Styled.put (h : stock.Styled selected) (hslot : slot.view.selected = some (selected key)) :
    (stock.put key slot).Styled selected := by
  intro other found hfound
  rw [find?_put] at hfound
  split at hfound
  · next heq =>
    obtain rfl := Option.some.inj hfound
    rw [hslot, heq]
  · exact h hfound

theorem Styled.foldl_released (h : stock.Styled selected) (keys : List K) :
    (keys.foldl ViewStock.released stock).Styled selected := by
  intro other found hfound
  rw [find?_foldl_released] at hfound
  split at hfound
  · cases hfound
  · exact h hfound

/-- If no other key is given a view, only the key itself is yet to be looked at. -/
theorem StyledOn.turn {next : ViewStock K (Tracked K V S) S} (h : stock.StyledOn which selected)
    (hbeside : ∀ other, other ≠ key → next.live.find? other = stock.live.find? other)
    (hkey : ∀ slot, next.live.find? key = some slot → slot.view.selected = some (selected key)) :
    next.StyledOn (fun other ↦ other = key ∨ which other) selected := by
  intro other found hfound hother
  rcases eq_or_ne other key with rfl | hne
  · exact hkey found hfound
  · exact h ((hbeside other hne).symm.trans hfound) (hother.resolve_left hne)

end Stocks

/-! ### A pass -/

section Passes

variable {source : ViewSource K (Journal H K S) (Tracked K V S)} {layout : Layout K S}
  {base : Nat} {s : Hosted (Journal H K S) (ViewStock K (Tracked K V S) S)}

/-- The turn of a key leaves its view styled, if the view was before or the pass fills it again. -/
theorem realize_styles (hsource : source.Journals) (key : K) (hsound : s.held.Sound)
    (hkept : layout.rebind = false → which key) (h : s.held.StyledOn which layout.selected) :
    (realize source layout key).Ensures s
      (fun _ t ↦ t.held.StyledOn (fun other ↦ other = key ∨ which other) layout.selected)
      fun _ ↦ True := by
  have hgiven {kind : ViewKind} {pool : Pool (Slot K (Tracked K V S) S)}
      {slot : Slot K (Tracked K V S) S} (hslot : slot.view.selected = some (layout.selected key)) :
      (((s.held.released key).setPool kind pool).put key slot).StyledOn
        (fun other ↦ other = key ∨ which other) layout.selected := by
    refine h.turn (fun other hother ↦ ?_) fun found hfound ↦ ?_
    · rw [find?_put, if_neg hother]
      exact find?_released.trans (if_neg hother)
    · rw [find?_put, if_pos rfl] at hfound
      exact Option.some.inj hfound ▸ hslot
  refine realize_ensures hsound (fun _ _ ↦ trivial) ?kept ?reused ?asked
  case kept =>
    intro rect slot _ hlive _
    refine (keep_styles hsource).mono (fun _ t ht ↦ ?_) fun _ _ ↦ trivial
    refine h.turn (fun other hother ↦ find?_put.trans (if_neg hother)) fun found hfound ↦ ?_
    rw [find?_put, if_pos rfl] at hfound
    obtain rfl := Option.some.inj hfound
    cases hrebind : layout.rebind with
    | true => rw [ht, if_pos hrebind]
    | false => rw [ht, if_neg (Bool.eq_false_iff.mp hrebind), h hlive (hkept hrebind)]
  case reused =>
    intro rect slot rest _ _ _
    exact (enter_styles hsource).mono (fun _ _ ht ↦ hgiven ht) fun _ _ ↦ trivial
  case asked =>
    intro rect _ _ _
    refine Step.ensures_of_forall (fun view? host ↦ ?_) fun _ ↦ trivial
    cases view? with
    | none =>
      have hnone : (s.held.released key).live.find? key = none := by simp [find?_released]
      refine h.turn (fun other hother ↦ find?_released.trans (if_neg hother)) fun found hfound ↦ ?_
      cases hnone.symm.trans hfound
    | some view => exact (enter_styles hsource).mono (fun _ _ ht ↦ hgiven ht) fun _ _ ↦ trivial

theorem realizeAll_styles (hsource : source.Journals) (keys : List K)
    (hconserved : Conserved base s)
    (hkept : layout.rebind = false → ∀ key, which key)
    (h : s.held.StyledOn which layout.selected) :
    (realizeAll source layout keys).Ensures s
      (fun _ t ↦ t.held.StyledOn (fun key ↦ key ∈ keys ∨ which key) layout.selected)
      fun _ ↦ True := by
  induction keys generalizing s which with
  | nil => exact fun _ _ hlive hkey ↦ h hlive (hkey.resolve_left List.not_mem_nil)
  | cons key rest ih =>
    simp only [realizeAll, Step.ensures_bind]
    have hturn := realize_styles hsource key hconserved.sound (hkept · key) h
    refine ((realize_conserved hsource key hconserved).and hturn).mono (fun _ t ht ↦ ?_)
      fun _ _ ↦ trivial
    refine (ih ht.1 (fun hrebind other ↦ .inr (hkept hrebind other)) ht.2).mono
      (fun _ u hu ↦ ?_) fun _ _ ↦ trivial
    intro other slot hlive hother
    refine hu hlive ?_
    rcases hother with hmem | hwhich
    · rcases List.mem_cons.mp hmem with heq | hrest
      · exact .inr (.inl heq)
      · exact .inl hrest
    · exact .inr (.inr hwhich)

/-- A completed pass leaves all live views styled, if they were before or the pass fills them all
again. -/
theorem follow_styled (hsource : source.Journals) (leaving : List K) {keys : List K}
    {inWindow : K → Bool} (hwindow : ∀ key, inWindow key = true → key ∈ keys)
    (hconserved : Conserved base s) (h : layout.rebind = false → s.held.Styled layout.selected) :
    (follow source layout leaving keys inWindow).Ensures s
      (fun _ t ↦ t.held.Styled layout.selected) fun _ ↦ True := by
  obtain ⟨count, hvacate⟩ := vacate_eq hconserved.sound layout.rebind leaving inWindow
  let vacated := s.held.vacated layout.rebind leaving inWindow
  have hvacated : Conserved base ⟨s.host, vacated⟩ := hconserved.foldl_released _
  have hstyled : vacated.StyledOn (fun _ ↦ layout.rebind = false) layout.selected :=
    fun _ _ hlive hrebind ↦ (h hrebind).foldl_released _ hlive
  simp only [follow, Step.ensures_bind, Step.ensures_onHeld, Step.ensures_of_eq_ok hvacate,
    Step.ensures_get, Step.ensures_require, Step.ensures_pure]
  refine (realizeAll_styles hsource keys hvacated (fun hrebind _ ↦ hrebind) hstyled).mono
    (fun _ t ht ↦ ?_) fun _ _ ↦ trivial
  split
  · next hall =>
    exact fun key slot hlive ↦
      ht hlive (.inl (hwindow key (List.all_eq_true.mp hall key (Keyed.mem_keys_of_find? hlive))))
  · trivial

omit [Scalar S] in
/-- Filling a view again styles it, also where that is cut short. -/
theorem refill_styled (hsource : source.Journals) (key : K) (h : s.held.Styled selected) :
    (refill source key (selected key)).Ensures s (fun _ t ↦ t.held.Styled selected)
      fun t ↦ t.held.Styled selected := by
  simp only [refill, Step.ensures_bind, ensures_onLive]
  cases s.held.live.find? key with
  | none => exact h
  | some slot =>
    exact (present_styles hsource (selected key)).mono (fun _ _ ht ↦ h.put ht) fun _ ht ↦ h.put ht

end Passes

/-! ### Changes of the selection -/

section Selections

variable [BEq K] [LawfulBEq K] {s : Hosted (Journal H K S) (ViewStock K (Tracked K V S) S)}

omit [Scalar S]

theorem restyle_contains {before after : List K} {changes : List (Selection.Change K)}
    (hbefore : before.Nodup) (hplayback : Selection.Change.playback before changes = some after)
    (h : s.held.Styled before.contains) :
    (restyle changes).Ensures s (fun _ t ↦ t.held.Styled after.contains) fun _ ↦ False := by
  induction changes generalizing s before with
  | nil =>
    obtain rfl := Option.some.inj hplayback
    exact h
  | cons change rest ih =>
    rw [Selection.Change.playback] at hplayback
    split at hplayback
    · next hfits =>
      have hnext := Selection.Change.contains_apply hbefore change
      have hrest {s} := @ih s _ (Selection.Change.nodup_apply hbefore hfits) hplayback
      simp only [restyle, Step.ensures_bind, ensures_onLive, Step.ensures_modify]
      -- Views of other keys stay styled as their keys stay selected or not.
      have hothers {key : K} {slot : Slot K (Tracked K V S) S} (hkey : key ≠ change.key)
          (hlive : s.held.live.find? key = some slot) :
          slot.view.selected = some ((change.apply before).contains key) := by
        rw [h hlive, hnext, if_neg (by simpa using hkey)]
      cases hchanged : s.held.live.find? change.key with
      | none =>
        refine hrest fun key slot hlive ↦ hothers (fun heq ↦ ?_) hlive
        rw [heq, hchanged] at hlive
        cases hlive
      | some slot =>
        refine hrest fun key found hlive ↦ ?_
        rw [find?_put] at hlive
        split at hlive
        · next heq =>
          obtain rfl := Option.some.inj hlive
          rw [hnext, if_pos (by simpa using heq)]
          rfl
        · next hne => exact hothers hne hlive
    · cases hplayback

variable [Hashable K] {before after : Selection K} {changes : List (Selection.Change K)}

/-- After a change of the selection all views are styled as before the change, but those that the
change is about. -/
theorem restyle_styled (hbefore : before.Sound) (hmoves : before.Moves changes after)
    (h : s.held.Styled before.isSelected) :
    (restyle changes).Ensures s (fun _ t ↦ t.held.Styled after.isSelected) fun _ ↦ False := by
  rw [hbefore.isSelected_eq] at h
  rw [hmoves.sound.isSelected_eq]
  exact restyle_contains hbefore.nodup hmoves.playback_eq h

end Selections

end ViewStock

end Windowing
