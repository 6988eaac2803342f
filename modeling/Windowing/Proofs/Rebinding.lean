import Windowing.Proofs.Tallies

/-!
# What a rebinding pass fills

A pass that is to bind all views again fills the view of every key of its window, whether it keeps
the view, takes it from a pool or has it built. By the books of the pass, the view of each key that
is live afterwards is among the calls to fill one. So the journal shows it: it grows in the pass,
and one of the new entries says that the view was filled for the key.

## Main definitions

* `Journal.Binds` — a view was filled for a key between two states of the journal.

## Main results

* `ViewStock.follow_rebinds` — a rebinding pass fills every view that is live afterwards.
-/

namespace Windowing

variable {H K V S : Type}

namespace Journal

variable {key : K} {view : Nat} {entry : Entry K S} {before after : List (Entry K S)}

/-- The view was filled for the key after the entries `before`, as the entries `after` show. -/
def Binds (key : K) (view : Nat) (before after : List (Entry K S)) : Prop :=
  ∃ kind past, before <:+ past ∧ .bound key kind view :: past <:+ after

/-- Only the call to fill the view for the key counts as such. -/
theorem Entry.eq_bound_of_bindCall? (h : entry.bindCall? = some (key, view)) :
    ∃ kind, entry = .bound key kind view := by
  cases entry with
  | bound other kind number =>
    obtain ⟨rfl, rfl⟩ := Prod.mk.inj (Option.some.inj h)
    exact ⟨kind, rfl⟩
  | _ => cases h

/-- A call to fill the view for the key that was not there before was made since. -/
theorem binds_of_mem_bindCalls {calls : List (K × Nat)} (hgrows : before <:+ after)
    (hcalls : bindCalls after = bindCalls before ++ calls) (hcall : (key, view) ∈ calls) :
    Binds key view before after := by
  obtain ⟨later, rfl⟩ := hgrows
  obtain rfl : calls = bindCalls later :=
    (List.append_cancel_left ((bindCalls_append later before).symm.trans hcalls)).symm
  obtain ⟨entry, hentry, hbound⟩ := List.mem_filterMap.mp hcall
  obtain ⟨newer, older, rfl⟩ := List.append_of_mem (List.mem_reverse.mp hentry)
  obtain ⟨kind, rfl⟩ := Entry.eq_bound_of_bindCall? hbound
  refine ⟨kind, older ++ before, List.suffix_append .., ?_⟩
  rw [List.append_assoc, List.cons_append]
  exact List.suffix_append ..

end Journal

namespace ViewStock

variable [ViewHandle H V S] [Scalar S] [DecidableEq K]
  {source : ViewSource K (Journal H K S) (Tracked K V S)} {layout : Layout K S} {base : Nat}
  {s : Hosted (Journal H K S) (ViewStock K (Tracked K V S) S)}

/-- A rebinding pass that is completed fills every view that is live afterwards. -/
theorem follow_rebinds (hsource : source.Journals) (hrebind : layout.rebind = true)
    {leaving keys : List K} {inWindow : K → Bool} (hkeys : keys.Nodup)
    (hwindow : ∀ key, inWindow key = true ↔ key ∈ keys) (hleaving : ∀ key ∈ leaving, key ∉ keys)
    (h : Conserved base s) :
    (follow source layout leaving keys inWindow).Ensures s
      (fun _ t ↦ ∀ key slot, t.held.live.find? key = some slot →
        Journal.Binds key slot.view.number s.host.entries t.host.entries)
      fun _ ↦ True := by
  have htidy (hnot : layout.rebind = false) : Tidy leaving keys s :=
    absurd (hrebind.symm.trans hnot) (by decide)
  have hbooks := follow_swept hsource hkeys hwindow hleaving h htidy
  have hexact := follow_exact hsource hkeys hwindow hleaving h htidy
  refine (hbooks.and hexact).mono (fun _ t ht key slot hslot ↦ ?_) fun _ _ ↦ trivial
  obtain ⟨⟨hbooked, _, hswept⟩, hexact⟩ := ht
  have hwithin (key : K) (hlive : (t.held.live.find? key).isSome = true) : key ∈ keys :=
    ((hexact.live_iff key).mp hlive).1
  exact Journal.binds_of_mem_bindCalls hswept.suffix hbooked.bindCalls_eq
    ((mem_newlyBound_iff hwithin).mpr ⟨slot, hslot, rfl, .inl hrebind⟩)

end ViewStock

end Windowing
