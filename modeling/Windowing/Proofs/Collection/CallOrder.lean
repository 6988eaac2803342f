import Windowing.Extent.Strip
import Windowing.Proofs.Collection.Beside
import Windowing.Proofs.Collection.Recording
import Windowing.Proofs.Telling

/-!
# In what order a collection tells its views things

A pass comes to the keys of its window one after another, and the turn of one key may be cut short.
So the states that matter to the order of things are those between two turns: a run is taken apart
into its calls, a call into the part before its pass and the pass, and a pass into its turns. Each
entry of the journal of a run was written between two such states, which say how the item was
selected, of which kind it was to be, and what was live.

## Main definitions

* `Collection.passStages` — the states that a pass goes through.
* `Collection.Call.within` — the states within a call.

## Main results

* `Collection.calls_in_order` — in what order a run styles, fills, sizes and moves each view.
* `Collection.bound_to_other_kind` — what a view was built for need not be the kind of its item, if
  a source changes kinds when it is asked for a view, or a pass is cut short.
-/

namespace Windowing.Collection

variable {E H M V S : Type} [Scalar S] [ExtentModel M S] [ResizableModel M S]
  [CrossPlacement M S] [ViewHandle H V S]

open Journal (Entry Grows lastBound)
open ViewStock (Chronicled Follows Vouched turns)

/-- The states that a pass goes through once it has found its window: when the views that leave are
released, and after the turn of each item, up to one that is cut short. -/
def passStages (source : ItemSource (Journal H Nat S) (Tracked Nat V S))
    (s : Hosted (Journal H Nat S) (Collection M (Tracked Nat V S) S)) :
    List (Hosted (Journal H Nat S) (Collection M (Tracked Nat V S) S)) :=
  match prepare source s with
  | .error _ _ => []
  | .ok (window, _) t =>
    let layout := t.held.layoutFor t.held.due
    let leaving := IndexRange.leaving t.held.window.toIndexRange window.toIndexRange
    let views : Hosted _ _ :=
      ⟨t.host, (ViewStock.vacate layout.rebind leaving window.contains).after t.held.stock⟩
    (views :: turns source.views layout window.toList views).map fun views ↦
      ⟨views.host, { t.held with due := {}, stock := views.held }⟩

/-- The states within a recorded call: where its pass begins, and those of the pass. -/
def Call.within (edit : E → Step M (Reply S)) (source : ItemSource H V) (call : Call E H V S)
    (s : Hosted (Journal H Nat S) (Collection M (Tracked Nat V S) S)) :
    List (Hosted (Journal H Nat S) (Collection M (Tracked Nat V S) S)) :=
  match call.journaled.lead edit source.journaled s with
  | .ok true t => t :: passStages source.journaled t
  | _ => []

/-- What was written between two states is in order, by what the first says of the kinds and the
selection, and the second of what is live. -/
def InOrder (source : ItemSource H V)
    (before after : Hosted (Journal H Nat S) (Collection M (Tracked Nat V S) S)) : Prop :=
  Grows (Vouched source.views.KindsSteady (source.kind before.host.host)
    before.held.selection.isSelected after.held.stock.live) before.host.entries after.host.entries

variable {source : ItemSource H V}
  {s t : Hosted (Journal H Nat S) (Collection M (Tracked Nat V S) S)}

omit [Scalar S] [ExtentModel M S] [ResizableModel M S] [CrossPlacement M S] in
theorem inOrder_of_entries_eq (h : t.host.entries = s.host.entries) : InOrder source s t := by
  rw [InOrder, h]
  exact .refl _

omit [ResizableModel M S] in
/-- The views that a pass leaves behind are those that the turns of its items do. -/
theorem after_realize (source : ItemSource H V) (h : StockHas Chronicled t)
    (window : VisibleWindow S) :
    let layout := t.held.layoutFor t.held.due
    let leaving := IndexRange.leaving t.held.window.toIndexRange window.toIndexRange
    let views : Hosted _ _ :=
      ⟨t.host, (ViewStock.vacate layout.rebind leaving window.contains).after t.held.stock⟩
    let left := (ViewStock.realizeAll source.journaled.views layout window.toList).after views
    let u := (realize source.journaled window).after t
    u.host = left.host ∧ u.held.stock = left.held := by
  intro layout leaving views left u
  obtain ⟨base, hconserved⟩ := h.conserved
  have hfollow : (ViewStock.follow source.journaled.views layout leaving window.toList
      window.contains).after ⟨t.host, t.held.stock⟩ = left :=
    ViewStock.after_follow hconserved.sound leaving window.toList window.contains
  have hleft : (ViewStock.follow source.journaled.views layout leaving window.toList
      window.contains).Ensures ⟨t.host, t.held.stock⟩
      (fun _ v ↦ v.host = left.host ∧ v.held = left.held)
      fun v ↦ v.host = left.host ∧ v.held = left.held :=
    Step.ensures_iff_after.mpr (hfollow ▸ ⟨rfl, rfl⟩)
  refine Step.ensures_iff_after.mp (?_ : (realize source.journaled window).Ensures t
    (fun _ u ↦ u.host = left.host ∧ u.held.stock = left.held)
    fun u ↦ u.host = left.host ∧ u.held.stock = left.held)
  rw [ensures_realize]
  exact hleft

/-- From state to state of a pass, what is written is in order. -/
theorem passStages_inOrder (source : ItemSource H V) (h : StockHas Chronicled s) :
    (s :: passStages source.journaled s ++ [(layout source.journaled).after s]).IsChain
        (InOrder source) ∧ StockHas Chronicled ((layout source.journaled).after s) := by
  have hupheld : ViewStock.Upheld (Follows source.views.KindsSteady (source.kind s.host.host)
    s.held.selection.isSelected ⟨s.host, s.held.stock⟩) := ViewStock.upheld_follows _
  have hprepare := (prepare_aside source.journaled s).and
    (prepare_stockHas hupheld source ⟨h, .refl _⟩)
  rw [Step.Ensures] at hprepare
  have hentries {t : Hosted (Journal H Nat S) (Collection M (Tracked Nat V S) S)}
      (ht : t.host = (source.journaled.len s.host).2) : t.host.entries = s.host.entries := by
    rw [ht]
    rfl
  cases hprepared : prepare source.journaled s with
  | error fault t =>
    have hafter : (layout source.journaled).after s = t := by
      rw [layout, Step.after_bind, hprepared]
    rw [hprepared] at hprepare
    obtain ⟨⟨hhost, -⟩, hfollows⟩ := hprepare
    rw [passStages, hprepared, hafter]
    exact ⟨.cons_cons (inOrder_of_entries_eq (hentries hhost)) (.singleton t),
      hfollows.chronicled⟩
  | ok answer t =>
    obtain ⟨window, unselected⟩ := answer
    have hafter : (layout source.journaled).after s =
        (realize source.journaled window).after t := by
      rw [layout, Step.after_bind, hprepared]
      exact Step.after_bind_pure ..
    rw [hprepared] at hprepare
    obtain ⟨⟨hhost, -⟩, hfollows⟩ := hprepare
    let layout := t.held.layoutFor t.held.due
    let leaving := IndexRange.leaving t.held.window.toIndexRange window.toIndexRange
    let views : Hosted _ _ :=
      ⟨t.host, (ViewStock.vacate layout.rebind leaving window.contains).after t.held.stock⟩
    let within (views : Hosted (Journal H Nat S) (ViewStock Nat (Tracked Nat V S) S)) :
        Hosted (Journal H Nat S) (Collection M (Tracked Nat V S) S) :=
      ⟨views.host, { t.held with due := {}, stock := views.held }⟩
    have hviews : Chronicled views := hfollows.chronicled.vacate layout.rebind leaving _
    obtain ⟨hchain, hlast, hleft⟩ := ViewStock.turns_follow
      source.chronicles_views source.kindsSteady_journaled layout window.toList hviews
    obtain ⟨hhosted, hstock⟩ := after_realize source hfollows.chronicled window
    have hturns : ((views :: turns source.journaled.views layout window.toList views).map
        within).IsChain (InOrder source) :=
      (List.isChain_map within).mpr (hchain.imp fun _ _ hturn ↦ hturn.grows)
    rw [passStages, hprepared, hafter]
    refine ⟨.cons_cons (inOrder_of_entries_eq (hentries hhost))
      (hturns.append (.singleton _) fun last hmem left hleft ↦ inOrder_of_entries_eq ?_), ?_⟩
    · rw [List.getLast?_map, hlast] at hmem
      obtain rfl := Option.mem_some_iff.mp hmem
      obtain rfl := Option.mem_some_iff.mp hleft
      exact congrArg Journal.entries hhosted
    · rw [StockHas, hhosted, hstock]
      exact hleft

variable {edit : E → Step M (Reply S)}

omit [Scalar S] [ExtentModel M S] [ResizableModel M S] [CrossPlacement M S] in
/-- An item that is invalidated is styled and then filled, if its view is of the kind it needs. -/
theorem revise_follows (source : ItemSource H V) (index : Nat) (h : StockHas Chronicled s) :
    let follows := StockHas (Follows source.views.KindsSteady (source.kind s.host.host)
      s.held.selection.isSelected ⟨s.host, s.held.stock⟩)
    (revise source.journaled index).Ensures s (fun _ ↦ follows) follows := by
  intro follows
  have hfollows : follows s := ⟨h, .refl _⟩
  simp only [revise, Step.ensures_bind, Step.ensures_get]
  cases hkind : s.held.stock.kindOf? index with
  | none => exact hfollows
  | some live =>
    simp only [Step.ensures_ite, Step.ensures_bind, Step.ensures_get, Step.ensures_pure, onStock,
      Step.ensures_onPart]
    split
    · next hlive =>
      exact ViewStock.refill_follows source.chronicles_views source.kindsSteady_journaled
        (hkind.trans (congrArg some hlive)) h
    · exact hfollows

/-- Within a call, what is written from state to state is in order. -/
theorem within_inOrder (call : Call E H V S) (h : StockHas Chronicled s) :
    (s :: call.within edit source s ++ [(call.record edit source).after s]).IsChain
        (InOrder source) ∧ StockHas Chronicled ((call.record edit source).after s) := by
  cases hcall : call.isDestroyAll with
  | true =>
    cases call with
    | destroyAll => exact ⟨.cons_cons (inOrder_of_entries_eq rfl) (.singleton _), .empty h.numbered⟩
    | _ => cases hcall
  | false =>
    have hupheld : ViewStock.Upheld (Follows source.views.KindsSteady (source.kind s.host.host)
      s.held.selection.isSelected ⟨s.host, s.held.stock⟩) := ViewStock.upheld_follows _
    have hlead := lead_upheld (upheld_stockHas hupheld) edit source call hcall ⟨h, .refl _⟩
      fun index _ ↦ revise_follows source index h
    rw [Call.within, Call.record, Call.after_perform, Step.after_bind]
    rw [Step.Ensures] at hlead
    cases hfound : call.journaled.lead edit source.journaled s with
    | error fault t =>
      rw [hfound] at hlead
      exact ⟨.cons_cons hlead.grows (.singleton t), hlead.chronicled⟩
    | ok follows t =>
      rw [hfound] at hlead
      cases follows with
      | false => exact ⟨.cons_cons hlead.grows (.singleton t), hlead.chronicled⟩
      | true =>
        obtain ⟨hchain, hchronicled⟩ := passStages_inOrder source hlead.chronicled
        have hafter := Step.after_bind_pure (layout source.journaled) (fun _ ↦ ()) t
        rw [← hafter] at hchain hchronicled
        exact ⟨.cons_cons hlead.grows hchain, hchronicled⟩

/-- In what order a run tells its views things, whatever is cut short in it. Each entry of the
journal was written between two states that the run passes through. No view is built twice. A view
that is to be filled for an item was built for the kind that the item has when its turn comes, which
is the kind that it has when the view is filled if building and styling views changes no kinds; and
what was done to the view last is that it was styled as the item is selected. A view that is sized
or moved is live under the item for which it was last to be filled. The run is recorded to say so,
and ends where the run without the record does. -/
theorem calls_in_order (edit : E → Step M (Reply S)) (source : ItemSource H V) (host : H)
    (model : M) (axis : Axis) (mode : SelectionMode) (lookahead : Nat)
    (calls : List (Call E H V S)) :
    let start := recorded host model axis mode lookahead
    let stages := Step.stages (Call.record edit source) (Call.within edit source) calls start
    let final := (Step.runAll (Call.record edit source) calls start).2
    (Step.runAll (Call.perform edit source) calls ⟨host, initial model axis mode lookahead⟩).2 =
        plain final ∧
      stages.getLast? = some final ∧
      ∀ later entry past, final.host.entries = later ++ entry :: past →
        ∃ before after, [before, after] <:+: stages ∧
          before.host.entries <:+ past ∧ entry :: past <:+ after.host.entries ∧
          match entry with
          | .created _ view => ∀ kind, .created kind view ∉ past
          | .refused _ | .styled _ _ => True
          | .bound index kind view =>
            let asked := source.kind before.host.host index
            .created asked view ∈ past ∧ (source.views.KindsSteady → kind = asked) ∧
              past.find? (Entry.isAbout view) =
                some (.styled (before.held.selection.isSelected index) view)
          | .moved _ view | .resized _ view =>
            ∃ index slot, after.held.stock.live.find? index = some slot ∧
              slot.view.number = view ∧ lastBound view past = some index := by
  intro start stages final
  have hstart : StockHas (Chronicled (V := V)) start := .empty nofun
  have hchain : stages.IsChain (InOrder source) :=
    Step.isChain_stages (StockHas Chronicled) (fun call _ ↦ within_inOrder call) calls hstart
  refine ⟨runAll_recorded edit source host model axis mode lookahead calls,
    Step.getLast?_stages calls start, fun later entry past hentry ↦ ?_⟩
  have hfirst : ∀ s ∈ stages.head?, s.host.entries <:+ past := by
    rw [Step.head?_stages]
    rintro _ ⟨⟩
    exact List.nil_suffix
  have hwritten : entry :: past <:+ final.host.entries := hentry ▸ List.suffix_append ..
  obtain ⟨before, after, hinfix, hbefore, hafter, hvouched⟩ :=
    Journal.exists_stage hchain (Step.getLast?_stages calls start) hwritten hfirst
  refine ⟨before, after, hinfix, hbefore, hafter, ?_⟩
  cases entry <;> exact hvouched

/-- In a rehearsal an item changes its kind between two passes, and gets a new view of that kind,
which is styled before it is filled. -/
theorem calls_in_order_rehearsal :
    let source : ItemSource (Rehearsal Nat Nat) (BlankView Rat) := Rehearsal.items
    let calls : List (Call (Strip.Call Rat) (Rehearsal Nat Nat) (BlankView Rat) Rat) :=
      [.setViewportSize ⟨100, 10⟩, .layout, .host ({ · with kinds := #[⟨1⟩] }), .layout]
    let final := (Step.runAll (Call.record Strip.Call.perform source) calls
      (recorded (Rehearsal.ofPoll 1) { Strip.empty with uniform := 10 } .vertical .none 0)).2
    source.views.KindsSteady (S := Rat) ∧
      ∃ later past, final.host.entries = later ++ .bound 0 ⟨1⟩ 1 :: past ∧ .created ⟨1⟩ 1 ∈ past ∧
        ∃ selected, past.find? (Entry.isAbout 1) = some (.styled selected 1) := by
  intro source calls final
  have hsteady : source.views.KindsSteady (S := Rat) := Rehearsal.kindsFixed_items.steady
  obtain ⟨-, -, hordered⟩ := calls_in_order Strip.Call.perform source (Rehearsal.ofPoll 1)
    ({ Strip.empty with uniform := 10 } : Strip Rat) .vertical .none 0 calls
  have hentries : final.host.entries =
      final.host.entries.take 2 ++ .bound 0 ⟨1⟩ 1 :: final.host.entries.drop 3 := by
    decide +kernel
  obtain ⟨before, after, -, -, -, hcreated, hkind, hstyled⟩ := hordered _ _ _ hentries
  rw [← hkind hsteady] at hcreated
  exact ⟨hsteady, _, _, hentries, hcreated, _, hstyled⟩

/-- A source that changes the kind of an item when it is asked for a view has the view of the old
kind filled for it. And where a pass gives up on an item before it comes to the next one, that one
keeps the view of a kind that it no longer has. -/
theorem bound_to_other_kind :
    let strip : Strip Rat := { Strip.empty with uniform := 10 }
    let source : ItemSource (Rehearsal Nat Nat) (BlankView Rat) := Rehearsal.items
    let changing : ItemSource (Rehearsal Nat Nat) (BlankView Rat) :=
      { source with create := fun kind ↦ do
          modify ({ · with kinds := #[⟨1⟩] })
          source.create kind }
    let run (source : ItemSource (Rehearsal Nat Nat) (BlankView Rat)) (len : Nat) calls :=
      (Step.runAll (Call.record Strip.Call.perform source) calls
        (recorded (Rehearsal.ofPoll len) strip .vertical .none 0)).2
    let created := run changing 1 [.setViewportSize ⟨100, 10⟩, .layout]
    let interrupted := run source 2 [.setViewportSize ⟨100, 20⟩, .layout,
      .host ({ · with kinds := #[⟨1⟩], createFails := true }), .layout]
    (¬ ∀ later index kind view past,
        created.host.entries = later ++ .bound index kind view :: past →
          .created kind view ∈ past) ∧
      ¬ ∀ index kind, interrupted.held.stock.kindOf? index = some kind →
        source.kind interrupted.host.host index = kind := by
  intro strip source changing run created interrupted
  constructor
  · intro h
    have hentries : created.host.entries = [.moved ⟨0, 0⟩ 0, .resized ⟨100, 10⟩ 0, .bound 0 ⟨1⟩ 0,
        .styled false 0, .created ⟨0⟩ 0] := by
      decide +kernel
    exact absurd (h [.moved ⟨0, 0⟩ 0, .resized ⟨100, 10⟩ 0] 0 ⟨1⟩ 0 _ hentries) (by decide)
  · intro h
    have hlive : interrupted.held.stock.kindOf? 1 = some ⟨0⟩ := by decide +kernel
    exact absurd (h 1 ⟨0⟩ hlive) (by decide +kernel)

end Windowing.Collection
