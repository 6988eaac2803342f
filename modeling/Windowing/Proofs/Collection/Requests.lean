import Windowing.Proofs.Collection.Viewports
import Windowing.Proofs.Requests
import Windowing.Rehearsal

/-!
# Scroll requests and the pass that follows

A call that scrolls a collection takes effect at once, and again in the next pass, in case the
source has grown. While it has not, the second time finds the viewport where the first has left it,
and the pass moves nothing. There is one exception: an item that is longer than the viewport and is
to be brought to the nearest edge goes from one edge to the other, so the offset after the pass is
not the one that the call left.

## Main definitions

* `Collection.Call.request?` — the request that a call makes.

## Main results

* `Collection.layout_offset` — where a pass takes a collection with a pending request.
* `Collection.offset_after_layout_iff` — a pass keeps the offset that a request left exactly if the
  request is not overlong.
-/

namespace Windowing

namespace Collection

/-- The scroll request that a call makes of a collection, if it makes one. -/
def Call.request? {E H M V S : Type} [Scalar S] (items : Collection M V S) :
    Call E H V S → Option (ScrollRequest S)
  | scrollTo offset => some (.offset offset)
  | scrollBy delta => some (.offset (items.viewport.offset + delta))
  | reveal index => some (.item index .nearest)
  | bring index align => some (.item index align)
  | scrollToStart => some (.offset Scalar.zero)
  | scrollToEnd => some .stop
  | _ => none

variable {E H M V : Type} [ExtentModel M Rat] [ResizableModel M Rat] [CrossPlacement M Rat]
  [ViewHandle H V Rat] {request : ScrollRequest Rat} {s : Hosted H (Collection M V Rat)}

/-- A call that makes a request records it and moves the viewport as requested. -/
theorem Call.perform_request {edit : E → Step M (Reply Rat)} {source : ItemSource H V}
    {call : Call E H V Rat} {moved : Viewport M Rat × Bool}
    (hcall : call.request? s.held = some request)
    (happly : request.apply s.held.viewport = .ok moved) :
    call.perform edit source s =
      .ok (.flag moved.2)
        ⟨s.host, { s.held with pending := some request, viewport := moved.1 }⟩ := by
  have hscroll : scrolling (H := H) (requestScroll request) s =
      .ok (.flag moved.2)
        ⟨s.host, { s.held with pending := some request, viewport := moved.1 }⟩ := by
    rw [Step.eq_ok_iff, scrolling]
    simp [requestScroll, happly]
  cases call with
  | scrollTo | scrollBy | reveal | bring | scrollToStart | scrollToEnd =>
    obtain rfl := Option.some.inj hcall
    exact hscroll
  | _ => cases hcall

/-! ### A pass with a pending request -/

section Pass

variable {items : Collection M V Rat}

omit [CrossPlacement M Rat] in
/-- Taking over the length that the model has already moves nothing. -/
theorem syncLength_alike
    (hsame : ExtentModel.Alike items.model
      (ResizableModel.setLen (ExtentModel.len items.model) items.model))
    (hoffset : items.viewport.offset ≤ items.viewport.maxOffset) :
    let synced := (items.syncLength (ExtentModel.len items.model)).1
    items.viewport.Alike synced.viewport ∧ synced.viewport.offset = items.viewport.offset ∧
      synced.pending = items.pending := by
  rw [syncLength]
  split
  · let adopted := items.viewport.withModel
      (ResizableModel.setLen (ExtentModel.len items.model) items.model)
    have halike : items.viewport.Alike adopted := ⟨hsame, rfl⟩
    have hclamp : adopted.clamp.1 = adopted :=
      congrArg Prod.fst (Viewport.clamp_eq (halike.maxOffset_eq.symm ▸ hoffset))
    have hviewport : (items.adoptLength (ExtentModel.len items.model)).1.viewport = adopted :=
      hclamp
    exact ⟨hviewport ▸ halike, (congrArg Viewport.offset hviewport).trans rfl, rfl⟩
  · exact ⟨.refl _, rfl, rfl⟩

omit [ResizableModel M Rat] [CrossPlacement M Rat] in
theorem applyPending_of_pending {moved : Viewport M Rat × Bool}
    (hpending : items.pending = some request) (happly : request.apply items.viewport = .ok moved) :
    applyPending items = .ok () { items with pending := none, viewport := moved.1 } := by
  rw [Step.eq_ok_iff, applyPending]
  simp [hpending, happly]

omit [CrossPlacement M Rat] in
/-- If the source has as many items as the model, the part of a pass that concerns scrolling goes
where the pending request says, and no further. -/
theorem approach_offset {goal : Rat → Rat} (hpending : items.pending = some request)
    (hoffset : items.viewport.offset ≤ items.viewport.maxOffset)
    (hsame : ExtentModel.Alike items.model
      (ResizableModel.setLen (ExtentModel.len items.model) items.model))
    (happly : ∀ again, items.viewport.Alike again →
      request.apply again = .ok (again.scrollTo (goal again.offset))) :
    (approach (ExtentModel.len items.model)).Ensures items
      (fun _ t ↦ t.viewport.offset =
        min (max 0 (goal items.viewport.offset)) items.viewport.maxOffset)
      fun _ ↦ False := by
  obtain ⟨halike, hstays, hasked⟩ := syncLength_alike hsame hoffset
  let synced := (items.syncLength (ExtentModel.len items.model)).1
  let moved := (synced.viewport.scrollTo (goal synced.viewport.offset)).1
  have happlied := applyPending_of_pending (hasked.trans hpending) (happly _ halike)
  have hmoved : moved.offset =
      min (max 0 (goal items.viewport.offset)) items.viewport.maxOffset := by
    rw [Viewport.offset_scrollTo, hstays, halike.maxOffset_eq]
  have hrange : moved.maxOffset = items.viewport.maxOffset :=
    (halike.trans (Viewport.scrollTo_alike _ _)).maxOffset_eq
  simp only [approach, Step.ensures_bind, Step.ensures_modify, Step.ensures_modifyGet,
    Step.ensures_of_eq_ok happlied, Step.ensures_pure, Prod.snd_swap]
  change moved.clamp.1.window.2.offset = _
  rw [Viewport.offset_window, Viewport.offset_clamp, hrange, hmoved]
  exact min_eq_left (min_le_right _ _)

/-- If the source has as many items as the model, a pass takes a collection where the pending
request says. This is so however the pass ends. -/
theorem layout_offset (source : ItemSource H V) {goal : Rat → Rat}
    (hpending : s.held.pending = some request)
    (hoffset : s.held.viewport.offset ≤ s.held.viewport.maxOffset)
    (hsame : ExtentModel.Alike s.held.model
      (ResizableModel.setLen (ExtentModel.len s.held.model) s.held.model))
    (happly : ∀ again, s.held.viewport.Alike again →
      request.apply again = .ok (again.scrollTo (goal again.offset)))
    (hlen : (source.len s.host).1 = ExtentModel.len s.held.model) :
    ((layout source).after s).held.viewport.offset =
      min (max 0 (goal s.held.viewport.offset)) s.held.viewport.maxOffset := by
  have happroach : (approach (ExtentModel.len s.held.model)).Ensures s.held.openPass _ _ :=
    approach_offset hpending hoffset hsame happly
  have hlayout : (layout source).Ensures s
      (fun _ t ↦ t.held.viewport.offset =
        min (max 0 (goal s.held.viewport.offset)) s.held.viewport.maxOffset)
      fun t ↦ t.held.viewport.offset =
        min (max 0 (goal s.held.viewport.offset)) s.held.viewport.maxOffset := by
    refine layout_of_prepare (ensures_prepare.mpr ?_)
    rw [hlen]
    exact happroach.mono (fun _ _ ht ↦ ⟨fun _ _ _ ↦ ht, fun _ _ ↦ ht⟩) fun _ ↦ nofun
  exact Step.ensures_iff_after.mp hlayout

end Pass

/-! ### A request and the pass after it -/

/-- A call that scrolls a collection whose items are laid out takes effect, and a pass that follows
and polls the length of the model keeps the offset exactly if the request is not overlong. -/
theorem request_again (edit : E → Step M (Reply Rat)) (source : ItemSource H V)
    {call : Call E H V Rat} (hcall : call.request? s.held = some request)
    (hlaid : ExtentModel.LaidOut s.held.model)
    (hsame : ExtentModel.Alike s.held.model
      (ResizableModel.setLen (ExtentModel.len s.held.model) s.held.model)) :
    ∃ moved t, call.perform edit source s = .ok (.flag moved) t ∧
      ((source.len t.host).1 = ExtentModel.len t.held.model →
        (((layout source).after t).held.viewport.offset = t.held.viewport.offset ↔
          ¬request.Overlong s.held.viewport)) := by
  obtain ⟨goal, happly, hrepeat⟩ := ScrollRequest.exists_goal hlaid request
  let moved := s.held.viewport.scrollTo (goal s.held.viewport.offset)
  let t : Hosted H (Collection M V Rat) :=
    ⟨s.host, { s.held with pending := some request, viewport := moved.1 }⟩
  have hperformed : call.perform edit source s = .ok (.flag moved.2) t :=
    Call.perform_request hcall (happly s.held.viewport (.refl _))
  have halike : s.held.viewport.Alike t.held.viewport := Viewport.scrollTo_alike _ _
  have hmodel : t.held.model = s.held.model := (Viewport.scrollTo_steady _ _).model_eq
  have hoffset : t.held.viewport.offset =
      min (max 0 (goal s.held.viewport.offset)) s.held.viewport.maxOffset :=
    Viewport.offset_scrollTo _ _
  refine ⟨moved.2, t, hperformed, fun hlen ↦ ?_⟩
  have hlayout : ((layout source).after t).held.viewport.offset =
      min (max 0 (goal t.held.viewport.offset)) t.held.viewport.maxOffset := by
    refine layout_offset source rfl ?_ (hmodel.symm ▸ hsame)
      (fun again hagain ↦ happly again (halike.trans hagain)) hlen
    rw [hoffset, halike.maxOffset_eq]
    exact min_le_right _ _
  rw [hlayout, halike.maxOffset_eq, hoffset]
  exact hrepeat s.held.viewport.offset

/-- After every run of calls a call that scrolls a list or a grid takes effect, and if the source
has as many items as the model then, the pass that follows keeps the offset that the call has left,
unless the call brings an item that is longer than the viewport to the nearest edge. If it does, the
pass leaves another offset. The calls on a grid must not change the number of tracks behind it. -/
theorem offset_after_layout_iff (host : H) (axis : Axis) (mode : SelectionMode) (lookahead : Nat) :
    (∀ (source : ItemSource H V) (strip : Strip Rat) (calls : List (Call (Strip.Call Rat) H V Rat))
      (call : Call (Strip.Call Rat) H V Rat) (request : ScrollRequest Rat), strip.Built →
      let s := (Step.runAll (Call.perform Strip.Call.perform source) calls
        ⟨host, initial strip axis mode lookahead⟩).2
      call.request? s.held = some request →
      ∃ moved t, call.perform Strip.Call.perform source s = .ok (.flag moved) t ∧
        ((source.len t.host).1 = t.held.model.len →
          (((layout source).after t).held.viewport.offset = t.held.viewport.offset ↔
            ¬request.Overlong s.held.viewport))) ∧
    ∀ (source : ItemSource H V) (grid : Grid (Strip Rat) Rat)
      (calls : List (Call (Grid.Call Rat) H V Rat)) (call : Call (Grid.Call Rat) H V Rat)
      (request : ScrollRequest Rat), grid.Built →
      (∀ count, .model (.tracks (.edit (.setLen count))) ∉ calls) →
      let s := (Step.runAll (Call.perform Grid.Call.perform source) calls
        ⟨host, initial grid axis mode lookahead⟩).2
      call.request? s.held = some request →
      ∃ moved t, call.perform Grid.Call.perform source s = .ok (.flag moved) t ∧
        ((source.len t.host).1 = t.held.model.len →
          (((layout source).after t).held.viewport.offset = t.held.viewport.offset ↔
            ¬request.Overlong s.held.viewport)) := by
  refine ⟨fun source strip calls call request hbuilt ↦ ?strip,
    fun source grid calls call request hbuilt hcalls ↦ ?grid⟩
  case strip =>
    intro s hcall
    have hstart : (initial strip axis mode lookahead : Collection _ V Rat).model.Laid := by
      rw [model_initial]
      exact hbuilt.laid
    have hlaid : s.held.model.Laid := modelHas_runAll Strip.upheld_laid source
      (fun e _ model h ↦ Step.ensures_iff_after.mpr (h.perform e)) hstart
    exact request_again _ source hcall hlaid.laidOut hlaid.alike_setLen
  case grid =>
    intro s hcall
    have hstart : (initial grid axis mode lookahead : Collection _ V Rat).model.Laid := by
      rw [model_initial]
      exact hbuilt.laid
    have hlaid : s.held.model.Laid := modelHas_runAll Grid.upheld_laid source
      (fun e he model h ↦ Step.ensures_iff_after.mpr
        (h.perform fun count heq ↦ hcalls count (heq ▸ he))) hstart
    exact request_again _ source hcall hlaid.laidOut hlaid.alike_setLen

/-- The first of twenty items is longer than the viewport. Showing it scrolls to its start, and the
pass that follows to its end. In a grid over tracks of the same extents, scrolling to the end of the
content is kept by the pass. -/
theorem offset_after_layout_iff_fifty :
    let host : Rehearsal Nat Nat := Rehearsal.ofPoll 20
    let source : ItemSource (Rehearsal Nat Nat) (BlankView Rat) := Rehearsal.items
    let uniform : Strip Rat := { Strip.empty with len := 20, uniform := 10 }
    let strip := (Step.runAll Strip.Call.perform [.edit (.setItemExtent 0 50)] uniform).2
    let grid := (Grid.ofTracks strip 10 20).withLaneSpacing 2
    (let calls : List (Call (Strip.Call Rat) (Rehearsal Nat Nat) (BlankView Rat) Rat) :=
        [.setViewportSize ⟨100, 20⟩, .layout, .scrollTo 100, .layout]
      let s := (Step.runAll (Call.perform Strip.Call.perform source) calls
        ⟨host, initial strip .vertical .none 0⟩).2
      ∃ moved t, (Call.reveal 0).perform Strip.Call.perform source s = .ok (.flag moved) t ∧
        ((layout source).after t).held.viewport.offset ≠ t.held.viewport.offset) ∧
    (let calls : List (Call (Grid.Call Rat) (Rehearsal Nat Nat) (BlankView Rat) Rat) :=
        [.setViewportSize ⟨25, 20⟩, .layout]
      let s := (Step.runAll (Call.perform Grid.Call.perform source) calls
        ⟨host, initial grid .vertical .none 0⟩).2
      ∃ moved t, Call.scrollToEnd.perform Grid.Call.perform source s = .ok (.flag moved) t ∧
        ((layout source).after t).held.viewport.offset = t.held.viewport.offset) := by
  intro host source uniform strip grid
  have hstrip : strip.Built := ⟨20, 10, uniform, _, rfl, rfl⟩
  have hgrid : grid.Built := ⟨strip, 10, 2, 20, [], hstrip, by simp, rfl⟩
  constructor
  · intro calls s
    have hextent : s.held.model.extentOf 0 = 50 := by decide +kernel
    have hoverlong : (ScrollRequest.item 0 .nearest).Overlong s.held.viewport :=
      ⟨0, rfl, by decide +kernel, 50, congrArg Except.ok hextent, by decide +kernel⟩
    obtain ⟨moved, t, hmoved, hlayout⟩ :=
      (offset_after_layout_iff host .vertical .none 0).1 source strip calls (.reveal 0)
        (.item 0 .nearest) hstrip rfl
    have hlen : (source.len t.host).1 = t.held.model.len := by
      rw [← Step.after_of_eq_ok hmoved]
      decide +kernel
    exact ⟨moved, t, hmoved, fun hsame ↦ (hlayout hlen).mp hsame hoverlong⟩
  · intro calls s
    obtain ⟨moved, t, hmoved, hlayout⟩ :=
      (offset_after_layout_iff host .vertical .none 0).2 source grid calls .scrollToEnd .stop hgrid
        (by simp [calls]) rfl
    have hlen : (source.len t.host).1 = t.held.model.len := by
      rw [← Step.after_of_eq_ok hmoved]
      decide +kernel
    refine ⟨moved, t, hmoved, (hlayout hlen).mpr ?_⟩
    rintro ⟨_, heq, -⟩
    cases heq

end Collection

end Windowing
