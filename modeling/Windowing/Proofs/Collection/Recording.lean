import Windowing.Proofs.Collection.Runs
import Windowing.Proofs.Recording

/-!
# Recorded runs of collections are runs

A run of calls that is recorded ends with the same answers and faults as the run itself, and in the
same state up to the record. So whatever is shown of the windows, the selection and the views of
recorded runs holds of the runs themselves.

## Main definitions

* `Collection.plain` — a collection and its host without the record.

## Main results

* `Collection.Call.record_mirrors` — a recorded call does what the call does.
* `Collection.runAll_record` — a recorded run does what the run does.
-/

namespace Windowing.Collection

variable {E H M V S : Type}

/-- The collection without what was recorded of its views. -/
def bare (items : Collection M (Tracked Nat V S) S) : Collection M V S :=
  { items with stock := items.stock.bare }

/-- The collection and its host without the record. -/
def plain (items : Hosted (Journal H Nat S) (Collection M (Tracked Nat V S) S)) :
    Hosted H (Collection M V S) :=
  Hosted.shown Journal.host bare items

/-! ### Steps on parts -/

/-- A step on the viewport is the same with a record of the views and without. -/
theorem onViewport_mirrors {α : Type} (step : Step (Viewport M S) α) :
    Step.Mirrors (bare (V := V)) id (setItemExtent.onViewport step)
      (setItemExtent.onViewport step) :=
  (Step.mirrors_refl step).within (fun _ ↦ rfl) fun _ _ ↦ rfl

theorem onModel_mirrors {α : Type} (step : Step M α) :
    Step.Mirrors bare id (onModel (V := Tracked Nat V S) step) (onModel step) :=
  (Step.mirrors_modify fun _ ↦ by rfl).bind fun _ ↦ onViewport_mirrors _

theorem onStock_mirrors {α : Type}
    {step : Step (Hosted (Journal H Nat S) (ViewStock Nat (Tracked Nat V S) S)) α}
    {step' : Step (Hosted H (ViewStock Nat V S)) α}
    (h : Step.Mirrors ViewStock.plain id step step') :
    Step.Mirrors (plain (M := M)) id (onStock step) (onStock step') :=
  Hosted.onPart_mirrors h (fun _ ↦ rfl) fun _ _ ↦ rfl

theorem pollLength_mirrors (source : ItemSource H V) :
    Step.Mirrors (plain (M := M) (S := S)) id (pollLength source.journaled) (pollLength source) :=
  Hosted.onHost_mirrors (Step.mirrors_modifyGet fun _ ↦ rfl)

/-! ### Scrolling and resizing -/

variable [Scalar S] [ExtentModel M S]

theorem requestScroll_mirrors (request : ScrollRequest S) :
    Step.Mirrors bare id (requestScroll (M := M) (V := Tracked Nat V S) request)
      (requestScroll request) := by
  refine (Step.mirrors_modify fun _ ↦ by rfl).bind fun _ ↦ ?_
  refine Step.mirrors_get.bind fun items ↦ ?_
  refine (Step.mirrors_ofExcept (request.apply items.viewport)).bind fun moved ↦ ?_
  exact (Step.mirrors_modify fun _ ↦ by rfl).bind fun _ ↦ Step.mirrors_pure rfl

theorem scrollBy_mirrors (delta : S) :
    Step.Mirrors bare id (Collection.scrollBy (M := M) (V := Tracked Nat V S) delta)
      (Collection.scrollBy delta) :=
  Step.mirrors_get.bind fun items ↦ requestScroll_mirrors (.offset (items.viewport.offset + delta))

theorem applyPending_mirrors :
    Step.Mirrors bare id (applyPending (M := M) (V := Tracked Nat V S) (S := S)) applyPending := by
  refine Step.mirrors_get.bind fun items ↦ ?_
  have hpending : items.bare.pending = items.pending := rfl
  rw [hpending]
  cases items.pending with
  | none => exact Step.mirrors_pure rfl
  | some request =>
    refine (Step.mirrors_modify fun _ ↦ by rfl).bind fun _ ↦ ?_
    refine Step.mirrors_get.bind fun items ↦ ?_
    refine (Step.mirrors_ofExcept (request.apply items.viewport)).bind fun moved ↦ ?_
    exact Step.mirrors_modify fun _ ↦ by rfl

theorem setViewportSize_bare [CrossPlacement M S] (size : Size S)
    (items : Collection M (Tracked Nat V S) S) :
    items.bare.setViewportSize size =
      ((items.setViewportSize size).1.bare, (items.setViewportSize size).2) := by
  have hviewport : items.bare.viewport = items.viewport := rfl
  have haxis : items.bare.axis = items.axis := rfl
  have hcross : items.bare.crossExtent = items.crossExtent := rfl
  simp only [setViewportSize, hviewport, haxis, hcross]
  split
  · split <;> rfl
  · split <;> rfl

variable [ResizableModel M S]

theorem setItemExtent_mirrors (index : Nat) (extent : S) :
    Step.Mirrors bare id (setItemExtent (M := M) (V := Tracked Nat V S) index extent)
      (setItemExtent index extent) :=
  (onViewport_mirrors _).followUp fun _ ↦ rfl

theorem clearItemExtent_bare (index : Nat) (items : Collection M (Tracked Nat V S) S) :
    items.bare.clearItemExtent index =
      ((items.clearItemExtent index).1.bare, (items.clearItemExtent index).2) := by
  have hmodel : items.bare.model = items.model := rfl
  simp only [clearItemExtent, hmodel]
  generalize ResizableModel.clearItemExtent index items.model = edited
  obtain ⟨model, cleared⟩ := edited
  cases cleared <;> rfl

/-! ### The pass -/

theorem syncLength_bare (len : Nat) (items : Collection M (Tracked Nat V S) S) :
    items.bare.syncLength len = ((items.syncLength len).1.bare, (items.syncLength len).2) := by
  have hdue : items.bare.due = items.due := rfl
  have hmodel : items.bare.model = items.model := rfl
  rw [syncLength, syncLength, hdue, hmodel]
  split <;> rfl

theorem approach_mirrors (len : Nat) :
    Step.Mirrors bare id (approach (M := M) (V := Tracked Nat V S) (S := S) len)
      (approach len) := by
  have hsync : Step.Mirrors bare id
      (modifyGet fun items : Collection M (Tracked Nat V S) S ↦ (items.syncLength len).swap)
      (modifyGet fun items ↦ (items.syncLength len).swap) :=
    Step.mirrors_modifyGet fun items ↦ congrArg Prod.swap (syncLength_bare len items)
  refine hsync.bind fun unselected ↦ applyPending_mirrors.bind fun _ ↦ ?_
  refine (Step.mirrors_modify fun _ ↦ by rfl).bind fun _ ↦ ?_
  exact (Step.mirrors_modifyGet fun _ ↦ by rfl).bind fun _ ↦ Step.mirrors_pure rfl

variable [CrossPlacement M S] [ViewHandle H V S]

omit [ResizableModel M S] in
theorem realize_mirrors (source : ItemSource H V) (window : VisibleWindow S) :
    Step.Mirrors (plain (M := M)) id (realize source.journaled window) (realize source window) := by
  refine Step.mirrors_get.bind fun items ↦ ?_
  refine (Hosted.onHeld_mirrors (Step.mirrors_modify fun _ ↦ by rfl)).bind fun _ ↦ ?_
  have hfollow := ViewStock.follow_mirrors (S := S) source.records_views
  refine (onStock_mirrors (hfollow _ _ _ _)).bind fun tally ↦ ?_
  exact (Hosted.onHeld_mirrors (Step.mirrors_modify fun _ ↦ by rfl)).bind fun _ ↦
    Step.mirrors_pure rfl

theorem layout_mirrors (source : ItemSource H V) :
    Step.Mirrors (plain (M := M) (S := S)) id (layout source.journaled) (layout source) := by
  have hprepare : Step.Mirrors (plain (M := M) (S := S)) id (prepare source.journaled)
      (prepare source) := by
    refine (Hosted.onHeld_mirrors (Step.mirrors_modify fun _ ↦ by rfl)).bind fun _ ↦ ?_
    exact (pollLength_mirrors source).bind fun len ↦ Hosted.onHeld_mirrors (approach_mirrors len)
  refine hprepare.bind fun ⟨window, unselected⟩ ↦ ?_
  exact (realize_mirrors source window).bind fun _ ↦ Step.mirrors_pure rfl

/-! ### Calls -/

/-- A pass after an announcement. -/
theorem announced_mirrors
    {announce : Collection M (Tracked Nat V S) S → Collection M (Tracked Nat V S) S}
    {announce' : Collection M V S → Collection M V S}
    (h : ∀ items, announce' items.bare = (announce items).bare) (source : ItemSource H V) :
    Step.Mirrors plain id (do Hosted.onHeld (modify announce); layout source.journaled)
      (do Hosted.onHeld (modify announce'); layout source) :=
  (Hosted.onHeld_mirrors (Step.mirrors_modify h)).bind fun _ ↦ layout_mirrors source

omit [Scalar S] [ExtentModel M S] [ResizableModel M S] [CrossPlacement M S] in
theorem revise_mirrors (source : ItemSource H V) (index : Nat) :
    Step.Mirrors (plain (M := M) (S := S)) id (revise source.journaled index)
      (revise source index) := by
  refine Step.mirrors_get.bind fun items ↦ Step.mirrors_get.bind fun later ↦ ?_
  have hlive : (plain later).held.stock.kindOf? index = later.held.stock.kindOf? index :=
    ViewStock.kindOf?_bare ..
  rw [hlive]
  cases later.held.stock.kindOf? index with
  | none => exact Step.mirrors_pure rfl
  | some live =>
    have hkind : source.kind (plain items).host index =
        source.journaled.kind items.host index := rfl
    simp only [hkind]
    split
    · refine Step.mirrors_get.bind fun selecting ↦ ?_
      exact (onStock_mirrors (ViewStock.refill_mirrors source.records_views index _)).bind fun _ ↦
        Step.mirrors_pure rfl
    · exact Step.mirrors_pure rfl

theorem itemInvalidated_mirrors (source : ItemSource H V) (index : Nat) :
    Step.Mirrors (plain (M := M) (S := S)) id (itemInvalidated source.journaled index)
      (itemInvalidated source index) := by
  refine (revise_mirrors source index).bind fun ⟨live, follows⟩ ↦ ?_
  cases follows with
  | false => exact Step.mirrors_pure rfl
  | true =>
    simp only [id, if_true]
    exact (layout_mirrors source).bind fun _ ↦ Step.mirrors_pure rfl

omit [Scalar S] [ExtentModel M S] [ResizableModel M S] [CrossPlacement M S] in
theorem changeSelection_mirrors
    (change : Selection Nat → Selection Nat × List (Selection.Change Nat)) :
    Step.Mirrors (plain (H := H) (M := M) (V := V) (S := S)) id (changeSelection change)
      (changeSelection change) := by
  have hchanged : Step.Mirrors bare id
      (modifyGet fun items : Collection M (Tracked Nat V S) S ↦
        ((change items.selection).2, { items with selection := (change items.selection).1 }))
      (modifyGet fun items ↦
        ((change items.selection).2, { items with selection := (change items.selection).1 })) :=
    Step.mirrors_modifyGet fun _ ↦ rfl
  refine (Hosted.onHeld_mirrors hchanged).bind fun changes ↦ ?_
  exact (onStock_mirrors (ViewStock.restyle_mirrors changes)).bind fun _ ↦ Step.mirrors_pure rfl

omit [CrossPlacement M S] in
theorem aim_mirrors (source : ItemSource H V) (index : Nat) :
    Step.Mirrors (plain (M := M) (S := S)) id (aim source.journaled index) (aim source index) := by
  refine (pollLength_mirrors source).bind fun len ↦ ?_
  refine (changeSelection_mirrors _).bind fun changes ↦ ?_
  simp only [id]
  split
  · exact Step.mirrors_pure rfl
  · have hdrop : Step.Mirrors bare id
        (modifyGet fun items : Collection M (Tracked Nat V S) S ↦
          if len != ExtentModel.len items.model then (items.adoptLength len).swap else ([], items))
        (modifyGet fun items ↦
          if len != ExtentModel.len items.model then (items.adoptLength len).swap
          else ([], items)) := by
      refine Step.mirrors_modifyGet fun items ↦ ?_
      have hmodel : items.bare.model = items.model := rfl
      rw [hmodel]
      split <;> rfl
    refine (Hosted.onHeld_mirrors hdrop).bind fun dropped ↦ ?_
    exact (Hosted.onHeld_mirrors (requestScroll_mirrors _)).bind fun _ ↦ Step.mirrors_pure rfl

theorem select_mirrors (source : ItemSource H V) (index : Nat) :
    Step.Mirrors (plain (M := M) (S := S)) id (select source.journaled index)
      (select source index) := by
  refine (aim_mirrors source index).bind fun ⟨changes, follows⟩ ↦ ?_
  cases follows with
  | false => exact Step.mirrors_pure rfl
  | true => exact (layout_mirrors source).bind fun _ ↦ Step.mirrors_pure rfl

omit [ExtentModel M S] [ResizableModel M S] [CrossPlacement M S] [ViewHandle H V S] in
theorem destroyAll_bare (items : Collection M (Tracked Nat V S) S) :
    items.bare.destroyAll = (items.destroyAll.1, items.destroyAll.2.bare) := by
  have hcount : items.bare.stock.destroyAll = (items.stock.destroyAll.1, .empty) := by
    rw [ViewStock.destroyAll, bare, ViewStock.liveCount_bare, ViewStock.pooledCount_bare]
    rfl
  rw [destroyAll, hcount]
  rfl

omit [Scalar S] [ExtentModel M S] [ResizableModel M S] [CrossPlacement M S] [ViewHandle H V S] in
/-- A step that changes a collection and answers a flag is the same with a record and without. -/
theorem flagged_mirrors
    {change : Collection M (Tracked Nat V S) S → Collection M (Tracked Nat V S) S × Bool}
    {change' : Collection M V S → Collection M V S × Bool}
    (h : ∀ items, change' items.bare = ((change items).1.bare, (change items).2)) :
    Step.Mirrors (plain (H := H)) id (flagged change) (flagged change') := by
  refine Hosted.onHeld_mirrors (Step.mirrors_modifyGet fun items ↦ ?_)
  rw [h]
  rfl

/-- A recorded call does what the call does. -/
theorem Call.record_mirrors (edit : E → Step M (Reply S)) (source : ItemSource H V)
    (call : Call E H V S) :
    Step.Mirrors plain id (call.record edit source) (call.perform edit source) := by
  have hscroll {step : Step (Collection M (Tracked Nat V S) S) Bool}
      {step' : Step (Collection M V S) Bool} (h : Step.Mirrors bare id step step') :
      Step.Mirrors (plain (H := H)) id (scrolling step) (scrolling step') :=
    (Hosted.onHeld_mirrors h).bind fun _ ↦ Step.mirrors_pure rfl
  cases call with
  | layout => exact (layout_mirrors source).bind fun _ ↦ Step.mirrors_pure rfl
  | refreshAll =>
    exact (announced_mirrors (fun _ ↦ rfl) source).bind fun _ ↦ Step.mirrors_pure rfl
  | lengthChanged =>
    exact (announced_mirrors (fun _ ↦ rfl) source).bind fun _ ↦ Step.mirrors_pure rfl
  | itemInvalidated index =>
    exact (itemInvalidated_mirrors source index).bind fun _ ↦ Step.mirrors_pure rfl
  | select index => exact (select_mirrors source index).bind fun _ ↦ Step.mirrors_pure rfl
  | unselect index => exact (changeSelection_mirrors _).bind fun _ ↦ Step.mirrors_pure rfl
  | unselectAll => exact (changeSelection_mirrors _).bind fun _ ↦ Step.mirrors_pure rfl
  | setSelectionMode mode => exact (changeSelection_mirrors _).bind fun _ ↦ Step.mirrors_pure rfl
  | isSelected index => exact Step.mirrors_get.bind fun _ ↦ Step.mirrors_pure rfl
  | setViewportSize size => exact flagged_mirrors (setViewportSize_bare size)
  | scrollTo offset => exact hscroll (requestScroll_mirrors _)
  | scrollBy delta => exact hscroll (scrollBy_mirrors delta)
  | reveal index => exact hscroll (requestScroll_mirrors _)
  | bring index align => exact hscroll (requestScroll_mirrors _)
  | scrollToStart => exact hscroll (requestScroll_mirrors _)
  | scrollToEnd => exact hscroll (requestScroll_mirrors _)
  | isFullyVisible index =>
    exact Step.mirrors_get.bind fun _ ↦ (Step.mirrors_ofExcept _).bind fun _ ↦ Step.mirrors_pure rfl
  | setItemExtent index extent => exact hscroll (setItemExtent_mirrors index extent)
  | clearItemExtent index => exact flagged_mirrors (clearItemExtent_bare index)
  | model call =>
    exact (Hosted.onHeld_mirrors (onModel_mirrors _)).bind fun _ ↦ Step.mirrors_pure rfl
  | destroyAll =>
    have hdestroyed : Step.Mirrors bare id
        (modifyGet fun items : Collection M (Tracked Nat V S) S ↦
          ((.count items.destroyAll.1 : Answer S), items.destroyAll.2))
        (modifyGet fun items ↦ (.count items.destroyAll.1, items.destroyAll.2)) := by
      refine Step.mirrors_modifyGet fun items ↦ ?_
      rw [destroyAll_bare]
      rfl
    exact Hosted.onHeld_mirrors hdestroyed
  | editView index change =>
    have hedited : Step.Mirrors Slot.plain id
        (modify fun slot : Hosted (Journal H Nat S) (Slot Nat (Tracked Nat V S) S) ↦
          let view := { slot.held.view with view := change slot.held.view.view }
          { slot with held := { slot.held with view } })
        (modify fun slot ↦
          { slot with held := { slot.held with view := change slot.held.view } }) :=
      Step.mirrors_modify fun _ ↦ rfl
    exact (onStock_mirrors (ViewStock.onLive_mirrors index hedited)).bind fun _ ↦
      Step.mirrors_pure rfl
  | host change =>
    exact (Step.mirrors_modify fun _ ↦ by rfl).bind fun _ ↦ Step.mirrors_pure rfl

/-- A recorded run ends with the answers and faults of the run itself, and in its state up to the
record. -/
theorem runAll_record (edit : E → Step M (Reply S)) (source : ItemSource H V)
    (calls : List (Call E H V S))
    (s : Hosted (Journal H Nat S) (Collection M (Tracked Nat V S) S)) :
    Step.runAll (Call.perform edit source) calls (plain s) =
      ((Step.runAll (Call.record edit source) calls s).1,
        plain (Step.runAll (Call.record edit source) calls s).2) :=
  Step.runAll_mirrors (Call.record_mirrors edit source) calls s

/-- A run from a collection as it is built. -/
theorem runAll_recorded (edit : E → Step M (Reply S)) (source : ItemSource H V) (host : H)
    (model : M) (axis : Axis) (mode : SelectionMode) (lookahead : Nat)
    (calls : List (Call E H V S)) :
    (Step.runAll (Call.perform edit source) calls ⟨host, initial model axis mode lookahead⟩).2 =
      plain (Step.runAll (Call.record edit source) calls
        (recorded host model axis mode lookahead)).2 :=
  congrArg Prod.snd (runAll_record edit source calls (recorded host model axis mode lookahead))

/-- One more call after a run from a collection as it is built. -/
theorem after_recorded (edit : E → Step M (Reply S)) (source : ItemSource H V) (host : H)
    (model : M) (axis : Axis) (mode : SelectionMode) (lookahead : Nat)
    (calls : List (Call E H V S)) (call : Call E H V S) :
    (call.perform edit source).after (Step.runAll (Call.perform edit source) calls
        ⟨host, initial model axis mode lookahead⟩).2 =
      plain ((call.record edit source).after (Step.runAll (Call.record edit source) calls
        (recorded host model axis mode lookahead)).2) := by
  rw [runAll_recorded]
  exact (Call.record_mirrors edit source call).after _

end Windowing.Collection
