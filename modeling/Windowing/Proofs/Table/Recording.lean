import Windowing.Proofs.Recording
import Windowing.Proofs.Table.Runs

/-!
# Recorded runs of tables are runs

A run of calls on a table that is recorded ends with the same answers and faults as the run itself,
and in the same state up to the record.

## Main definitions

* `Table.plain` — a table and its host without the record.

## Main results

* `Table.Call.record_mirrors` — a recorded call does what the call does.
* `Table.runAll_record` — a recorded run does what the run does.
-/

namespace Windowing.Table

variable {H V S : Type}

/-- The table without what was recorded of its views. -/
def bare (table : Table (Tracked CellId V S) S) : Table V S :=
  { table with stock := table.stock.bare }

/-- The table and its host without the record. -/
def plain (table : Hosted (Journal H CellId S) (Table (Tracked CellId V S) S)) :
    Hosted H (Table V S) :=
  Hosted.shown Journal.host bare table

/-! ### Steps on parts -/

theorem onStock_mirrors {α : Type}
    {step : Step (Hosted (Journal H CellId S) (ViewStock CellId (Tracked CellId V S) S)) α}
    {step' : Step (Hosted H (ViewStock CellId V S)) α}
    (h : Step.Mirrors ViewStock.plain id step step') :
    Step.Mirrors plain id (onStock step) (onStock step') :=
  Hosted.onPart_mirrors h (fun _ ↦ rfl) fun _ _ ↦ rfl

theorem pollDimensions_mirrors (source : TableSource H V) :
    Step.Mirrors (plain (S := S)) id (pollDimensions source.journaled) (pollDimensions source) :=
  Hosted.onHost_mirrors (Step.mirrors_modifyGet fun _ ↦ rfl)

/-! ### Scrolling and resizing -/

variable [Scalar S]

theorem scrollRows_mirrors (request : ScrollRequest S) :
    Step.Mirrors bare id (scrollRows (V := Tracked CellId V S) request) (scrollRows request) := by
  refine (Step.mirrors_modify fun _ ↦ by rfl).bind fun _ ↦ ?_
  refine Step.mirrors_get.bind fun table ↦ ?_
  refine (Step.mirrors_ofExcept (request.apply table.rows)).bind fun moved ↦ ?_
  exact (Step.mirrors_modify fun _ ↦ by rfl).bind fun _ ↦ Step.mirrors_pure rfl

theorem scrollCols_mirrors (request : ScrollRequest S) :
    Step.Mirrors bare id (scrollCols (V := Tracked CellId V S) request) (scrollCols request) := by
  refine (Step.mirrors_modify fun _ ↦ by rfl).bind fun _ ↦ ?_
  refine Step.mirrors_get.bind fun table ↦ ?_
  refine (Step.mirrors_ofExcept (request.apply table.cols)).bind fun moved ↦ ?_
  exact (Step.mirrors_modify fun _ ↦ by rfl).bind fun _ ↦ Step.mirrors_pure rfl

theorem scrollBoth_mirrors (rowRequest colRequest : ScrollRequest S) :
    Step.Mirrors bare id (scrollBoth (V := Tracked CellId V S) rowRequest colRequest)
      (scrollBoth rowRequest colRequest) :=
  (scrollRows_mirrors rowRequest).bind fun _ ↦ (scrollCols_mirrors colRequest).bind fun _ ↦
    Step.mirrors_pure rfl

theorem applyPendingRows_mirrors :
    Step.Mirrors bare id (applyPendingRows (V := Tracked CellId V S) (S := S))
      applyPendingRows := by
  refine Step.mirrors_get.bind fun table ↦ ?_
  have hpending : table.bare.pendingRows = table.pendingRows := rfl
  rw [hpending]
  cases table.pendingRows with
  | none => exact Step.mirrors_pure rfl
  | some request =>
    refine (Step.mirrors_modify fun _ ↦ by rfl).bind fun _ ↦ Step.mirrors_get.bind fun table ↦ ?_
    refine (Step.mirrors_ofExcept (request.apply table.rows)).bind fun moved ↦ ?_
    exact Step.mirrors_modify fun _ ↦ by rfl

theorem applyPendingCols_mirrors :
    Step.Mirrors bare id (applyPendingCols (V := Tracked CellId V S) (S := S))
      applyPendingCols := by
  refine Step.mirrors_get.bind fun table ↦ ?_
  have hpending : table.bare.pendingCols = table.pendingCols := rfl
  rw [hpending]
  cases table.pendingCols with
  | none => exact Step.mirrors_pure rfl
  | some request =>
    refine (Step.mirrors_modify fun _ ↦ by rfl).bind fun _ ↦ Step.mirrors_get.bind fun table ↦ ?_
    refine (Step.mirrors_ofExcept (request.apply table.cols)).bind fun moved ↦ ?_
    exact Step.mirrors_modify fun _ ↦ by rfl

theorem setRowHeight_mirrors (row : Nat) (height : S) :
    Step.Mirrors bare id (setRowHeight (V := Tracked CellId V S) row height)
      (setRowHeight row height) := by
  have hset : Step.Mirrors (bare (V := V)) id
      (Step.within rows (fun rows table ↦ { table with rows })
        (Viewport.onModel (Strip.setOverride row height)))
      (Step.within rows (fun rows table ↦ { table with rows })
        (Viewport.onModel (Strip.setOverride row height))) :=
    (Step.mirrors_refl _).within (fun _ ↦ rfl) fun _ _ ↦ rfl
  exact hset.followUp fun _ ↦ rfl

theorem setColumnWidth_mirrors (col : Nat) (width : S) :
    Step.Mirrors bare id (setColumnWidth (V := Tracked CellId V S) col width)
      (setColumnWidth col width) := by
  have hset : Step.Mirrors (bare (V := V)) id
      (Step.within cols (fun cols table ↦ { table with cols })
        (Viewport.onModel (Strip.setOverride col width)))
      (Step.within cols (fun cols table ↦ { table with cols })
        (Viewport.onModel (Strip.setOverride col width))) :=
    (Step.mirrors_refl _).within (fun _ ↦ rfl) fun _ _ ↦ rfl
  exact hset.followUp fun _ ↦ rfl

theorem setViewportSize_bare (size : Size S) (table : Table (Tracked CellId V S) S) :
    table.bare.setViewportSize size =
      ((table.setViewportSize size).1.bare, (table.setViewportSize size).2) := by
  have hrows : table.bare.rows = table.rows := rfl
  have hcols : table.bare.cols = table.cols := rfl
  have hoffset : table.bare.offset = table.offset := rfl
  simp only [setViewportSize, hrows, hcols, hoffset]
  split <;> rfl

/-! ### The pass -/

theorem syncDimensions_bare (dimensions : Nat × Nat) (table : Table (Tracked CellId V S) S) :
    table.bare.syncDimensions dimensions =
      ((table.syncDimensions dimensions).1.bare, (table.syncDimensions dimensions).2) := by
  have hdue : table.bare.due = table.due := rfl
  have hdimensions : table.bare.dimensions = table.dimensions := rfl
  rw [syncDimensions, syncDimensions, hdue, hdimensions]
  split <;> rfl

theorem approach_mirrors (dimensions : Nat × Nat) :
    Step.Mirrors bare id (approach (V := Tracked CellId V S) (S := S) dimensions)
      (approach dimensions) := by
  have hsync : Step.Mirrors bare id
      (modifyGet fun table : Table (Tracked CellId V S) S ↦ (table.syncDimensions dimensions).swap)
      (modifyGet fun table ↦ (table.syncDimensions dimensions).swap) :=
    Step.mirrors_modifyGet fun table ↦ congrArg Prod.swap (syncDimensions_bare dimensions table)
  refine hsync.bind fun unselected ↦ applyPendingRows_mirrors.bind fun _ ↦ ?_
  refine applyPendingCols_mirrors.bind fun _ ↦ (Step.mirrors_modify fun _ ↦ by rfl).bind fun _ ↦ ?_
  exact (Step.mirrors_modifyGet fun _ ↦ by rfl).bind fun _ ↦ Step.mirrors_pure rfl

variable [ViewHandle H V S]

theorem realize_mirrors (source : TableSource H V) (window : TableWindow) :
    Step.Mirrors plain id (realize source.journaled window) (realize source window) := by
  refine Step.mirrors_get.bind fun table ↦ ?_
  refine (Hosted.onHeld_mirrors (Step.mirrors_modify fun _ ↦ by rfl)).bind fun _ ↦ ?_
  have hfollow := ViewStock.follow_mirrors (S := S) source.records_views
  refine (onStock_mirrors (hfollow _ _ _ _)).bind fun tally ↦ ?_
  exact (Hosted.onHeld_mirrors (Step.mirrors_modify fun _ ↦ by rfl)).bind fun _ ↦
    Step.mirrors_pure rfl

theorem layout_mirrors (source : TableSource H V) :
    Step.Mirrors (plain (S := S)) id (layout source.journaled) (layout source) := by
  have hprepare : Step.Mirrors (plain (S := S)) id (prepare source.journaled) (prepare source) := by
    refine (Hosted.onHeld_mirrors (Step.mirrors_modify fun _ ↦ by rfl)).bind fun _ ↦ ?_
    exact (pollDimensions_mirrors source).bind fun dimensions ↦
      Hosted.onHeld_mirrors (approach_mirrors dimensions)
  refine hprepare.bind fun ⟨window, unselected⟩ ↦ ?_
  exact (realize_mirrors source window).bind fun _ ↦ Step.mirrors_pure rfl

/-! ### Calls -/

/-- A pass after an announcement. -/
theorem announced_mirrors {announce : Table (Tracked CellId V S) S → Table (Tracked CellId V S) S}
    {announce' : Table V S → Table V S} (h : ∀ table, announce' table.bare = (announce table).bare)
    (source : TableSource H V) :
    Step.Mirrors plain id (do Hosted.onHeld (modify announce); layout source.journaled)
      (do Hosted.onHeld (modify announce'); layout source) :=
  (Hosted.onHeld_mirrors (Step.mirrors_modify h)).bind fun _ ↦ layout_mirrors source

omit [Scalar S] in
theorem cellInvalidated_mirrors (source : TableSource H V) (cell : CellId) :
    Step.Mirrors (plain (S := S)) id (cellInvalidated source.journaled cell)
      (cellInvalidated source cell) :=
  Step.mirrors_get.bind fun _ ↦
    onStock_mirrors (ViewStock.refill_mirrors source.records_views cell _)

omit [Scalar S] in
theorem changeSelection_mirrors
    (change : Selection CellId → Selection CellId × List (Selection.Change CellId)) :
    Step.Mirrors (plain (H := H) (V := V) (S := S)) id (changeSelection change)
      (changeSelection change) := by
  have hchanged : Step.Mirrors bare id
      (modifyGet fun table : Table (Tracked CellId V S) S ↦
        ((change table.selection).2, { table with selection := (change table.selection).1 }))
      (modifyGet fun table ↦
        ((change table.selection).2, { table with selection := (change table.selection).1 })) :=
    Step.mirrors_modifyGet fun _ ↦ rfl
  refine (Hosted.onHeld_mirrors hchanged).bind fun changes ↦ ?_
  exact (onStock_mirrors (ViewStock.restyle_mirrors changes)).bind fun _ ↦ Step.mirrors_pure rfl

theorem aim_mirrors (source : TableSource H V) (cell : CellId) :
    Step.Mirrors (plain (S := S)) id (aim source.journaled cell) (aim source cell) := by
  refine (pollDimensions_mirrors source).bind fun dimensions ↦ ?_
  refine (changeSelection_mirrors _).bind fun changes ↦ ?_
  simp only [id]
  split
  · exact Step.mirrors_pure rfl
  · have hdrop : Step.Mirrors bare id
        (modifyGet fun table : Table (Tracked CellId V S) S ↦
          if dimensions != table.dimensions then (table.adoptDimensions dimensions).swap
          else ([], table))
        (modifyGet fun table ↦
          if dimensions != table.dimensions then (table.adoptDimensions dimensions).swap
          else ([], table)) := by
      refine Step.mirrors_modifyGet fun table ↦ ?_
      have hdimensions : table.bare.dimensions = table.dimensions := rfl
      rw [hdimensions]
      split <;> rfl
    refine (Hosted.onHeld_mirrors hdrop).bind fun dropped ↦ ?_
    exact (Hosted.onHeld_mirrors (scrollBoth_mirrors _ _)).bind fun _ ↦ Step.mirrors_pure rfl

theorem select_mirrors (source : TableSource H V) (cell : CellId) :
    Step.Mirrors (plain (S := S)) id (select source.journaled cell) (select source cell) := by
  refine (aim_mirrors source cell).bind fun ⟨changes, follows⟩ ↦ ?_
  cases follows with
  | false => exact Step.mirrors_pure rfl
  | true => exact (layout_mirrors source).bind fun _ ↦ Step.mirrors_pure rfl

omit [Scalar S] [ViewHandle H V S] in
theorem destroyAll_bare (table : Table (Tracked CellId V S) S) :
    table.bare.destroyAll = (table.destroyAll.1, table.destroyAll.2.bare) := by
  have hcount : table.bare.stock.destroyAll = (table.stock.destroyAll.1, .empty) := by
    rw [ViewStock.destroyAll, bare, ViewStock.liveCount_bare, ViewStock.pooledCount_bare]
    rfl
  rw [destroyAll, hcount]
  rfl

/-- A recorded call does what the call does. -/
theorem Call.record_mirrors (source : TableSource H V) (call : Call H S) :
    Step.Mirrors plain id (call.record source) (call.perform source) := by
  have hflagged {step : Step (Table (Tracked CellId V S) S) Bool} {step' : Step (Table V S) Bool}
      (h : Step.Mirrors bare id step step') :
      Step.Mirrors (plain (H := H)) id (flagged step) (flagged step') :=
    (Hosted.onHeld_mirrors h).bind fun _ ↦ Step.mirrors_pure rfl
  cases call with
  | layout => exact (layout_mirrors source).bind fun _ ↦ Step.mirrors_pure rfl
  | refreshAll =>
    exact (announced_mirrors (fun _ ↦ rfl) source).bind fun _ ↦ Step.mirrors_pure rfl
  | dimensionsChanged =>
    exact (announced_mirrors (fun _ ↦ rfl) source).bind fun _ ↦ Step.mirrors_pure rfl
  | cellInvalidated cell =>
    exact (cellInvalidated_mirrors source cell).bind fun _ ↦ Step.mirrors_pure rfl
  | select cell => exact (select_mirrors source cell).bind fun _ ↦ Step.mirrors_pure rfl
  | unselect cell => exact (changeSelection_mirrors _).bind fun _ ↦ Step.mirrors_pure rfl
  | unselectAll => exact (changeSelection_mirrors _).bind fun _ ↦ Step.mirrors_pure rfl
  | isSelected cell => exact Step.mirrors_get.bind fun _ ↦ Step.mirrors_pure rfl
  | setViewportSize size =>
    exact hflagged (Step.mirrors_modifyGet fun table ↦
      congrArg Prod.swap (setViewportSize_bare size table))
  | scrollTo offset => exact hflagged (scrollBoth_mirrors _ _)
  | reveal cell => exact hflagged (scrollBoth_mirrors _ _)
  | scrollToTop => exact hflagged (scrollRows_mirrors _)
  | scrollToBottom => exact hflagged (scrollRows_mirrors _)
  | scrollToLeading => exact hflagged (scrollCols_mirrors _)
  | scrollToTrailing => exact hflagged (scrollCols_mirrors _)
  | setRowHeight row height => exact hflagged (setRowHeight_mirrors row height)
  | setColumnWidth col width => exact hflagged (setColumnWidth_mirrors col width)
  | destroyAll =>
    have hdestroyed : Step.Mirrors bare id
        (modifyGet fun table : Table (Tracked CellId V S) S ↦
          (Answer.count table.destroyAll.1, table.destroyAll.2))
        (modifyGet fun table ↦ (.count table.destroyAll.1, table.destroyAll.2)) := by
      refine Step.mirrors_modifyGet fun table ↦ ?_
      rw [destroyAll_bare]
      rfl
    exact Hosted.onHeld_mirrors hdestroyed
  | host change =>
    exact (Step.mirrors_modify fun _ ↦ by rfl).bind fun _ ↦ Step.mirrors_pure rfl

/-- A recorded run ends with the answers and faults of the run itself, and in its state up to the
record. -/
theorem runAll_record (source : TableSource H V) (calls : List (Call H S))
    (s : Hosted (Journal H CellId S) (Table (Tracked CellId V S) S)) :
    Step.runAll (Call.perform source) calls (plain s) =
      ((Step.runAll (Call.record source) calls s).1,
        plain (Step.runAll (Call.record source) calls s).2) :=
  Step.runAll_mirrors (Call.record_mirrors source) calls s

/-- A run from a table as it is built. -/
theorem runAll_recorded (source : TableSource H V) (host : H) (rows cols : Strip S)
    (mode : SelectionMode) (lookahead : Nat) (calls : List (Call H S)) :
    (Step.runAll (Call.perform source) calls ⟨host, initial rows cols mode lookahead⟩).2 =
      plain (Step.runAll (Call.record source) calls (recorded host rows cols mode lookahead)).2 :=
  congrArg Prod.snd (runAll_record source calls (recorded host rows cols mode lookahead))

/-- One more call after a run from a table as it is built. -/
theorem after_recorded (source : TableSource H V) (host : H) (rows cols : Strip S)
    (mode : SelectionMode) (lookahead : Nat) (calls : List (Call H S)) (call : Call H S) :
    (call.perform source).after (Step.runAll (Call.perform source) calls
        ⟨host, initial rows cols mode lookahead⟩).2 =
      plain ((call.record source).after (Step.runAll (Call.record source) calls
        (recorded host rows cols mode lookahead)).2) := by
  rw [runAll_recorded]
  exact (Call.record_mirrors source call).after _

end Windowing.Table
