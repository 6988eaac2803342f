import Windowing.Extent.Strip
import Windowing.Pass
import Windowing.Table.Window
import Windowing.Viewport.Request

/-!
# Tables

A table scrolls along both axes. Its rows and its columns are strips of their own, each with
a viewport of its own; the cells of the visible rows and the visible columns are backed by
live views. As in a collection, scrolling and edits only record what changed, and a layout
pass polls the source and brings the views up to date.

## Main definitions

* `Table` — two viewports, the views, the selection and the work that is due.
* `Table.layout` — the layout pass.
-/

namespace Windowing

/-- A table with live views for the cells of its window. -/
structure Table (V S : Type) where
  /-- The scroll state over the row heights. -/
  rows : Viewport (Strip S) S
  /-- The scroll state over the column widths. -/
  cols : Viewport (Strip S) S
  /-- The views. -/
  stock : ViewStock CellId V S
  /-- The window that the last completed pass realized. -/
  window : TableWindow
  /-- The selected cells. -/
  selection : Selection CellId
  /-- What the next pass has to do beyond following the window. -/
  due : Due
  /-- The latest request to scroll the rows since the last pass. -/
  pendingRows : Option (ScrollRequest S)
  /-- The latest request to scroll the columns since the last pass. -/
  pendingCols : Option (ScrollRequest S)
  /-- Whether a pass has begun and not ended. -/
  passOpen : Bool

namespace Table

variable {H V S : Type} [Scalar S] [ViewHandle H V S]

/-! ### Construction -/

/-- A table with the given row heights and column widths, and an empty viewport. -/
def ofModels (rows cols : Strip S) : Table V S where
  rows := .ofModel rows Scalar.zero
  cols := .ofModel cols Scalar.zero
  stock := .empty
  window := .empty
  selection := .ofMode default
  due := { length := true }
  pendingRows := none
  pendingCols := none
  passOpen := false

/-- The table with an empty selection of the given mode. -/
def withSelectionMode (mode : SelectionMode) (table : Table V S) : Table V S :=
  { table with selection := .ofMode mode }

/-- The table with the given number of look-ahead rows and columns. -/
def withLookahead (lookahead : Nat) (table : Table V S) : Table V S :=
  { table with
    rows := table.rows.setLookahead lookahead
    cols := table.cols.setLookahead lookahead }

/-! ### Queries -/

/-- The numbers of rows and columns of the models. -/
def dimensions (table : Table V S) : Nat × Nat :=
  (table.rows.model.len, table.cols.model.len)

/-- How far the table is scrolled along both axes. -/
def offset (table : Table V S) : Point S :=
  ⟨table.cols.offset, table.rows.offset⟩

/-- The size of the viewport. -/
def viewportSize (table : Table V S) : Size S :=
  ⟨table.cols.extent, table.rows.extent⟩

/-- The live views of the window, row by row. -/
def views (table : Table V S) : List (CellId × V) :=
  table.window.cells.filterMap fun cell ↦
    (table.stock.view? cell).map fun view ↦ (cell, view)

/-- The rectangle that a cell goes to, in the coordinates of the viewport. -/
def placement (table : Table V S) (cell : CellId) : Rect S :=
  .ofOrigin ⟨table.cols.positionOf cell.col, table.rows.positionOf cell.row⟩
    (table.cols.model.extentOf cell.col) (table.rows.model.extentOf cell.row)

/-! ### Scrolling and resizing -/

/-- Resizes the viewport; answers whether it changed. -/
def setViewportSize (size : Size S) (table : Table V S) : Table V S × Bool :=
  let offset := table.offset
  let (rows, rowsResized) := table.rows.resize size.height
  let (cols, colsResized) := table.cols.resize size.width
  if rowsResized || colsResized then
    ({ table with
        rows, cols
        pendingRows := some (table.pendingRows.getD (.offset offset.y))
        pendingCols := some (table.pendingCols.getD (.offset offset.x))
        due := { table.due with place := true } }, true)
  else
    (table, false)

/-- Records a request to scroll the rows and applies it; answers whether they moved. -/
def scrollRows (request : ScrollRequest S) : Step (Table V S) Bool := do
  modify fun table ↦ { table with pendingRows := some request }
  let (rows, moved) ← Step.ofExcept (request.apply (← get).rows)
  modify fun table ↦ { table with rows }
  return moved

/-- Records a request to scroll the columns and applies it; answers whether they moved. -/
def scrollCols (request : ScrollRequest S) : Step (Table V S) Bool := do
  modify fun table ↦ { table with pendingCols := some request }
  let (cols, moved) ← Step.ofExcept (request.apply (← get).cols)
  modify fun table ↦ { table with cols }
  return moved

/-- Scrolls along both axes; answers whether the table moved along one of them. -/
def scrollBoth (rowRequest colRequest : ScrollRequest S) : Step (Table V S) Bool := do
  let rowsMoved ← scrollRows rowRequest
  let colsMoved ← scrollCols colRequest
  return rowsMoved || colsMoved

/-- Scrolls just enough to show a cell in full; answers whether the table moved. -/
def reveal (cell : CellId) : Step (Table V S) Bool :=
  scrollBoth (.item cell.row .nearest) (.item cell.col .nearest)

/-- Pulls both viewports back where they reach past the content. -/
def clampScroll (table : Table V S) : Table V S :=
  { table with rows := table.rows.clamp.1, cols := table.cols.clamp.1 }

/-- Gives a row a height of its own; answers whether the row exists. -/
def setRowHeight (row : Nat) (height : S) : Step (Table V S) Bool := do
  let applied ← Step.within rows (fun rows table ↦ { table with rows })
    (Viewport.onModel (Strip.setOverride row height))
  if applied then
    modify fun table ↦ { table with rows := table.rows.clamp.1 }
  return applied

/-- Gives a column a width of its own; answers whether the column exists. -/
def setColumnWidth (col : Nat) (width : S) : Step (Table V S) Bool := do
  let applied ← Step.within cols (fun cols table ↦ { table with cols })
    (Viewport.onModel (Strip.setOverride col width))
  if applied then
    modify fun table ↦ { table with cols := table.cols.clamp.1 }
  return applied

/-! ### Parts of a pass -/

/-- Begins a pass. Where the last one was cut short, all views are to be bound again. -/
def openPass (table : Table V S) : Table V S :=
  { table with
    passOpen := true
    due := if table.passOpen then table.due.refresh else table.due }

/-- Takes over the dimensions of the source: heights, widths and selections past the ends are
dropped, and all views are to be bound again. -/
def adoptDimensions (dimensions : Nat × Nat) (table : Table V S) :
    Table V S × List (Selection.Change CellId) :=
  let rows := (table.rows.withModel (table.rows.model.setLen dimensions.1)).clamp.1
  let cols := (table.cols.withModel (table.cols.model.setLen dimensions.2)).clamp.1
  let (selection, dropped) := table.selection.retain (Bounded.inBounds dimensions)
  ({ table with rows, cols, selection, due := table.due.refresh }, dropped)

/-- Takes over the dimensions of the source where they differ from the models', or where they
are to be taken as changed. -/
def syncDimensions (dimensions : Nat × Nat) (table : Table V S) :
    Table V S × List (Selection.Change CellId) :=
  if table.due.length || dimensions != table.dimensions then table.adoptDimensions dimensions
  else (table, [])

/-- Applies the pending request to scroll the rows once more. -/
def applyPendingRows : Step (Table V S) Unit := do
  match (← get).pendingRows with
  | none => return ()
  | some request =>
    modify fun table ↦ { table with pendingRows := none }
    let (rows, _) ← Step.ofExcept (request.apply (← get).rows)
    modify fun table ↦ { table with rows }

/-- Applies the pending request to scroll the columns once more. -/
def applyPendingCols : Step (Table V S) Unit := do
  match (← get).pendingCols with
  | none => return ()
  | some request =>
    modify fun table ↦ { table with pendingCols := none }
    let (cols, _) ← Step.ofExcept (request.apply (← get).cols)
    modify fun table ↦ { table with cols }

/-- The visible window along both axes, kept or found anew. -/
def takeWindow (table : Table V S) : TableWindow × Table V S :=
  let (rowWindow, rows) := table.rows.window
  let (colWindow, cols) := table.cols.window
  (⟨rowWindow.toIndexRange, colWindow.toIndexRange⟩, { table with rows, cols })

/-- The part of a pass that only concerns scrolling, once the source has said how many rows
and columns there are. Answers the window and the selections dropped. -/
def approach (dimensions : Nat × Nat) :
    Step (Table V S) (TableWindow × List (Selection.Change CellId)) := do
  let unselected ← modifyGet fun table ↦ (table.syncDimensions dimensions).swap
  applyPendingRows
  applyPendingCols
  modify clampScroll
  let window ← modifyGet takeWindow
  return (window, unselected)

/-- What a pass wants of each cell, given the work that is due. -/
def layoutFor (table : Table V S) (due : Due) : Layout CellId S where
  rect cell := .ok (table.placement cell)
  selected := table.selection.isSelected
  rebind := due.rebind
  force := due.place

/-- A step on the views of a table, and on its host. -/
def onStock {α : Type} (step : Step (Hosted H (ViewStock CellId V S)) α) :
    Step (Hosted H (Table V S)) α :=
  Hosted.onPart stock (fun stock table ↦ { table with stock }) step

/-- The part of a pass that works on views: they are brought in line with a window. The work
that was due is taken as done when this part begins, and the pass ends with it. -/
def realize (source : TableSource H V) (window : TableWindow) :
    Step (Hosted H (Table V S)) Tally := do
  let table := (← get).held
  Hosted.onHeld (modify fun table ↦ { table with due := {} })
  let tally ← onStock <|
    ViewStock.follow source.views (table.layoutFor table.due) (table.window.leaving window)
      window.cells window.contains
  Hosted.onHeld (modify fun table ↦ { table with window, passOpen := false })
  return tally

/-- Polls the dimensions of the source. -/
def pollDimensions (source : TableSource H V) : Step (Hosted H (Table V S)) (Nat × Nat) :=
  Hosted.onHost (modifyGet source.dimensions)

/-! ### The pass -/

/-- The part of a pass before it works on views: it polls the dimensions of the source and finds
the window. Answers the window and the selections dropped. -/
def prepare (source : TableSource H V) :
    Step (Hosted H (Table V S)) (TableWindow × List (Selection.Change CellId)) := do
  Hosted.onHeld (modify openPass)
  let dimensions ← pollDimensions source
  Hosted.onHeld (approach dimensions)

/-- The layout pass. It polls the dimensions of the source, finds the window and brings the
live views in line with it. -/
def layout (source : TableSource H V) :
    Step (Hosted H (Table V S)) (Pass TableWindow CellId) := do
  let (window, unselected) ← prepare source
  let tally ← realize source window
  return { tally with window, unselected }

/-! ### Changes of the data -/

/-- Has the next pass take the dimensions as changed even if they look the same. -/
def announceDimensions (table : Table V S) : Table V S :=
  { table with due := { table.due with length := true } }

/-- Has the next pass bind and place all views again. -/
def announceRefresh (table : Table V S) : Table V S :=
  { table with due := table.due.refresh }

/-- The pass after an announced change of the dimensions. -/
def dimensionsChanged (source : TableSource H V) :
    Step (Hosted H (Table V S)) (Pass TableWindow CellId) := do
  Hosted.onHeld (modify announceDimensions)
  layout source

/-- The pass after a change of all cells' presentation. -/
def refreshAll (source : TableSource H V) :
    Step (Hosted H (Table V S)) (Pass TableWindow CellId) := do
  Hosted.onHeld (modify announceRefresh)
  layout source

/-- Binds the view of one cell again; answers whether it has one. -/
def cellInvalidated (source : TableSource H V) (cell : CellId) :
    Step (Hosted H (Table V S)) Bool := do
  let selected := (← get).held.selection.isSelected cell
  onStock (ViewStock.refill source.views cell selected)

/-! ### Selection -/

/-- Makes a change of the selection, and styles the live views that it is about. -/
def changeSelection
    (change : Selection CellId → Selection CellId × List (Selection.Change CellId)) :
    Step (Hosted H (Table V S)) (List (Selection.Change CellId)) := do
  let changes ← Hosted.onHeld <| modifyGet fun table ↦
    let (selection, changes) := change table.selection
    (changes, { table with selection })
  onStock (ViewStock.restyle changes)
  return changes

/-- The part of selecting a cell before the pass: the cell is selected and scrolled into view. A
cell that does not exist or is selected already is ignored. Answers the changes, and whether a
pass is to follow. -/
def aim (source : TableSource H V) (cell : CellId) :
    Step (Hosted H (Table V S)) (List (Selection.Change CellId) × Bool) := do
  let dimensions ← pollDimensions source
  let changes ← changeSelection (Selection.select (Bounded.inBounds dimensions) cell)
  if changes.isEmpty then
    return (changes, false)
  let dropped ← Hosted.onHeld <| modifyGet fun table ↦
    if dimensions != table.dimensions then (table.adoptDimensions dimensions).swap
    else ([], table)
  let _ ← Hosted.onHeld (reveal cell)
  return (changes ++ dropped, true)

/-- Selects a cell, scrolls it into view and runs a pass, unless the cell is ignored. -/
def select (source : TableSource H V) (cell : CellId) :
    Step (Hosted H (Table V S)) (List (Selection.Change CellId)) := do
  let (changes, follows) ← aim source cell
  if follows then
    let pass ← layout source
    return changes ++ pass.unselected
  else
    return changes

/-- Drops every view; answers how many there were. The next pass builds views anew. -/
def destroyAll (table : Table V S) : Nat × Table V S :=
  let (count, stock) := table.stock.destroyAll
  (count, { table with stock, window := .empty })

end Table

end Windowing
