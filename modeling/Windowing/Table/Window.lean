import Windowing.Host
import Windowing.IndexRange
import Windowing.Selection

/-!
# Windows of a table

The cells that a table has realized are the cross product of a range of rows and a range of
columns.

## Main definitions

* `TableWindow` — the two ranges.
* `TableWindow.cells` — the cells, row by row.
* `TableWindow.leaving` — the cells of one window that are not in another.
-/

namespace Windowing

/-- The cells of a range of rows and a range of columns. -/
structure TableWindow where
  rows : IndexRange
  cols : IndexRange
deriving DecidableEq

/-- The cells of a table are addressed by the rows and columns it has. -/
instance : Bounded CellId (Nat × Nat) where
  inBounds dimensions cell := cell.row < dimensions.1 && cell.col < dimensions.2

namespace TableWindow

/-- The window without cells. -/
def empty : TableWindow :=
  ⟨.empty, .empty⟩

/-- Whether a cell is in the window. -/
def contains (window : TableWindow) (cell : CellId) : Bool :=
  window.rows.contains cell.row && window.cols.contains cell.col

/-- The number of cells in the window. -/
def size (window : TableWindow) : Nat :=
  window.rows.size * window.cols.size

/-- Whether the window has no cells. -/
def isEmpty (window : TableWindow) : Bool :=
  window.rows.isEmpty || window.cols.isEmpty

/-- The cell that comes after `index` others when the window is read row by row. -/
def cellAt (window : TableWindow) (index : Nat) : CellId where
  row := window.rows.start + index / window.cols.size
  col := window.cols.start + index % window.cols.size

/-- The first cells of the window, row by row, at most `count` of them. -/
def takeCells (window : TableWindow) (count : Nat) : List CellId :=
  (List.range (Nat.min count window.size)).map window.cellAt

/-- The cells of the window, row by row. -/
def cells (window : TableWindow) : List CellId :=
  window.takeCells window.size

/-- The cells of `old` that are not in `new`, row by row. -/
def leaving (old new : TableWindow) : List CellId :=
  old.cells.filter fun cell ↦ !new.contains cell

end TableWindow

end Windowing
