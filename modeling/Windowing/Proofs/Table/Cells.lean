import Windowing.Table.Window

/-!
# Cells of a table window

The cells of a window are numbered row by row, and the number of a cell says its row and its
column. Listing the cells by their numbers is going through the rows and, in each of them, through
the columns. So the list of cells holds exactly the cells that are in both ranges, each of them
once and in the order in which they are read, and it is as long as the window is large.

## Main definitions

* `CellId.Precedes` — the order in which cells are read row by row.

## Main results

* `TableWindow.cells_eq_flatMap` — the cells are those of one row after another.
* `TableWindow.mem_cells_iff`, `TableWindow.nodup_cells` — the cells of a window.
* `TableWindow.mem_leaving_iff` — the cells that leave it.
* `TableWindow.descriptions_agree` — the list of cells against membership, size and emptiness.
-/

namespace Windowing

/-- The cell comes before the other one when cells are read row by row. -/
def CellId.Precedes (cell other : CellId) : Prop :=
  cell.row < other.row ∨ cell.row = other.row ∧ cell.col < other.col

theorem CellId.Precedes.ne {cell other : CellId} (h : cell.Precedes other) : cell ≠ other := by
  rintro rfl
  rcases h with hrow | ⟨-, hcol⟩
  · exact Nat.lt_irrefl _ hrow
  · exact Nat.lt_irrefl _ hcol

namespace TableWindow

variable {window old new : TableWindow} {cell : CellId}

theorem contains_iff : window.contains cell = true ↔
    (window.rows.start ≤ cell.row ∧ cell.row < window.rows.stop) ∧
      window.cols.start ≤ cell.col ∧ cell.col < window.cols.stop := by
  rw [contains, Bool.and_eq_true, IndexRange.contains_iff, IndexRange.contains_iff]

/-! ### Numbers of cells -/

theorem cells_eq (window : TableWindow) :
    window.cells = (List.range window.size).map window.cellAt := by
  rw [cells, takeCells]
  exact congrArg (fun count ↦ (List.range count).map window.cellAt) (Nat.min_self _)

theorem length_cells (window : TableWindow) : window.cells.length = window.size := by
  rw [cells_eq, List.length_map, List.length_range]

/-- Behind so many whole rows, the next numbers are those of one more row. -/
theorem cellAt_mul_add {row col : Nat} (hcol : col < window.cols.size) :
    window.cellAt (row * window.cols.size + col) =
      ⟨window.rows.start + row, window.cols.start + col⟩ := by
  have hpos : 0 < window.cols.size := Nat.zero_lt_of_lt hcol
  rw [cellAt, Nat.mul_comm, Nat.mul_add_div hpos, Nat.div_eq_of_lt hcol, Nat.mul_add_mod,
    Nat.mod_eq_of_lt hcol, Nat.add_zero]

/-- The numbers of some whole rows list the cells of these rows, one row after another. -/
theorem map_cellAt_range (window : TableWindow) (rows : Nat) :
    (List.range (rows * window.cols.size)).map window.cellAt =
      (List.range' window.rows.start rows).flatMap fun row ↦
        window.cols.toList.map (CellId.mk row) := by
  induction rows with
  | zero => rw [Nat.zero_mul]; rfl
  | succ rows ih =>
    rw [Nat.succ_mul, List.range_add, List.map_append, ih, List.range'_1_concat,
      List.flatMap_append, List.flatMap_singleton, IndexRange.toList, List.range'_eq_map_range,
      List.map_map, List.map_map]
    refine congrArg _ (List.map_congr_left fun col hcol ↦ ?_)
    exact cellAt_mul_add (List.mem_range.mp hcol)

/-- The cells of a window are those of its first row, then those of the next one, and so on. -/
theorem cells_eq_flatMap (window : TableWindow) :
    window.cells = window.rows.toList.flatMap fun row ↦ window.cols.toList.map (CellId.mk row) :=
  (cells_eq window).trans (map_cellAt_range window window.rows.size)

/-! ### The list of cells -/

/-- The cells of a window are those in both of its ranges. -/
theorem mem_cells_iff : cell ∈ window.cells ↔ window.contains cell = true := by
  obtain ⟨row, col⟩ := cell
  simp [cells_eq_flatMap, contains_iff]

/-- Cells are listed in the order in which they are read. -/
theorem pairwise_cells (window : TableWindow) : window.cells.Pairwise CellId.Precedes := by
  rw [cells_eq_flatMap, List.pairwise_flatMap]
  refine ⟨fun row _ ↦ ?sameRow, window.rows.pairwise_toList.imp fun hrows ↦ ?laterRow⟩
  case sameRow =>
    exact List.pairwise_map.mpr (window.cols.pairwise_toList.imp fun hcols ↦ .inr ⟨rfl, hcols⟩)
  case laterRow =>
    rintro cell hcell other hother
    obtain ⟨col, -, rfl⟩ := List.mem_map.mp hcell
    obtain ⟨col', -, rfl⟩ := List.mem_map.mp hother
    exact .inl hrows

/-- No cell is listed twice. -/
theorem nodup_cells (window : TableWindow) : window.cells.Nodup :=
  (pairwise_cells window).imp CellId.Precedes.ne

/-- A window without cells is one of which some range holds nothing. -/
theorem isEmpty_iff : window.isEmpty = true ↔ window.cells = [] := by
  rw [← List.length_eq_zero_iff, length_cells, size, Nat.mul_eq_zero, isEmpty, Bool.or_eq_true,
    IndexRange.isEmpty_iff_size_eq_zero, IndexRange.isEmpty_iff_size_eq_zero]

/-! ### Cells that leave -/

/-- The cells that leave are those of the old window that are not in the new one. -/
theorem mem_leaving_iff : cell ∈ leaving old new ↔
    old.contains cell = true ∧ new.contains cell = false := by
  rw [leaving, List.mem_filter, mem_cells_iff, Bool.not_eq_true']

theorem not_mem_cells_of_mem_leaving (h : cell ∈ leaving old new) : cell ∉ new.cells := by
  rw [mem_cells_iff, (mem_leaving_iff.mp h).2]
  exact Bool.false_ne_true

/-! ### The descriptions of a window -/

/-- Whatever the two ranges of a window, also where one holds nothing or stops before it starts:
the cells are those that going through the rows, and in each of them through the columns, comes to;
each is listed before all those that are read after it and none of them twice; the listed cells are
the ones in the window; the window is as large as the list is long; and it is empty exactly when no
cell is listed. -/
theorem descriptions_agree (window : TableWindow) :
    (window.cells = window.rows.toList.flatMap fun row ↦ window.cols.toList.map (CellId.mk row)) ∧
      window.cells.Pairwise CellId.Precedes ∧
      window.cells.Nodup ∧
      (∀ cell, cell ∈ window.cells ↔ window.contains cell = true) ∧
      window.cells.length = window.size ∧
      (window.isEmpty = true ↔ window.cells = []) :=
  ⟨cells_eq_flatMap window, pairwise_cells window, nodup_cells window, fun _ ↦ mem_cells_iff,
    length_cells window, isEmpty_iff⟩

/-- Two rows of three cells each. -/
example : (TableWindow.mk ⟨4, 6⟩ ⟨1, 4⟩).cells =
    [⟨4, 1⟩, ⟨4, 2⟩, ⟨4, 3⟩, ⟨5, 1⟩, ⟨5, 2⟩, ⟨5, 3⟩] := by
  decide

end TableWindow

end Windowing
