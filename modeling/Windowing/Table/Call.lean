import Windowing.Table

/-!
# Calls on tables

The public calls on a table, as data, so that a run of calls is a list. The host may change
on its own between two calls; that is a call too.

## Main definitions

* `Table.Call`, `Table.Answer` — the calls and what they answer.
* `Table.Call.perform` — what a call does to a table and its host.
-/

namespace Windowing.Table

/-- The public calls on a table, and the changes of a host of type `H`. -/
inductive Call (H S : Type) where
  | layout
  | refreshAll
  | dimensionsChanged
  | cellInvalidated (cell : CellId)
  | select (cell : CellId)
  | unselect (cell : CellId)
  | unselectAll
  | isSelected (cell : CellId)
  | setViewportSize (size : Size S)
  | scrollTo (offset : Point S)
  | reveal (cell : CellId)
  | scrollToTop
  | scrollToBottom
  | scrollToLeading
  | scrollToTrailing
  | setRowHeight (row : Nat) (height : S)
  | setColumnWidth (col : Nat) (width : S)
  | destroyAll
  /-- The host changes on its own. -/
  | host (change : H → H)

/-- What a call on a table answers. -/
inductive Answer where
  | done
  | flag (value : Bool)
  | count (value : Nat)
  | pass (pass : Pass TableWindow CellId)
  | changes (changes : List (Selection.Change CellId))

variable {H V S : Type} [Scalar S] [ViewHandle H V S]

/-- A step of the table alone that answers a flag. -/
def flagged (step : Step (Table V S) Bool) : Step (Hosted H (Table V S)) Answer := do
  return .flag (← Hosted.onHeld step)

/-- Makes a call on a table. -/
def Call.perform (source : TableSource H V) :
    Call H S → Step (Hosted H (Table V S)) Answer
  | layout => return .pass (← Table.layout source)
  | refreshAll => return .pass (← Table.refreshAll source)
  | dimensionsChanged => return .pass (← Table.dimensionsChanged source)
  | cellInvalidated cell => return .flag (← Table.cellInvalidated source cell)
  | select cell => return .changes (← Table.select source cell)
  | unselect cell => return .changes (← changeSelection (Selection.unselect cell))
  | unselectAll => return .changes (← changeSelection Selection.unselectAll)
  | isSelected cell => return .flag ((← get).held.selection.isSelected cell)
  | setViewportSize size => flagged (modifyGet fun table ↦ (table.setViewportSize size).swap)
  | scrollTo offset => flagged (scrollBoth (.offset offset.y) (.offset offset.x))
  | reveal cell => flagged (Table.reveal cell)
  | scrollToTop => flagged (scrollRows (.offset Scalar.zero))
  | scrollToBottom => flagged (scrollRows .stop)
  | scrollToLeading => flagged (scrollCols (.offset Scalar.zero))
  | scrollToTrailing => flagged (scrollCols .stop)
  | setRowHeight row height => flagged (Table.setRowHeight row height)
  | setColumnWidth col width => flagged (Table.setColumnWidth col width)
  | destroyAll => Hosted.onHeld <| modifyGet fun table ↦
    let (count, table) := table.destroyAll
    (.count count, table)
  | host change => do
    modify fun hosted ↦ { hosted with host := change hosted.host }
    return .done

end Windowing.Table
