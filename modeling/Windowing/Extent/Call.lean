import Windowing.Extent.Strip
import Windowing.Extent.Grid
import Windowing.Extent.Tabulated

/-!
# Calls on extent models

The public calls on each kind of extent model, as data, so that a run of calls is a list.
Performing a call is a step: it may end in a fault, and it leaves a model behind either way.
A query leaves the model with what it worked out stored.

## Main definitions

* `Reply` — what a call answers.
* `ExtentModel.Query`, `ResizableModel.Edit` — the calls that every model, and every model
  of a collection, understands.
* `Strip.Call`, `Grid.Call`, `Tabulated.Call` — the calls on one kind of model.
-/

namespace Windowing

/-- What a call on a model answers. -/
inductive Reply (S : Type) where
  /-- Nothing. -/
  | done
  /-- Yes or no. -/
  | flag (value : Bool)
  /-- A number of items, or an item. -/
  | count (value : Nat)
  /-- An item, if there is one. -/
  | count? (value : Option Nat)
  /-- An extent or an offset. -/
  | scalar (value : S)
  /-- An extent, if there is one. -/
  | scalar? (value : Option S)
  /-- A start and a size. -/
  | span (start size : S)

variable {M S : Type} [Scalar S]

/-! ### Calls that models share -/

/-- What every extent model can be asked. -/
inductive ExtentModel.Query (S : Type) where
  | len
  | isEmpty
  | totalExtent
  | extentOf (index : Nat)
  | offsetOf (index : Nat)
  | indexAtOffset (offset : S)
  | trackIndex (index : Nat)

/-- Answers a query, and stores what it worked out. -/
def ExtentModel.Query.perform [ExtentModel M S] : Query S → Step M (Reply S)
  | len => return .count (ExtentModel.len (← get))
  | isEmpty => return .flag (ExtentModel.isEmpty (← get))
  | totalExtent => do
    modify fun model ↦ settleAt (ExtentModel.len model) model
    return .scalar (ExtentModel.totalExtent (← get))
  | extentOf index => do
    return .scalar (← Step.ofExcept (ExtentModel.extentOf (← get) index))
  | offsetOf index => do
    modify (settleAt index)
    return .scalar (ExtentModel.offsetOf (← get) index)
  | indexAtOffset offset => do
    modify settleAll
    return .count (ExtentModel.indexAtOffset (← get) offset)
  | trackIndex index => return .count (ExtentModel.trackIndex (← get) index)

/-- What every model of a collection can be told, and how it is asked for a place across the
scroll axis. -/
inductive ResizableModel.Edit (S : Type) where
  | setLen (len : Nat)
  | setItemExtent (index : Nat) (extent : S)
  | clearItemExtent (index : Nat)
  | fitCrossExtent (crossExtent : S)
  | crossSpan (index : Nat) (crossExtent : S)

/-- A step that changes the state by a function and answers the flag it gives. -/
private def flagged (change : M → M × Bool) : Step M (Reply S) :=
  modifyGet fun model ↦ let (model, changed) := change model; (.flag changed, model)

/-- Makes an edit. -/
def ResizableModel.Edit.perform [ResizableModel M S] [CrossPlacement M S] :
    Edit S → Step M (Reply S)
  | setLen len => do
    modify (ResizableModel.setLen len)
    return .done
  | setItemExtent index extent => return .flag (← ResizableModel.setItemExtent index extent)
  | clearItemExtent index => flagged (ResizableModel.clearItemExtent index)
  | fitCrossExtent crossExtent => flagged (CrossPlacement.fitCrossExtent crossExtent)
  | crossSpan index crossExtent => do
    let (start, size) := CrossPlacement.crossSpan (← get) index crossExtent
    return .span start size

/-! ### Strips -/

/-- The public calls on a strip. -/
inductive Strip.Call (S : Type) where
  | query (query : ExtentModel.Query S)
  | edit (edit : ResizableModel.Edit S)
  | uniform
  | spacing
  | overrideCount
  | isUniform
  | overrideOf (index : Nat)
  | indexAtOffset? (offset : S)
  | setUniform (extent : S)
  | setSpacing (spacing : S)
  | clearOverrides

/-- Makes a call on a strip. -/
def Strip.Call.perform : Call S → Step (Strip S) (Reply S)
  | query q => q.perform
  | edit e => e.perform
  | uniform => return .scalar (← get).uniform
  | spacing => return .scalar (← get).spacing
  | overrideCount => return .count (← get).overrideCount
  | isUniform => return .flag (← get).isUniform
  | overrideOf index => return .scalar? ((← get).overrideOf index)
  | indexAtOffset? offset => do
    modify Strip.settleAll
    return .count? ((← get).indexAtOffset? offset)
  | setUniform extent => do
    Strip.setUniform extent
    return .done
  | setSpacing gap => do
    Strip.setSpacing gap
    return .done
  | clearOverrides => do
    modify Strip.clearOverrides
    return .done

/-! ### Grids -/

/-- The public calls on a grid whose tracks are a strip. -/
inductive Grid.Call (S : Type) where
  | query (query : ExtentModel.Query S)
  | edit (edit : ResizableModel.Edit S)
  | lanes
  | setLanes (lanes : Nat) (lanes_pos : 0 < lanes)
  | trackOf (index : Nat)
  | laneOf (index : Nat)
  | trackCount
  | lanesFor (crossExtent : S)
  | tracks (call : Strip.Call S)

/-- Makes a call on a grid. -/
def Grid.Call.perform : Call S → Step (Grid (Strip S) S) (Reply S)
  | query q => q.perform
  | edit e => e.perform
  | lanes => return .count (← get).lanes
  | setLanes count count_pos => flagged (Grid.setLanes count count_pos)
  | trackOf index => return .count ((← get).trackOf index)
  | laneOf index => return .count ((← get).laneOf index)
  | trackCount => return .count (← get).trackCount
  | lanesFor crossExtent => return .count ((← get).lanesFor crossExtent)
  | tracks call => Step.within Grid.tracks (fun tracks grid ↦ { grid with tracks }) call.perform

/-! ### Tabulated models -/

/-- The public calls on a tabulated model. -/
inductive Tabulated.Call (S : Type) where
  | query (query : ExtentModel.Query S)
  | setTotal (total : S)
  | setHit (index : Nat)

/-- Makes a call on a tabulated model. -/
def Tabulated.Call.perform : Call S → Step (Tabulated S) (Reply S)
  | query q => q.perform
  | setTotal total => do
    modify fun model ↦ { model with total }
    return .done
  | setHit hit => do
    modify fun model ↦ { model with hit }
    return .done

end Windowing
