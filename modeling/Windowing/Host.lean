import Windowing.Geometry
import Windowing.Step

/-!
# Hosts

The host owns the data and knows how to build views for it. A collection never looks into
a view: it can only place it, size it and style it, and have the host fill it with the
content of an item. All of that may change the host, so a view is always worked on together
with its host, as a `Hosted` view.

## Main definitions

* `Hosted` — something together with the host it works with.
* `ViewHandle` — what a view can be told.
* `ItemSource`, `TableSource` — the data side of a list or grid, and of a table.
* `Callbacks`, `TableCallbacks` — sources of one kind of view, put together from functions.
-/

namespace Windowing

/-- Something together with the host it works with. -/
structure Hosted (H A : Type) where
  /-- The host. -/
  host : H
  /-- What works with the host. -/
  held : A

namespace Hosted

variable {H A B α : Type}

/-- A step that leaves the host alone. -/
def onHeld (step : Step A α) : Step (Hosted H A) α :=
  Step.within held (fun held hosted ↦ { hosted with held }) step

/-- A step of the host alone. -/
def onHost (step : Step H α) : Step (Hosted H A) α :=
  Step.within host (fun host hosted ↦ { hosted with host }) step

/-- A step on a part of what works with the host, and on the host. -/
def onPart (part : A → B) (store : B → A → A) (step : Step (Hosted H B) α) :
    Step (Hosted H A) α :=
  Step.within (fun hosted ↦ ⟨hosted.host, part hosted.held⟩)
    (fun inner hosted ↦ ⟨inner.host, store inner.held hosted.held⟩) step

end Hosted

/-! ### Views -/

/-- The family of views that can show an item. -/
structure ViewKind where
  /-- The number of the family. -/
  number : Nat
deriving DecidableEq

/-- The kind of every item in a collection of one kind. -/
def ViewKind.only : ViewKind :=
  ⟨0⟩

instance : Inhabited ViewKind := ⟨.only⟩

/-- What a view of type `V` can be told while its host is in a state of type `H`. -/
class ViewHandle (H V : Type) (S : outParam Type) where
  /-- Moves the origin of the view. -/
  setPosition : Point S → Hosted H V → Hosted H V
  /-- Changes the size of the view. -/
  setSize : Size S → Hosted H V → Hosted H V
  /-- Styles the view as selected or not. A view may ignore it. -/
  setSelected : Bool → Hosted H V → Hosted H V := fun _ view ↦ view

/-- A view that ignores whether its item is selected. -/
structure Unstyled (V : Type) where
  /-- The view itself. -/
  view : V

/-- The same host with the wrapped view in place of an unstyled one. -/
def Hosted.unwrap {H V : Type} (hosted : Hosted H (Unstyled V)) : Hosted H V :=
  ⟨hosted.host, hosted.held.view⟩

/-- The same host with a view wrapped as an unstyled one. -/
def Hosted.wrap {H V : Type} (hosted : Hosted H V) : Hosted H (Unstyled V) :=
  ⟨hosted.host, ⟨hosted.held⟩⟩

instance {H V S : Type} [ViewHandle H V S] : ViewHandle H (Unstyled V) S where
  setPosition position view := (ViewHandle.setPosition position view.unwrap).wrap
  setSize size view := (ViewHandle.setSize size view.unwrap).wrap

/-! ### Lists and grids -/

/-- The data side of a collection of items. -/
structure ItemSource (H V : Type) where
  /-- The current number of items. -/
  len : H → Nat × H
  /-- The kind of view that shows an item. -/
  kind : H → Nat → ViewKind := fun _ _ ↦ .only
  /-- Builds an unbound view of a kind, or refuses to. -/
  create : ViewKind → Step H (Option V)
  /-- Fills a view with the content of an item. -/
  bind : Nat → Step (Hosted H V) Unit

/-- Whether a source has no items. -/
def ItemSource.isEmpty {H V : Type} (source : ItemSource H V) (host : H) : Bool × H :=
  let (len, host) := source.len host
  (len == 0, host)

/-- The functions that a source of one kind of view is put together from. -/
structure Callbacks (H V : Type) where
  /-- The current number of items. -/
  len : H → Nat × H
  /-- Builds an unbound view, or refuses to. -/
  create : Step H (Option V)
  /-- Fills a view with the content of an item. -/
  bind : Nat → Step (Hosted H V) Unit

/-- The source that the functions make up: every item is of the default kind. -/
def Callbacks.toSource {H V : Type} (callbacks : Callbacks H V) : ItemSource H V where
  len := callbacks.len
  create _ := callbacks.create
  bind := callbacks.bind

/-- How the functions are shown: they have no text of their own. -/
instance {H V : Type} : ToString (Callbacks H V) := ⟨fun _ ↦ "Callbacks \x7b .. \x7d"⟩

/-- The same source with views that ignore whether their item is selected. -/
def ItemSource.unstyled {H V : Type} (source : ItemSource H V) : ItemSource H (Unstyled V) where
  len := source.len
  kind := source.kind
  create kind := Option.map Unstyled.mk <$> source.create kind
  bind index := Step.within Hosted.unwrap (fun view _ ↦ view.wrap) (source.bind index)

/-! ### Tables -/

/-- The address of a cell of a table. -/
structure CellId where
  row : Nat
  col : Nat
deriving DecidableEq, Hashable

instance : Inhabited CellId := ⟨⟨0, 0⟩⟩

/-- A cell is named in texts by its row and its column. -/
instance : ToString CellId := ⟨fun cell ↦ s!"[{cell.row},{cell.col}]"⟩

/-- The data side of a table. -/
structure TableSource (H V : Type) where
  /-- The current numbers of rows and columns. -/
  dimensions : H → (Nat × Nat) × H
  /-- Builds an unbound view of a cell, or refuses to. -/
  create : Step H (Option V)
  /-- Fills a view with the content of a cell. -/
  bind : CellId → Step (Hosted H V) Unit

/-- The functions that the source of a table is put together from. -/
structure TableCallbacks (H V : Type) where
  /-- The current numbers of rows and columns. -/
  dimensions : H → (Nat × Nat) × H
  /-- Builds an unbound view of a cell, or refuses to. -/
  create : Step H (Option V)
  /-- Fills a view with the content of a cell. -/
  bind : CellId → Step (Hosted H V) Unit

/-- The source that the functions make up. -/
def TableCallbacks.toSource {H V : Type} (callbacks : TableCallbacks H V) : TableSource H V where
  dimensions := callbacks.dimensions
  create := callbacks.create
  bind := callbacks.bind

/-- How the functions are shown: they have no text of their own. -/
instance {H V : Type} : ToString (TableCallbacks H V) := ⟨fun _ ↦ "TableCallbacks \x7b .. \x7d"⟩

/-- The same source with views that ignore whether their cell is selected. -/
def TableSource.unstyled {H V : Type} (source : TableSource H V) : TableSource H (Unstyled V) where
  dimensions := source.dimensions
  create := Option.map Unstyled.mk <$> source.create
  bind cell := Step.within Hosted.unwrap (fun view _ ↦ view.wrap) (source.bind cell)

end Windowing
