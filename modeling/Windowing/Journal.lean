import Windowing.Host

/-!
# Journals

A journal writes down everything that a collection does to its host and its views, in
order. It is wrapped around a host and a source of any kind, and changes nothing of what
they do. Its views are numbered in the order in which they were built, and remember what
they were told last.

## Main definitions

* `Journal.Entry` — one thing that was done.
* `Journal` — a host and what was written down so far.
* `Tracked` — a view and what it was told last.
* `ItemSource.journaled`, `TableSource.journaled` — the same source, writing a journal.
-/

namespace Windowing

/-- One thing that was done to a host or to one of its views. -/
inductive Journal.Entry (K S : Type) where
  /-- The host built a view of a kind, and the view got its number. -/
  | created (kind : ViewKind) (view : Nat)
  /-- The host refused to build a view of a kind. -/
  | refused (kind : ViewKind)
  /-- The host was to fill a view with the content of a key, which at this moment needs a view
  of the kind `kind`. -/
  | bound (key : K) (kind : ViewKind) (view : Nat)
  /-- A view was moved. -/
  | moved (position : Point S) (view : Nat)
  /-- A view was resized. -/
  | resized (size : Size S) (view : Nat)
  /-- A view was styled as selected or not. -/
  | styled (selected : Bool) (view : Nat)
deriving DecidableEq

/-- A host, and what was done to it and to its views. -/
structure Journal (H K S : Type) where
  /-- The host itself. -/
  host : H
  /-- What was done, the latest first. -/
  entries : List (Journal.Entry K S)
  /-- The number of views built so far. -/
  created : Nat

/-- What a view shows. -/
inductive Content (K : Type) where
  /-- Nothing yet. -/
  | blank
  /-- The content of the key for which filling the view was last completed. -/
  | item (key : K)
  /-- Something that the host put there by itself. -/
  | custom

/-- A view with its number and what it was told last. -/
structure Tracked (K V S : Type) where
  /-- The number of the view. -/
  number : Nat
  /-- The kind that the view was built for. -/
  kind : ViewKind
  /-- What the view shows. -/
  content : Content K
  /-- The position that the view was last given. -/
  position : Option (Point S)
  /-- The size that the view was last given. -/
  size : Option (Size S)
  /-- How the view was last styled. -/
  selected : Option Bool
  /-- The view itself. -/
  view : V

namespace Journal

variable {H K V S α : Type}

/-- The journal of a host to which nothing was done yet. -/
def ofHost (host : H) : Journal H K S where
  host := host
  entries := []
  created := 0

/-- Writes an entry down. -/
def write (entry : Entry K S) (journal : Journal H K S) : Journal H K S :=
  { journal with entries := entry :: journal.entries }

/-- A step of the host itself. -/
def onHost (step : Step H α) : Step (Journal H K S) α :=
  Step.within host (fun host journal ↦ { journal with host }) step

/-- The view itself and the host itself. -/
def bare (view : Hosted (Journal H K S) (Tracked K V S)) : Hosted H V :=
  ⟨view.host.host, view.held.view⟩

/-- The journal and the tracked view around a host and a view. -/
def rewrap (inner : Hosted H V) (view : Hosted (Journal H K S) (Tracked K V S)) :
    Hosted (Journal H K S) (Tracked K V S) :=
  ⟨{ view.host with host := inner.host }, { view.held with view := inner.held }⟩

/-- Writes an entry about a view down. -/
def writeView (entry : Nat → Entry K S) (view : Hosted (Journal H K S) (Tracked K V S)) :
    Hosted (Journal H K S) (Tracked K V S) :=
  { view with host := view.host.write (entry view.held.number) }

/-- Changes what a view remembers. -/
def remember (change : Tracked K V S → Tracked K V S)
    (view : Hosted (Journal H K S) (Tracked K V S)) : Hosted (Journal H K S) (Tracked K V S) :=
  { view with held := change view.held }

/-- Writes down that a view is told something, remembers it, and tells the view itself. -/
def tell (entry : Nat → Entry K S) (change : Tracked K V S → Tracked K V S)
    (inner : Hosted H V → Hosted H V) (view : Hosted (Journal H K S) (Tracked K V S)) :
    Hosted (Journal H K S) (Tracked K V S) :=
  rewrap (inner (bare view)) (remember change (writeView entry view))

instance [ViewHandle H V S] : ViewHandle (Journal H K S) (Tracked K V S) S where
  setPosition position :=
    tell (.moved position) (fun view ↦ { view with position := some position })
      (ViewHandle.setPosition position)
  setSize size :=
    tell (.resized size) (fun view ↦ { view with size := some size }) (ViewHandle.setSize size)
  setSelected selected :=
    tell (.styled selected) (fun view ↦ { view with selected := some selected })
      (ViewHandle.setSelected selected)

/-- Builds a view and numbers it. -/
def create (kind : ViewKind) (step : Step H (Option V)) :
    Step (Journal H K S) (Option (Tracked K V S)) := do
  match ← onHost step with
  | some view =>
    let number := (← get).created
    modify fun journal ↦
      { journal with created := number + 1 }.write (.created kind number)
    return some {
      number, kind, view
      content := .blank
      position := none
      size := none
      selected := none }
  | none =>
    modify (write (.refused kind))
    return none

/-- Writes down that a view is to be filled, and then fills it. -/
def bind (key : K) (kind : H → ViewKind) (step : Step (Hosted H V) Unit) :
    Step (Hosted (Journal H K S) (Tracked K V S)) Unit := do
  modify fun view ↦ writeView (.bound key (kind view.host.host)) view
  Step.within bare rewrap step
  modify (remember fun view ↦ { view with content := .item key })

end Journal

/-- The same source, writing a journal. -/
def ItemSource.journaled {H V S : Type} (source : ItemSource H V) :
    ItemSource (Journal H Nat S) (Tracked Nat V S) where
  len journal :=
    let (len, host) := source.len journal.host
    (len, { journal with host })
  kind journal := source.kind journal.host
  create kind := Journal.create kind (source.create kind)
  bind index := Journal.bind index (source.kind · index) (source.bind index)

/-- The same source, writing a journal. -/
def TableSource.journaled {H V S : Type} (source : TableSource H V) :
    TableSource (Journal H CellId S) (Tracked CellId V S) where
  dimensions journal :=
    let (dimensions, host) := source.dimensions journal.host
    (dimensions, { journal with host })
  create := Journal.create .only source.create
  bind cell := Journal.bind cell (fun _ ↦ .only) (source.bind cell)

end Windowing
