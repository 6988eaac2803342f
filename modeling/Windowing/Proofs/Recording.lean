import Windowing.Journal
import Windowing.Pass
import Windowing.Proofs.Mirrors

/-!
# A record changes nothing

A journal is wrapped around a host and its views to say what happens to them. Without the journal
a pass does the same: it asks the host the same things in the same order, and leaves the views that
the tracked ones wrap.

## Main definitions

* `Slot.bare`, `ViewStock.bare` — a slot and a stock without what was recorded of their views.
* `ViewSource.Records` — a source that does what another one does, and writes a journal.

## Main results

* `ViewStock.follow_mirrors`, `ViewStock.refill_mirrors`, `ViewStock.restyle_mirrors` — the work
  on views, with a record and without.
-/

namespace Windowing

/-! ### Stores and pools -/

namespace Keyed

variable {K A B : Type}

/-- The store with a function applied to every value. -/
def map (f : A → B) (store : Keyed K A) : Keyed K B where
  entries := store.entries.map fun entry ↦ (entry.1, f entry.2)
  nodup := by
    rw [List.map_map]
    exact store.nodup

theorem keys_map (f : A → B) (store : Keyed K A) : (store.map f).keys = store.keys := by
  rw [keys, map, List.map_map]
  rfl

theorem size_map (f : A → B) (store : Keyed K A) : (store.map f).size = store.size :=
  List.length_map ..

theorem values_map (f : A → B) (store : Keyed K A) : (store.map f).values = store.values.map f := by
  rw [values, values, map, List.map_map, List.map_map]
  rfl

variable [DecidableEq K]

theorem find?_map (f : A → B) (store : Keyed K A) (key : K) :
    (store.map f).find? key = (store.find? key).map f := by
  rw [find?, find?, map, List.find?_map, Option.map_map, Option.map_map]
  rfl

theorem erase_map (f : A → B) (store : Keyed K A) (key : K) :
    (store.map f).erase key = (store.erase key).map f := by
  simp only [erase, map, List.filter_map]
  rfl

theorem insert_map (f : A → B) (store : Keyed K A) (key : K) (value : A) :
    (store.map f).insert key (f value) = (store.insert key value).map f := by
  simp only [insert, erase_map]
  rfl

end Keyed

namespace Pool

variable {α β : Type}

/-- The pool with a function applied to every waiting object. -/
def map (f : α → β) (pool : Pool α) : Pool β :=
  ⟨pool.free.map f⟩

theorem obtain?_map (f : α → β) (pool : Pool α) :
    (pool.map f).obtain? = (pool.obtain?.1.map f, pool.obtain?.2.map f) := by
  rw [obtain?, obtain?, map, map, List.head?_map, List.map_tail]

end Pool

variable {H K V S : Type}

/-! ### Slots and stocks without a record -/

/-- The slot without what was recorded of its view. -/
def Slot.bare (slot : Slot K (Tracked K V S) S) : Slot K V S :=
  ⟨slot.view.view, slot.kind, slot.key, slot.placed⟩

namespace ViewStock

/-- The stock without what was recorded of its views. -/
def bare (stock : ViewStock K (Tracked K V S) S) : ViewStock K V S :=
  ⟨stock.live.map Slot.bare, stock.pools.map (Pool.map Slot.bare)⟩

theorem liveCount_bare (stock : ViewStock K (Tracked K V S) S) :
    stock.bare.liveCount = stock.liveCount :=
  Keyed.size_map ..

theorem pooledCount_bare (stock : ViewStock K (Tracked K V S) S) :
    stock.bare.pooledCount = stock.pooledCount := by
  rw [pooledCount, bare, Keyed.values_map, List.foldr_map]
  simp only [Pool.size, Pool.map, List.length_map]
  rfl

theorem pool_bare (kind : ViewKind) (stock : ViewStock K (Tracked K V S) S) :
    stock.bare.pool kind = (stock.pool kind).map Slot.bare := by
  rw [pool, pool, bare, Keyed.find?_map]
  cases stock.pools.find? kind <;> rfl

theorem putBack_bare (slot : Slot K (Tracked K V S) S) (stock : ViewStock K (Tracked K V S) S) :
    stock.bare.putBack slot.bare = (stock.putBack slot).bare := by
  have hrelease : (stock.bare.pool slot.bare.kind).release slot.bare =
      ((stock.pool slot.kind).release slot).map Slot.bare := by
    rw [pool_bare]
    rfl
  simp only [putBack, hrelease]
  exact congrArg _ (Keyed.insert_map ..)

variable [DecidableEq K]

theorem find?_live_bare (stock : ViewStock K (Tracked K V S) S) (key : K) :
    stock.bare.live.find? key = (stock.live.find? key).map Slot.bare :=
  Keyed.find?_map ..

theorem kindOf?_bare (stock : ViewStock K (Tracked K V S) S) (key : K) :
    stock.bare.kindOf? key = stock.kindOf? key := by
  rw [kindOf?, find?_live_bare, Option.map_map]
  rfl

/-! ### Moving views -/

theorem release_mirrors (key : K) :
    Step.Mirrors bare id (release (K := K) (V := Tracked K V S) (S := S) key) (release key) := by
  rw [release, release]
  refine Step.mirrors_get.bind fun stock ↦ ?_
  rw [find?_live_bare]
  cases stock.live.find? key with
  | none => exact Step.mirrors_pure rfl
  | some slot =>
    refine (Step.mirrors_modify fun stock ↦ ?_).bind fun _ ↦ (Step.mirrors_require _ _).bind fun _ ↦
      (Step.mirrors_modify fun stock ↦ putBack_bare slot stock).bind fun _ ↦ Step.mirrors_pure rfl
    exact congrArg (ViewStock.mk · _) (Keyed.erase_map ..)

theorem releaseAll_mirrors (keys : List K) :
    Step.Mirrors bare id (releaseAll (V := Tracked K V S) (S := S) keys) (releaseAll keys) := by
  induction keys with
  | nil => exact Step.mirrors_pure rfl
  | cons key rest ih =>
    exact (release_mirrors key).bind fun _ ↦ ih.bind fun _ ↦ Step.mirrors_pure rfl

theorem vacate_mirrors (rebind : Bool) (leaving : List K) (inWindow : K → Bool) :
    Step.Mirrors bare id (vacate (V := Tracked K V S) (S := S) rebind leaving inWindow)
      (vacate rebind leaving inWindow) := by
  rw [vacate, vacate]
  split
  · refine Step.mirrors_get.bind fun stock ↦ ?_
    have hkeys : stock.bare.live.keys = stock.live.keys := Keyed.keys_map ..
    rw [hkeys]
    exact releaseAll_mirrors _
  · exact releaseAll_mirrors leaving

omit [DecidableEq K] in
theorem takePooled_mirrors (kind : ViewKind) :
    Step.Mirrors bare (Option.map Slot.bare)
      (takePooled (K := K) (V := Tracked K V S) (S := S) kind) (takePooled kind) := by
  refine Step.mirrors_modifyGet fun stock ↦ ?_
  rw [pool_bare, Pool.obtain?_map]
  exact congrArg (fun pools ↦ (_, ViewStock.mk _ pools)) (Keyed.insert_map ..)

theorem goLive_mirrors (key : K) (slot : Slot K (Tracked K V S) S) :
    Step.Mirrors bare id (supply.goLive key slot) (supply.goLive key slot.bare) := by
  refine Step.mirrors_get.bind fun stock ↦ ?_
  rw [find?_live_bare, Option.isNone_map]
  refine (Step.mirrors_require _ _).bind fun _ ↦ Step.mirrors_modify fun stock ↦ ?_
  exact congrArg (ViewStock.mk · _)
    (Keyed.insert_map Slot.bare stock.live key { slot with key := some key })

/-! ### Sources with a record -/

end ViewStock

/-- A source that does what another one does, and writes a journal. -/
structure ViewSource.Records (source : ViewSource K (Journal H K S) (Tracked K V S))
    (plain : ViewSource K H V) : Prop where
  kind_eq : ∀ (journal : Journal H K S) key, plain.kind journal.host key = source.kind journal key
  create : ∀ kind,
    Step.Mirrors Journal.host (Option.map Tracked.view) (source.create kind) (plain.create kind)
  bind : ∀ key, Step.Mirrors Journal.bare id (source.bind key) (plain.bind key)

theorem Journal.create_mirrors (kind : ViewKind) (step : Step H (Option V)) :
    Step.Mirrors Journal.host (Option.map Tracked.view)
      (Journal.create (K := K) (S := S) kind step) step := by
  intro journal
  simp only [Journal.create, Journal.onHost, Bind.bind, EStateM.bind, Step.within]
  cases step journal.host with
  | error fault host => rfl
  | ok view? host =>
    cases view? with
    | none => rfl
    | some view => rfl

theorem Journal.bind_mirrors (key : K) (kind : H → ViewKind) (step : Step (Hosted H V) Unit) :
    Step.Mirrors Journal.bare id (Journal.bind (S := S) key kind step) step := by
  have htold
      (change : Hosted (Journal H K S) (Tracked K V S) → Hosted (Journal H K S) (Tracked K V S))
      (hchange : ∀ view, Journal.bare (change view) = Journal.bare view) :
      Step.Mirrors Journal.bare id (modify change) (pure ()) :=
    fun view ↦ congrArg (EStateM.Result.ok ()) (hchange view).symm
  have hfilled : Step.Mirrors Journal.bare id
      (Step.within (Journal.bare (K := K) (S := S)) Journal.rewrap step) step := by
    intro view
    rw [Step.within]
    cases step (Journal.bare view) <;> rfl
  have hall : Step.Mirrors Journal.bare id (Journal.bind (S := S) key kind step)
      (pure () >>= fun _ ↦ step >>= fun _ ↦ pure ()) :=
    (htold (fun view ↦ Journal.writeView (.bound key (kind view.host.host)) view) fun _ ↦ rfl).bind
      fun _ ↦ hfilled.bind fun _ ↦
        htold (Journal.remember fun view ↦ { view with content := .item key }) fun _ ↦ rfl
  simpa only [pure_bind, bind_pure_unit] using hall

theorem ItemSource.records_views (source : ItemSource H V) :
    (source.journaled (S := S)).views.Records source.views where
  kind_eq _ _ := rfl
  create kind := Journal.create_mirrors kind _
  bind index := Journal.bind_mirrors index (source.kind · index) (source.bind index)

theorem TableSource.records_views (source : TableSource H V) :
    (source.journaled (S := S)).views.Records source.views where
  kind_eq _ _ := rfl
  create _ := Journal.create_mirrors .only _
  bind cell := Journal.bind_mirrors cell (fun _ ↦ .only) (source.bind cell)

/-! ### Working on live views -/

/-- The slot and its host without the record. -/
def Slot.plain (slot : Hosted (Journal H K S) (Slot K (Tracked K V S) S)) : Hosted H (Slot K V S) :=
  Hosted.shown Journal.host Slot.bare slot

namespace Slot

variable [ViewHandle H V S]

theorem style_plain (selected : Bool) (slot : Hosted (Journal H K S) (Slot K (Tracked K V S) S)) :
    style selected (plain slot) = plain (style selected slot) := rfl

theorem place_plain [Scalar S] (rect : Rect S) (force : Bool)
    (slot : Hosted (Journal H K S) (Slot K (Tracked K V S) S)) :
    place rect force (plain slot) = plain (place rect force slot) := by
  have hplaced : (plain slot).held.placed = slot.held.placed := rfl
  simp only [place, hplaced]
  generalize (if force then none else slot.held.placed) = last
  split
  · split <;> rfl
  · split <;> rfl

end Slot

namespace ViewStock

/-- The stock and its host without the record. -/
def plain (stock : Hosted (Journal H K S) (ViewStock K (Tracked K V S) S)) :
    Hosted H (ViewStock K V S) :=
  Hosted.shown Journal.host bare stock

variable [DecidableEq K] {α : Type}

theorem onLive_mirrors (key : K)
    {step : Step (Hosted (Journal H K S) (Slot K (Tracked K V S) S)) α}
    {step' : Step (Hosted H (Slot K V S)) α} (h : Step.Mirrors Slot.plain id step step') :
    Step.Mirrors plain id (onLive key step) (onLive key step') := by
  refine Step.mirrors_get.bind fun stock ↦ ?_
  have hlive : (plain stock).held.live.find? key = (stock.held.live.find? key).map Slot.bare :=
    find?_live_bare stock.held key
  rw [hlive]
  cases stock.held.live.find? key with
  | none => exact Step.mirrors_pure rfl
  | some slot =>
    have hinner : Step.Mirrors plain id
        (Hosted.onPart (fun _ ↦ slot)
          (fun slot stock ↦ { stock with live := stock.live.insert key slot }) step)
        (Hosted.onPart (fun _ ↦ slot.bare)
          (fun slot stock ↦ { stock with live := stock.live.insert key slot }) step') :=
      Hosted.onPart_mirrors h (fun _ ↦ rfl) fun slot stock ↦
        congrArg (ViewStock.mk · _) (Keyed.insert_map Slot.bare stock.live key slot)
    exact hinner.map fun _ ↦ rfl

theorem supply_mirrors (key : K) (kind : ViewKind)
    {create : Step (Journal H K S) (Option (Tracked K V S))} {create' : Step H (Option V)}
    (h : Step.Mirrors Journal.host (Option.map Tracked.view) create create') :
    Step.Mirrors plain id (supply key kind create) (supply key kind create') := by
  refine (Hosted.onHeld_mirrors (takePooled_mirrors kind)).bind fun slot? ↦ ?_
  cases slot? with
  | some slot =>
    exact (Step.mirrors_require _ _).bind fun _ ↦
      (Hosted.onHeld_mirrors (goLive_mirrors key slot)).bind fun _ ↦ Step.mirrors_pure rfl
  | none =>
    refine (Hosted.onHost_mirrors h).bind fun view? ↦ ?_
    cases view? with
    | none => exact Step.mirrors_pure rfl
    | some view =>
      exact (Hosted.onHeld_mirrors (goLive_mirrors key (.ofView view kind))).bind fun _ ↦
        Step.mirrors_pure rfl

theorem restyle_mirrors [BEq K] [Hashable K] [ViewHandle H V S]
    (changes : List (Selection.Change K)) :
    Step.Mirrors (plain (H := H) (V := V) (S := S)) id (restyle changes) (restyle changes) := by
  induction changes with
  | nil => exact Step.mirrors_pure rfl
  | cons change rest ih =>
    have hstyle := Step.mirrors_modify fun slot ↦
      Slot.style_plain (H := H) (K := K) (V := V) (S := S) change.isSelected slot
    exact (onLive_mirrors change.key hstyle).bind fun _ ↦ ih

/-! ### The pass -/

variable [ViewHandle H V S] {source : ViewSource K (Journal H K S) (Tracked K V S)}
  {source' : ViewSource K H V}

omit [DecidableEq K] in
theorem present_mirrors (h : source.Records source') (key : K) (selected : Bool) :
    Step.Mirrors Slot.plain id (present source key selected) (present source' key selected) := by
  refine (Step.mirrors_modify fun slot ↦ Slot.style_plain selected slot).bind fun _ ↦ ?_
  exact Hosted.onPart_mirrors (h.bind key) (fun _ ↦ rfl) fun _ _ ↦ rfl

theorem refill_mirrors (h : source.Records source') (key : K) (selected : Bool) :
    Step.Mirrors plain id (refill source key selected) (refill source' key selected) :=
  (onLive_mirrors key (present_mirrors h key selected)).bind fun _ ↦ Step.mirrors_pure rfl

theorem releaseForeign_mirrors (key : K) (kind : ViewKind) :
    Step.Mirrors bare id (releaseForeign (V := Tracked K V S) (S := S) key kind)
      (releaseForeign key kind) := by
  refine Step.mirrors_get.bind fun stock ↦ ?_
  rw [kindOf?_bare]
  cases stock.kindOf? key with
  | none => exact Step.mirrors_pure rfl
  | some live =>
    dsimp only
    split
    · exact Step.mirrors_pure rfl
    · exact release_mirrors key

variable [Scalar S] {layout : Layout K S} {key : K} {rect : Rect S}

omit [DecidableEq K] in
theorem keep_mirrors (h : source.Records source') :
    Step.Mirrors Slot.plain id (keep source layout key rect) (keep source' layout key rect) := by
  rw [keep, keep]
  have hplaced (tally : Tally) : Step.Mirrors Slot.plain id
      (do modify (Slot.place (H := Journal H K S) (V := Tracked K V S) rect layout.force)
          return tally)
      (do modify (Slot.place (H := H) rect layout.force)
          return tally) :=
    (Step.mirrors_modify fun slot ↦ Slot.place_plain rect layout.force slot).bind fun _ ↦
      Step.mirrors_pure rfl
  cases layout.rebind with
  | false => exact hplaced _
  | true => exact (present_mirrors h key _).bind fun _ ↦ hplaced _

omit [DecidableEq K] in
theorem enter_mirrors (h : source.Records source') :
    Step.Mirrors Slot.plain id (enter source layout key rect) (enter source' layout key rect) :=
  (present_mirrors h key _).bind fun _ ↦
    (Step.mirrors_modify fun slot ↦ Slot.place_plain rect true slot).bind fun _ ↦
      Step.mirrors_pure rfl

theorem realize_mirrors (h : source.Records source') (key : K) :
    Step.Mirrors plain id (realize source layout key) (realize source' layout key) := by
  refine (Step.mirrors_ofExcept (layout.rect key)).bind fun rect ↦
    Step.mirrors_get.bind fun stock ↦ ?_
  have hkind : source'.kind (plain stock).host key = source.kind stock.host key :=
    h.kind_eq stock.host key
  rw [hkind]
  refine (Hosted.onHeld_mirrors (releaseForeign_mirrors key _)).bind fun released ↦
    (onLive_mirrors key (keep_mirrors h)).bind fun kept ↦ ?_
  cases kept with
  | some tally => exact Step.mirrors_pure rfl
  | none =>
    refine (supply_mirrors key _ (h.create _)).bind fun created ↦ ?_
    cases created with
    | none => exact Step.mirrors_pure rfl
    | some created =>
      exact (onLive_mirrors key (enter_mirrors h)).bind fun _ ↦ Step.mirrors_pure rfl

theorem realizeAll_mirrors (h : source.Records source') (keys : List K) :
    Step.Mirrors plain id (realizeAll source layout keys) (realizeAll source' layout keys) := by
  induction keys with
  | nil => exact Step.mirrors_pure rfl
  | cons key rest ih =>
    exact (realize_mirrors h key).bind fun _ ↦ ih.bind fun _ ↦ Step.mirrors_pure rfl

/-- The work of a pass is the same with a record and without. -/
theorem follow_mirrors (h : source.Records source') (layout : Layout K S) (leaving keys : List K)
    (inWindow : K → Bool) :
    Step.Mirrors plain id (follow source layout leaving keys inWindow)
      (follow source' layout leaving keys inWindow) := by
  refine (Hosted.onHeld_mirrors (vacate_mirrors layout.rebind leaving inWindow)).bind fun _ ↦
    (realizeAll_mirrors h keys).bind fun _ ↦ Step.mirrors_get.bind fun stock ↦ ?_
  have hkeys : (plain stock).held.live.keys = stock.held.live.keys := Keyed.keys_map ..
  rw [hkeys]
  exact (Step.mirrors_require _ _).bind fun _ ↦ Step.mirrors_pure rfl

end ViewStock

end Windowing
