import Windowing.Proofs.Telling

/-!
# What a pass counts

A pass answers how many views it bound, bound again, released and had built. The counts are raised
on different branches of the turn of a key, and one view may be released and be given to another key
within the same pass. So the books are kept turn by turn: what a turn adds to the counts is what it
adds to the calls in the journal and to the views in use, and the books of several turns add up.

Besides, the books say which calls there were. The view that a key has after its turn was to be
filled in this turn, unless the pass does not rebind and the key had a view of this kind before. And
the host is asked for a view of a kind only in a turn before and after which the pool of this kind
is empty.

## Main definitions

* `Journal.bindCalls` — the calls to fill a view, in the order in which they were made.
* `ViewStock.newlyBound` — the call to fill the view of a key that is to be made in a pass.
* `ViewStock.Booked` — the counts agree with what was done between two states.
* `ViewStock.Asks` — the host was only asked for views of which there were none.
* `ViewStock.Swept` — what the turns of several keys come to.

## Main results

* `ViewStock.realize_books` — the turn of a key.
* `ViewStock.realizeAll_swept` — the turns of several keys.
* `ViewStock.follow_swept` — a pass that is completed.
-/

namespace Windowing

variable {H K V S : Type}

/-! ### Counts -/

namespace Tally

variable (a b : Tally)

@[simp]
theorem bound_add : (a + b).bound = a.bound + b.bound := rfl

@[simp]
theorem rebound_add : (a + b).rebound = a.rebound + b.rebound := rfl

@[simp]
theorem released_add : (a + b).released = a.released + b.released := rfl

@[simp]
theorem created_add : (a + b).created = a.created + b.created := rfl

theorem binds_add : (a + b).binds = a.binds + b.binds := by
  simp only [binds, bound_add, rebound_add]
  omega

end Tally

namespace Keyed

variable {A : Type} [DecidableEq K] {store : Keyed K A} {key : K} {value : A}

theorem size_erase_of_find? (h : store.find? key = some value) :
    (store.erase key).size + 1 = store.size :=
  (entries_perm_of_find? h).length_eq.symm

theorem size_erase_of_find?_eq_none (h : store.find? key = none) :
    (store.erase key).size = store.size :=
  congrArg List.length (entries_erase_of_find?_eq_none h)

end Keyed

/-! ### Calls in a journal -/

namespace Journal

/-- The key and the number of the view, if the entry is a call to fill a view. -/
def Entry.bindCall? : Entry K S → Option (K × Nat)
  | bound key _ view => some (key, view)
  | _ => none

/-- The kind, if the entry is a call to build a view, whether the host built one or refused to. -/
def Entry.createCall? : Entry K S → Option ViewKind
  | created kind _ => some kind
  | refused kind => some kind
  | _ => none

/-- The calls to fill a view, in the order in which they were made: for which key, and which
view. -/
def bindCalls (entries : List (Entry K S)) : List (K × Nat) :=
  entries.reverse.filterMap Entry.bindCall?

variable {entries before after : List (Entry K S)} {entry : Entry K S}

theorem bindCalls_append (later entries : List (Entry K S)) :
    bindCalls (later ++ entries) = bindCalls entries ++ bindCalls later := by
  rw [bindCalls, List.reverse_append, List.filterMap_append, bindCalls, bindCalls]

theorem bindCalls_cons :
    bindCalls (entry :: entries) = bindCalls entries ++ entry.bindCall?.toList := by
  refine (bindCalls_append [entry] entries).trans (congrArg _ ?_)
  cases hentry : entry.bindCall? <;> simp [bindCalls, hentry]

/-- The entries after extend those before. None of those written in between is a call to build a
view, and the given calls to fill one are all of them. -/
structure Logs (calls : List (K × Nat)) (before after : List (Entry K S)) : Prop where
  bindCalls_eq : bindCalls after = bindCalls before ++ calls
  grows : Grows (fun _ entry ↦ entry.createCall? = none) before after

theorem Logs.refl (entries : List (Entry K S)) : Logs [] entries entries :=
  ⟨(List.append_nil _).symm, .refl entries⟩

theorem Logs.trans {middle : List (Entry K S)} {calls more : List (K × Nat)}
    (h : Logs calls before middle) (hmore : Logs more middle after) :
    Logs (calls ++ more) before after where
  bindCalls_eq := by rw [hmore.bindCalls_eq, h.bindCalls_eq, List.append_assoc]
  grows := h.grows.trans hmore.grows

/-- An entry that is a call of neither sort. -/
theorem logs_cons (hbind : entry.bindCall? = none) (hcreate : entry.createCall? = none) :
    Logs [] entries (entry :: entries) := by
  refine ⟨?_, .single hcreate⟩
  rw [bindCalls_cons, hbind, Option.toList_none]

theorem logs_bound (key : K) (kind : ViewKind) (view : Nat) (entries : List (Entry K S)) :
    Logs [(key, view)] entries (.bound key kind view :: entries) :=
  ⟨bindCalls_cons, .single rfl⟩

/-- A call to build a view is written down, and is no call to fill one. -/
theorem create_logs (kind : ViewKind) (step : Step H (Option V)) (journal : Journal H K S) :
    (create kind step).Ensures journal
      (fun _ t ↦ bindCalls t.entries = bindCalls journal.entries ∧
        Grows (fun _ entry ↦ entry.createCall? = some kind) journal.entries t.entries)
      fun _ ↦ True := by
  rw [create, onHost, Step.ensures_bind, Step.ensures_within]
  refine Step.ensures_of_forall (fun view? host ↦ ?_) fun _ ↦ trivial
  cases view? with
  | none => exact ⟨bindCalls_cons.trans (List.append_nil _), .single rfl⟩
  | some view => exact ⟨bindCalls_cons.trans (List.append_nil _), .single rfl⟩

end Journal

open Journal (Entry Grows Logs bindCalls)

namespace ViewStock

variable [ViewHandle H V S] {source : ViewSource K (Journal H K S) (Tracked K V S)} {key : K}

/-! ### One slot -/

section Slot

variable {slot t : Hosted (Journal H K S) (Slot K (Tracked K V S) S)}

/-- A view is filled by one call. -/
theorem present_logs (hsource : source.Journals) (selected : Bool) :
    (present source key selected).Ensures slot
      (fun _ t ↦ Logs [(key, slot.held.view.number)] slot.host.entries t.host.entries)
      fun _ ↦ True := by
  obtain ⟨kind, step, hbind⟩ := hsource.bind key
  simp only [present, Slot.onView, hbind, Journal.bind, Step.ensures_bind, Step.ensures_modify,
    Step.ensures_onPart, Step.ensures_within]
  have hstyled : Logs [] slot.host.entries (Slot.style selected slot).host.entries :=
    Journal.logs_cons rfl rfl
  exact Step.ensures_of_forall (fun _ _ ↦ hstyled.trans (Journal.logs_bound ..)) fun _ ↦ trivial

variable [Scalar S] {layout : Layout K S} {rect : Rect S}

/-- Placing a view is no call of either sort. -/
theorem place_logs (rect : Rect S) (force : Bool)
    (slot : Hosted (Journal H K S) (Slot K (Tracked K V S) S)) :
    Logs [] slot.host.entries (Slot.place rect force slot).host.entries :=
  Slot.place_induction rect slot force (fun view ↦ Logs [] slot.host.entries view.host.entries)
    (.refl _) (fun _ h ↦ h.trans (Journal.logs_cons rfl rfl))
    fun _ h ↦ h.trans (Journal.logs_cons rfl rfl)

/-- The view of a key that stays is filled if the pass rebinds, and this is counted. -/
theorem keep_logs (hsource : source.Journals) :
    (keep source layout key rect).Ensures slot
      (fun tally t ↦ tally = { rebound := layout.rebind.toNat } ∧
        Logs (if layout.rebind then [(key, slot.held.view.number)] else []) slot.host.entries
          t.host.entries)
      fun _ ↦ True := by
  rw [keep]
  cases layout.rebind with
  | false => exact ⟨rfl, place_logs rect layout.force slot⟩
  | true =>
    simp only [if_true, Step.ensures_bind]
    exact (present_logs hsource _).mono
      (fun _ t ht ↦ ⟨rfl, ht.trans (place_logs rect layout.force t)⟩) fun _ _ ↦ trivial

/-- The view that a key is given is filled, and this is counted. -/
theorem enter_logs (hsource : source.Journals) :
    (enter source layout key rect).Ensures slot
      (fun tally t ↦ tally = { bound := 1 } ∧
        Logs [(key, slot.held.view.number)] slot.host.entries t.host.entries)
      fun _ ↦ True := by
  simp only [enter, Step.ensures_bind]
  exact (present_logs hsource _).mono (fun _ t ht ↦ ⟨rfl, ht.trans (place_logs rect true t)⟩)
    fun _ _ ↦ trivial

end Slot

/-! ### Views in use -/

section Stock

variable [DecidableEq K] {stock : ViewStock K V S} {slot old : Slot K V S} {keys : List K}

omit [ViewHandle H V S] in
theorem liveCount_put_of_find? (h : stock.live.find? key = some old) :
    (stock.put key slot).liveCount = stock.liveCount :=
  Keyed.size_erase_of_find? h

omit [ViewHandle H V S] in
theorem liveCount_put_of_none (h : stock.live.find? key = none) :
    (stock.put key slot).liveCount = stock.liveCount + 1 :=
  congrArg (· + 1) (Keyed.size_erase_of_find?_eq_none h)

omit [ViewHandle H V S] in
/-- A view that is released is in use no more. -/
theorem liveCount_released (key : K) (stock : ViewStock K V S) :
    (stock.released key).liveCount + (stock.live.find? key).isSome.toNat = stock.liveCount := by
  cases hlive : stock.live.find? key with
  | none => rw [released_of_none hlive]; rfl
  | some slot =>
    simp only [released, hlive]
    exact Keyed.size_erase_of_find? hlive

omit [ViewHandle H V S] in
/-- Releasing the views of several keys answers by how many fewer views are in use. -/
theorem releaseAll_counts (keys : List K) (h : stock.Sound) :
    (releaseAll keys).Ensures stock
      (fun count left ↦ left = keys.foldl released stock ∧
        left.liveCount + count = stock.liveCount)
      fun _ ↦ False := by
  induction keys generalizing stock with
  | nil => exact ⟨rfl, rfl⟩
  | cons key rest ih =>
    have hkey := liveCount_released key stock
    simp only [releaseAll, Step.ensures_bind, Step.ensures_of_eq_ok (release_eq h key),
      Step.ensures_pure]
    refine (ih (h.released key)).mono (fun count left hleft ↦ ⟨hleft.1, ?_⟩) fun _ ↦ id
    have hrest := hleft.2
    omega

omit [ViewHandle H V S] in
theorem vacate_counts (rebind : Bool) (leaving : List K) (inWindow : K → Bool) (h : stock.Sound) :
    (vacate rebind leaving inWindow).Ensures stock
      (fun count left ↦ left = stock.vacated rebind leaving inWindow ∧
        left.liveCount + count = stock.liveCount)
      fun _ ↦ False := by
  rw [vacate, vacated]
  split
  · exact releaseAll_counts _ h
  · exact releaseAll_counts _ h

end Stock

/-! ### The books -/

variable [DecidableEq K] {rebind : Bool} {before after : ViewStock K (Tracked K V S) S}
  {slot : Slot K (Tracked K V S) S} {tally : Tally} {calls : List (K × Nat)}
  {s t u : Hosted (Journal H K S) (ViewStock K (Tracked K V S) S)}

/-- The call that fills the view of a key between two states of a stock, in a pass that rebinds or
does not: there is one if the key has a view afterwards, unless the view stayed and is not filled
again. -/
def newlyBound (rebind : Bool) (before after : ViewStock K (Tracked K V S) S) (key : K) :
    Option (K × Nat) :=
  ((after.live.find? key).filter fun slot ↦ rebind || before.kindOf? key != some slot.kind).map
    fun slot ↦ (key, slot.view.number)

omit [ViewHandle H V S] in
theorem newlyBound_of_none (h : after.live.find? key = none) :
    newlyBound rebind before after key = none := by
  rw [newlyBound, h]
  rfl

omit [ViewHandle H V S] in
theorem newlyBound_of_find? (h : after.live.find? key = some slot) :
    newlyBound rebind before after key =
      if rebind || before.kindOf? key != some slot.kind then some (key, slot.view.number)
      else none := by
  rw [newlyBound, h, Option.filter_some]
  split <;> rfl

omit [ViewHandle H V S] in
theorem newlyBound_congr {before' after' : ViewStock K (Tracked K V S) S}
    (hbefore : before'.live.find? key = before.live.find? key)
    (hafter : after'.live.find? key = after.live.find? key) :
    newlyBound rebind before' after' key = newlyBound rebind before after key := by
  rw [newlyBound, newlyBound, kindOf?, kindOf?, hbefore, hafter]

omit [ViewHandle H V S] in
theorem mem_newlyBound_iff {keys : List K}
    (hkeys : ∀ key, (after.live.find? key).isSome = true → key ∈ keys) {view : Nat} :
    (key, view) ∈ keys.filterMap (newlyBound rebind before after) ↔
      ∃ slot, after.live.find? key = some slot ∧ slot.view.number = view ∧
        (rebind = true ∨ before.kindOf? key ≠ some slot.kind) := by
  simp only [newlyBound, List.mem_filterMap, Option.map_eq_some_iff, Option.filter_eq_some_iff,
    Prod.mk.injEq, Bool.or_eq_true, bne_iff_ne]
  constructor
  · rintro ⟨_, -, slot, ⟨hslot, hnew⟩, rfl, hview⟩
    exact ⟨slot, hslot, hview, hnew⟩
  · rintro ⟨slot, hslot, hview, hnew⟩
    exact ⟨key, hkeys key (Option.isSome_of_eq_some hslot), slot, ⟨hslot, hnew⟩, rfl, hview⟩

/-- The counts agree with what was done between two states: with the calls to fill a view, of which
the given ones are all, with the views that were built, and with the views in use. -/
structure Booked (tally : Tally) (calls : List (K × Nat))
    (before after : Hosted (Journal H K S) (ViewStock K (Tracked K V S) S)) : Prop where
  bindCalls_eq : bindCalls after.host.entries = bindCalls before.host.entries ++ calls
  binds_eq : tally.binds = calls.length
  created_eq : after.host.created = before.host.created + tally.created
  liveCount_eq : after.held.liveCount + tally.released = before.held.liveCount + tally.bound

omit [ViewHandle H V S] [DecidableEq K] in
theorem Booked.refl (s : Hosted (Journal H K S) (ViewStock K (Tracked K V S) S)) :
    Booked {} [] s s :=
  ⟨(List.append_nil _).symm, rfl, rfl, rfl⟩

omit [ViewHandle H V S] [DecidableEq K] in
/-- Books add up. -/
theorem Booked.trans {more : Tally} {others : List (K × Nat)} (h : Booked tally calls s t)
    (hmore : Booked more others t u) : Booked (tally + more) (calls ++ others) s u where
  bindCalls_eq := by rw [hmore.bindCalls_eq, h.bindCalls_eq, List.append_assoc]
  binds_eq := by rw [Tally.binds_add, h.binds_eq, hmore.binds_eq, List.length_append]
  created_eq := by rw [hmore.created_eq, h.created_eq, Tally.created_add, Nat.add_assoc]
  liveCount_eq := by
    have hfirst := h.liveCount_eq
    have hlast := hmore.liveCount_eq
    rw [Tally.released_add, Tally.bound_add]
    omega

/-- Between two states the host was only asked for views of a kind of which the pool was empty, and
is still. -/
def Asks (before after : Hosted (Journal H K S) (ViewStock K (Tracked K V S) S)) : Prop :=
  Grows (fun _ entry ↦ ∀ kind, entry.createCall? = some kind →
      (before.held.pool kind).free = [] ∧ (after.held.pool kind).free = [])
    before.host.entries after.host.entries

omit [ViewHandle H V S] [DecidableEq K] in
/-- The host was not asked at all. -/
theorem asks_of_logs (h : Logs calls s.host.entries t.host.entries) : Asks s t :=
  h.grows.mono fun _ _ _ hnone kind hkind ↦ by rw [hnone] at hkind; cases hkind

/-! ### The turn of a key -/

variable [Scalar S] {layout : Layout K S} {base : Nat}

/-- The turn of a key, by its books. -/
structure Books (source : ViewSource K (Journal H K S) (Tracked K V S)) (layout : Layout K S)
    (key : K) (tally : Tally) (s t : Hosted (Journal H K S) (ViewStock K (Tracked K V S) S)) :
    Prop where
  booked : Booked tally (newlyBound layout.rebind s.held t.held key).toList s t
  kind_eq : ∀ slot, t.held.live.find? key = some slot → slot.kind = source.kind s.host key
  asks : Asks s t

omit [Scalar S] [ViewHandle H V S] in
/-- A key is given a view, which is filled for it. -/
theorem books_put {built : Nat} {pool : Pool (Slot K (Tracked K V S) S)}
    {start t : Hosted (Journal H K S) (Slot K (Tracked K V S) S)}
    (hkind : s.held.kindOf? key ≠ some (source.kind s.host key))
    (hstart : start.held.kind = source.kind s.host key) (hsame : Slot.SameView start t)
    (hcalls : bindCalls t.host.entries =
      bindCalls s.host.entries ++ [(key, start.held.view.number)])
    (hbuilt : start.host.created = s.host.created + built) :
    let stock := ((s.held.released key).setPool (source.kind s.host key) pool).put key t.held
    Asks s ⟨t.host, stock⟩ → Books source layout key
      ({ released := (s.held.live.find? key).isSome.toNat } + { bound := 1 } + { created := built })
      s ⟨t.host, stock⟩ := by
  intro stock hasks
  have hlive : stock.live.find? key = some t.held := find?_put.trans (if_pos rfl)
  have hslot : t.held.kind = source.kind s.host key := hsame.kind_eq.trans hstart
  have hnew : newlyBound layout.rebind s.held stock key = some (key, start.held.view.number) := by
    have hother : s.held.kindOf? key != some t.held.kind := by
      rw [hslot]
      exact bne_iff_ne.mpr hkind
    rw [newlyBound_of_find? hlive, hother, Bool.or_true, if_pos rfl, hsame.number_eq]
  have hreleased := liveCount_released key s.held
  have hfree : ((s.held.released key).setPool (source.kind s.host key) pool).live.find? key =
      none := find?_released.trans (if_pos rfl)
  have hput : stock.liveCount = (s.held.released key).liveCount + 1 := liveCount_put_of_none hfree
  refine ⟨⟨?calls, ?binds, ?created, ?live⟩, fun slot hfound ↦ ?kind, hasks⟩
  case calls => rw [hnew]; exact hcalls
  case binds => rw [hnew]; rfl
  case created =>
    rw [Tally.created_add]
    exact (hsame.created_eq.trans hbuilt).trans (congrArg _ (Nat.zero_add built).symm)
  case live =>
    simp only [Tally.released_add, Tally.bound_add]
    omega
  case kind =>
    obtain rfl := Option.some.inj (hlive.symm.trans hfound)
    exact hslot

/-- What the turn of a key comes to when it is not cut short. -/
theorem realize_books (hsource : source.Journals) (key : K) (h : s.held.Sound) :
    (realize source layout key).Ensures s (fun tally ↦ Books source layout key tally s)
      fun _ ↦ True := by
  refine realize_ensures h (fun _ _ ↦ trivial) ?kept ?reused ?asked
  case kept =>
    intro rect slot _ hlive hkind
    refine ((keep_ensures hsource _).and (keep_logs hsource)).mono (fun tally t ht ↦ ?_)
      fun _ _ ↦ trivial
    obtain ⟨⟨hsame, -⟩, rfl, hlogs⟩ := ht
    have hput : (s.held.put key t.held).live.find? key = some t.held := find?_put.trans (if_pos rfl)
    have hstays : s.held.kindOf? key = some t.held.kind :=
      kindOf?_eq_some_iff.mpr ⟨slot, hlive, hsame.kind_eq.symm⟩
    have hnew : newlyBound layout.rebind s.held (s.held.put key t.held) key =
        if layout.rebind then some (key, slot.view.number) else none := by
      rw [newlyBound_of_find? hput, hstays, bne_self_eq_false, Bool.or_false, hsame.number_eq]
    refine ⟨⟨?calls, ?binds, hsame.created_eq, ?live⟩, fun other hother ↦ ?kind, asks_of_logs hlogs⟩
    case calls =>
      rw [hnew]
      refine hlogs.bindCalls_eq.trans (congrArg _ ?_)
      split <;> rfl
    case binds => rw [hnew]; cases layout.rebind <;> rfl
    case live =>
      have hcount : (s.held.put key t.held).liveCount = s.held.liveCount :=
        liveCount_put_of_find? hlive
      exact hcount
    case kind =>
      obtain rfl := Option.some.inj (hput.symm.trans hother)
      exact hsame.kind_eq.trans hkind
  case reused =>
    intro rect slot rest _ hkind hpool
    have hslot : slot.kind = source.kind s.host key := h.kind_eq (hpool ▸ List.mem_cons_self)
    refine ((enter_ensures hsource _).and (enter_logs hsource)).mono (fun tally t ht ↦ ?_)
      fun _ _ ↦ trivial
    obtain ⟨⟨hsame, -⟩, rfl, hlogs⟩ := ht
    exact books_put hkind hslot hsame hlogs.bindCalls_eq rfl (asks_of_logs hlogs)
  case asked =>
    intro rect _ hkind hpool stock
    obtain ⟨step, hcreate⟩ := hsource.create s.host key
    rw [hcreate]
    refine ((Journal.create_ensures _ _ _).and (Journal.create_logs _ _ _)).mono
      (fun view? journal hview ↦ ?_) fun _ _ ↦ trivial
    obtain ⟨hview, hcalls, hgrows⟩ := hview
    -- The pool was found empty, and nothing was put into it since.
    have hempty : (stock.pool (source.kind s.host key)).free = [] := by
      rw [pool_setPool, if_pos rfl]
    have hasked {after : Hosted (Journal H K S) (ViewStock K (Tracked K V S) S)}
        (hpools : ∀ kind, after.held.pool kind = stock.pool kind)
        (hgrew : Grows (fun _ entry ↦ entry.createCall? = none) journal.entries
          after.host.entries) : Asks s after := by
      have hfits {entry : Entry K S} (hentry : ∀ kind, entry.createCall? = some kind →
          source.kind s.host key = kind) (kind : ViewKind) (hasks : entry.createCall? = some kind) :
          (s.held.pool kind).free = [] ∧ (after.held.pool kind).free = [] := by
        rw [hpools, ← hentry kind hasks]
        exact ⟨hpool, hempty⟩
      refine (hgrows.mono fun _ _ _ heq ↦ hfits fun kind hasks ↦ ?_).trans
        (hgrew.mono fun _ _ _ hnone ↦ hfits fun kind hasks ↦ ?_)
      · exact Option.some.inj (heq.symm.trans hasks)
      · cases hnone.symm.trans hasks
    cases view? with
    | none =>
      have hfree : stock.live.find? key = none := find?_released.trans (if_pos rfl)
      refine ⟨⟨?calls, ?binds, hview.1, liveCount_released key s.held⟩, fun slot hslot ↦ ?kind,
        hasked (fun _ ↦ rfl) (.refl _)⟩
      case calls => rw [newlyBound_of_none hfree]; exact hcalls.trans (List.append_nil _).symm
      case binds => rw [newlyBound_of_none hfree]; rfl
      case kind => cases hfree.symm.trans hslot
    | some view =>
      obtain ⟨-, -, hcreated, -⟩ := hview
      refine ((enter_ensures hsource _).and (enter_logs hsource)).mono (fun tally t ht ↦ ?_)
        fun _ _ ↦ trivial
      obtain ⟨⟨hsame, -⟩, rfl, hlogs⟩ := ht
      exact books_put hkind rfl hsame (hlogs.bindCalls_eq.trans (congrArg (· ++ _) hcalls))
        hcreated (hasked (fun _ ↦ rfl) hlogs.grows)

/-! ### The turns of all keys -/

/-- The turns of several keys, by their books. Each view is of the kind that the key had when its
turn came, and from turn to turn the host was only asked for views of which there were none. -/
structure Swept (source : ViewSource K (Journal H K S) (Tracked K V S)) (layout : Layout K S)
    (keys : List K) (tally : Tally)
    (s t : Hosted (Journal H K S) (ViewStock K (Tracked K V S) S)) : Prop where
  booked : Booked tally (keys.filterMap (newlyBound layout.rebind s.held t.held)) s t
  beside : ∀ key, key ∉ keys → t.held.live.find? key = s.held.live.find? key
  kind_eq : ∀ (i : Nat) (key : K) (slot : Slot K (Tracked K V S) S), keys[i]? = some key →
    t.held.live.find? key = some slot → ∃ before,
      (s :: turns source layout keys s)[i]? = some before ∧ slot.kind = source.kind before.host key
  asks : (s :: turns source layout keys s).IsChain Asks
  last : (s :: turns source layout keys s).getLast? = some t

/-- The turns of several keys only add to the journal. -/
theorem Swept.suffix {keys : List K} (h : Swept source layout keys tally s t) :
    s.host.entries <:+ t.host.entries :=
  Journal.suffix_of_stages (s := s) (t := t) h.asks h.last

/-- The turn of a key, followed by the turns of others. -/
theorem Books.cons {rest : List K} {more : Tally} (hkey : key ∉ rest)
    (h : Books source layout key tally s t) (hturn : Turn source layout key s t)
    (hrealize : realize source layout key s = .ok tally t)
    (hrest : Swept source layout rest more t u) :
    Swept source layout (key :: rest) (tally + more) s u := by
  have hturns : turns source layout (key :: rest) s = t :: turns source layout rest t := by
    rw [turns, hrealize]
  have hstays : u.held.live.find? key = t.held.live.find? key := hrest.beside key hkey
  refine ⟨?booked, fun other hother ↦ ?beside, fun i other slot hother hslot ↦ ?kind, ?asks, ?last⟩
  case booked =>
    have hnew : newlyBound layout.rebind s.held u.held key =
        newlyBound layout.rebind s.held t.held key := newlyBound_congr rfl hstays
    have hothers : rest.filterMap (newlyBound layout.rebind s.held u.held) =
        rest.filterMap (newlyBound layout.rebind t.held u.held) :=
      List.filterMap_congr fun other hother ↦
        newlyBound_congr (hturn.beside other fun heq ↦ hkey (heq ▸ hother)).symm rfl
    have hbooked := h.booked.trans hrest.booked
    rw [← hothers, ← hnew] at hbooked
    rw [List.filterMap_cons]
    cases hcall : newlyBound layout.rebind s.held u.held key <;> simpa [hcall] using hbooked
  case beside =>
    obtain ⟨hne, hother⟩ := List.ne_and_not_mem_of_not_mem_cons hother
    exact (hrest.beside other hother).trans (hturn.beside other hne)
  case kind =>
    rw [hturns]
    cases i with
    | zero =>
      obtain rfl := Option.some.inj hother
      exact ⟨s, rfl, h.kind_eq slot (hstays.symm.trans hslot)⟩
    | succ i => exact hrest.kind_eq i other slot hother hslot
  case asks => rw [hturns]; exact .cons_cons h.asks hrest.asks
  case last => rw [hturns, List.getLast?_cons_cons]; exact hrest.last

/-- What the turns of several keys come to when none is cut short. -/
theorem realizeAll_swept (hsource : source.Journals) {keys : List K} (hkeys : keys.Nodup)
    (h : Conserved base s) :
    (realizeAll source layout keys).Ensures s (fun tally ↦ Swept source layout keys tally s)
      fun _ ↦ True := by
  induction keys generalizing s with
  | nil => exact ⟨.refl s, fun _ _ ↦ rfl, nofun, .singleton s, rfl⟩
  | cons key rest ih =>
    obtain ⟨hkey, hkeys⟩ := List.nodup_cons.mp hkeys
    have hconserved : (realize source layout key).Ensures s _ _ := realize_conserved hsource key h
    have hbooks : (realize source layout key).Ensures s _ _ := realize_books hsource key h.sound
    simp only [realizeAll, Step.ensures_bind]
    refine ((hbooks.and (realize_turn hsource key h.sound)).and hconserved).and_eq_ok.mono
      (fun tally mid hmid ↦ ?_) fun _ _ ↦ trivial
    obtain ⟨⟨⟨hbooks, hturn⟩, hconserved⟩, heq⟩ := hmid
    exact (ih hkeys hconserved).mono (fun _ t ht ↦ hbooks.cons hkey hturn heq ht) fun _ ↦ id

/-! ### A completed pass -/

/-- A pass by its books: the views that are to go are released, and then each key has its turn. -/
theorem follow_swept (hsource : source.Journals) {leaving keys : List K} {inWindow : K → Bool}
    (hkeys : keys.Nodup) (hwindow : ∀ key, inWindow key = true ↔ key ∈ keys)
    (hleaving : ∀ key ∈ leaving, key ∉ keys) (h : Conserved base s)
    (htidy : layout.rebind = false → Tidy leaving keys s) :
    let vacated : Hosted _ _ := ⟨s.host, (vacate layout.rebind leaving inWindow).after s.held⟩
    (follow source layout leaving keys inWindow).Ensures s
      (fun tally t ↦ Booked tally (keys.filterMap (newlyBound layout.rebind s.held t.held)) s t ∧
        ∃ swept, Swept source layout keys swept vacated t)
      fun _ ↦ True := by
  intro vacated
  have hvacate : (vacate layout.rebind leaving inWindow).Ensures s.held _ _ :=
    vacate_counts layout.rebind leaving inWindow h.sound
  have hstays := find?_vacated hwindow hleaving htidy
  simp only [follow, Step.ensures_bind, Step.ensures_onHeld, Step.ensures_get, Step.ensures_require,
    Step.ensures_pure]
  refine hvacate.and_eq_ok.mono (fun count left hleft ↦ ?_) fun _ ↦ False.elim
  obtain ⟨⟨rfl, hcount⟩, heq⟩ := hleft
  have hvacated : vacated = ⟨s.host, s.held.vacated layout.rebind leaving inWindow⟩ :=
    congrArg _ (Step.after_of_eq_ok heq)
  have hconserved : Conserved base ⟨s.host, s.held.vacated layout.rebind leaving inWindow⟩ :=
    h.foldl_released _
  refine (realizeAll_swept hsource hkeys hconserved).mono (fun tally t ht ↦ ?_) fun _ _ ↦ trivial
  split
  · refine ⟨?_, tally, hvacated ▸ ht⟩
    have hcalls : keys.filterMap (newlyBound layout.rebind s.held t.held) =
        keys.filterMap (newlyBound layout.rebind
          (s.held.vacated layout.rebind leaving inWindow) t.held) :=
      List.filterMap_congr fun key hkey ↦
        newlyBound_congr ((hstays key).trans (if_pos hkey)).symm rfl
    have hreleased : Booked { released := count } [] s
        ⟨s.host, s.held.vacated layout.rebind leaving inWindow⟩ :=
      ⟨(List.append_nil _).symm, rfl, rfl, hcount⟩
    rw [hcalls]
    exact hreleased.trans ht.booked
  · trivial

end ViewStock

end Windowing
