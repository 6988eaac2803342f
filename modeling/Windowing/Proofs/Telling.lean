import Windowing.Proofs.Chronicle
import Windowing.Proofs.Following

/-!
# In what order views are told things

A view that comes to a key carries what it showed before, and how it was styled. It is styled for
its new key, then filled, and only then placed; and a view that stays is placed for the key that it
was last filled for. All of this can be read off the journal, entry by entry, however the work ends.

## Main definitions

* `ViewSource.KindsSteady` — building and styling views changes no kinds.
* `ViewStock.Vouched` — an entry is in order.
* `ViewStock.Chronicled` — the journal says of which kind each view is, and what each live one
  shows.

## Main results

* `ViewStock.realize_follows` — the turn of a key writes entries that are in order.
-/

namespace Windowing

open Journal (Entry Grows lastBound)

variable {H K V S : Type}

/-! ### Sources -/

/-- Building views and styling them does not change the kinds of items. -/
structure ViewSource.KindsSteady [ViewHandle H V S] (source : ViewSource K H V) : Prop where
  create : ∀ kind host, source.kind ((source.create kind).after host) = source.kind host
  setSelected : ∀ selected (view : Hosted H V),
    source.kind (ViewHandle.setSelected selected view).host = source.kind view.host

/-- What keeps its kinds all the time keeps them while it builds and styles views. -/
theorem ViewSource.KindsFixed.steady [ViewHandle H V S] {source : ViewSource K H V}
    (h : source.KindsFixed (S := S)) : source.KindsSteady (S := S) where
  create := h.create
  setSelected := h.setSelected

/-- Writing a journal changes no kinds. -/
theorem ItemSource.kindsSteady_journaled [ViewHandle H V S] {source : ItemSource H V}
    (h : source.views.KindsSteady) : (source.journaled (S := S)).views.KindsSteady where
  create := source.kind_create_journaled h.create
  setSelected selected view := h.setSelected selected (Journal.bare view)

/-- A source that writes a journal, in which each key is filled under the kind that it has. -/
structure ViewSource.Chronicles (source : ViewSource K (Journal H K S) (Tracked K V S)) : Prop where
  create : ∀ kind, ∃ step, source.create kind = Journal.create kind step
  bind : ∀ key, ∃ kind step, source.bind key = Journal.bind key kind step ∧
    ∀ journal, source.kind journal key = kind journal.host

theorem ItemSource.chronicles_views (source : ItemSource H V) :
    (source.journaled (S := S)).views.Chronicles where
  create kind := ⟨source.create kind, rfl⟩
  bind index := ⟨(source.kind · index), source.bind index, rfl, fun _ ↦ rfl⟩

theorem ViewSource.Chronicles.journals {source : ViewSource K (Journal H K S) (Tracked K V S)}
    (h : source.Chronicles) : source.Journals where
  create host key := h.create (source.kind host key)
  bind key := by
    obtain ⟨kind, step, hbind, -⟩ := h.bind key
    exact ⟨kind, step, hbind⟩

/-! ### One slot -/

section Slot

variable {steady : Prop} {asked : ViewKind} {selected : Bool} {key : K} {view : Nat}
  {past : List (Entry K S)} {entry : Entry K S}

/-- An entry about a view that is given to a key, or stays under it. The view is filled for this key
when it was styled for it, and placed when it was last filled for it. -/
def Slot.Told (steady : Prop) (asked : ViewKind) (selected : Bool) (key : K) (view : Nat)
    (past : List (Entry K S)) : Entry K S → Prop
  | .bound other kind number => other = key ∧ number = view ∧ (steady → kind = asked) ∧
      past.find? (Entry.isAbout view) = some (.styled selected view)
  | .moved _ number | .resized _ number => number = view ∧ lastBound view past = some key
  | .styled _ number => number = view
  | .created _ _ | .refused _ => False

/-- Such an entry is not about another view. -/
theorem Slot.Told.boundTo?_eq_none {other : Nat}
    (h : Slot.Told steady asked selected key view past entry) (hother : other ≠ view) :
    entry.boundTo? other = none := by
  cases entry with
  | bound _ _ number =>
    obtain ⟨-, rfl, -⟩ := h
    exact if_neg hother.symm
  | _ => rfl

end Slot

namespace ViewStock

variable [ViewHandle H V S] {source : ViewSource K (Journal H K S) (Tracked K V S)}
  {steady : Prop} {asked : ViewKind} {selected : Bool} {key : K}

/-- The work on the slot wrote entries in order, and its view was last filled for the key. -/
structure Tells (steady : Prop) (asked : ViewKind) (selected : Bool) (key : K)
    (before after : Hosted (Journal H K S) (Slot K (Tracked K V S) S)) : Prop where
  same : Slot.SameView before after
  grows : Grows (Slot.Told steady asked selected key before.held.view.number) before.host.entries
    after.host.entries
  lastBound_eq : lastBound before.held.view.number after.host.entries = some key

/-- A view is styled for the key and then filled for it, whether filling it is completed or not. -/
theorem present_tells (hsource : source.Chronicles) (hsteady : steady → source.KindsSteady)
    {slot : Hosted (Journal H K S) (Slot K (Tracked K V S) S)}
    (hasked : steady → source.kind slot.host key = asked) :
    (present source key selected).Ensures slot
      (fun _ ↦ Tells steady asked selected key slot) (Tells steady asked selected key slot) := by
  obtain ⟨kind, step, hbind, hkind⟩ := hsource.bind key
  let view := slot.held.view.number
  let styled := Slot.style selected slot
  have hfilled : steady → kind styled.host.host = asked := fun h ↦ by
    have hstyled := congrFun ((hsteady h).setSelected selected ⟨slot.host, slot.held.view⟩) key
    exact (hkind styled.host).symm.trans (hstyled.trans (hasked h))
  have htold : (present source key selected).Ensures slot
      (fun _ t ↦ t.host.entries =
        .bound key (kind styled.host.host) view :: .styled selected view :: slot.host.entries)
      fun t ↦ t.host.entries =
        .bound key (kind styled.host.host) view :: .styled selected view :: slot.host.entries := by
    simp only [present, Slot.onView, hbind, Journal.bind, Step.ensures_bind, Step.ensures_modify,
      Step.ensures_onPart, Step.ensures_within]
    exact Step.ensures_of_forall (fun _ _ ↦ rfl) fun _ ↦ rfl
  have hgrows : Grows (Slot.Told steady asked selected key view) slot.host.entries
      (.bound key (kind styled.host.host) view :: .styled selected view :: slot.host.entries) := by
    have hstyle : Grows (Slot.Told steady asked selected key view) slot.host.entries
        (.styled selected view :: slot.host.entries) := .single rfl
    refine hstyle.trans (.single ⟨rfl, rfl, hfilled, ?_⟩)
    simp [Entry.isAbout, Entry.view?]
  have htells {t : Hosted (Journal H K S) (Slot K (Tracked K V S) S)} (hsame : Slot.SameView slot t)
      (hentries : t.host.entries =
        .bound key (kind styled.host.host) view :: .styled selected view :: slot.host.entries) :
      Tells steady asked selected key slot t :=
    ⟨hsame, hentries ▸ hgrows, hentries ▸ Journal.lastBound_bound ..⟩
  exact ((present_ensures hsource.journals key selected slot).and htold).mono
    (fun _ _ ht ↦ htells ht.1.1 ht.2) fun _ ht ↦ htells ht.1.1 ht.2

section Placing

variable [Scalar S] {layout : Layout K S} {rect : Rect S}

/-- A view that was last filled for a key is placed for this key. -/
theorem place_tells (rect : Rect S) (force : Bool)
    {slot : Hosted (Journal H K S) (Slot K (Tracked K V S) S)}
    (hlast : lastBound slot.held.view.number slot.host.entries = some key) :
    Tells steady asked selected key slot (Slot.place rect force slot) := by
  let view := slot.held.view.number
  let told := Slot.Told (S := S) steady asked selected key view
  have htold {placed : Hosted (Journal H K S) (Tracked K V S)} {entry : Entry K S}
      (hentry : entry.boundTo? view = none)
      (hfits : lastBound view placed.host.entries = some key → told placed.host.entries entry)
      (h : Grows told slot.host.entries placed.host.entries ∧
        lastBound view placed.host.entries = some key) :
      Grows told slot.host.entries (entry :: placed.host.entries) ∧
        lastBound view (entry :: placed.host.entries) = some key :=
    ⟨h.1.trans (.single (hfits h.2)), (Journal.lastBound_cons_of_none hentry).trans h.2⟩
  obtain ⟨hnumber, hgrows, hbound⟩ := Slot.place_induction rect slot force
    (fun placed ↦ placed.held.number = view ∧ Grows told slot.host.entries placed.host.entries ∧
      lastBound view placed.host.entries = some key)
    ⟨rfl, .refl _, hlast⟩
    (fun placed ⟨hnumber, h⟩ ↦ ⟨hnumber, htold rfl (fun hbound ↦ ⟨hnumber, hbound⟩) h⟩)
    (fun placed ⟨hnumber, h⟩ ↦ ⟨hnumber, htold rfl (fun hbound ↦ ⟨hnumber, hbound⟩) h⟩)
  exact ⟨(Slot.place_sameView rect force slot).1, hgrows, hbound⟩

omit [ViewHandle H V S] [Scalar S] in
theorem Tells.trans {a b c : Hosted (Journal H K S) (Slot K (Tracked K V S) S)}
    (hab : Tells steady asked selected key a b) (hbc : Tells steady asked selected key b c) :
    Tells steady asked selected key a c where
  same := hab.same.trans hbc.same
  grows := hab.grows.trans (hab.same.number_eq ▸ hbc.grows)
  lastBound_eq := hab.same.number_eq ▸ hbc.lastBound_eq

theorem keep_tells (hsource : source.Chronicles) (hsteady : steady → source.KindsSteady)
    {slot : Hosted (Journal H K S) (Slot K (Tracked K V S) S)}
    (hasked : steady → source.kind slot.host key = asked)
    (hlast : lastBound slot.held.view.number slot.host.entries = some key) :
    (keep source layout key rect).Ensures slot
      (fun _ ↦ Tells steady asked (layout.selected key) key slot)
      (Tells steady asked (layout.selected key) key slot) := by
  rw [keep]
  cases layout.rebind with
  | false => exact place_tells rect layout.force hlast
  | true =>
    simp only [if_true, Step.ensures_bind]
    refine (present_tells hsource hsteady hasked).mono (fun _ t ht ↦ ?_) fun _ ht ↦ ht
    exact ht.trans (place_tells rect layout.force (ht.same.number_eq ▸ ht.lastBound_eq))

theorem enter_tells (hsource : source.Chronicles) (hsteady : steady → source.KindsSteady)
    {slot : Hosted (Journal H K S) (Slot K (Tracked K V S) S)}
    (hasked : steady → source.kind slot.host key = asked) :
    (enter source layout key rect).Ensures slot
      (fun _ ↦ Tells steady asked (layout.selected key) key slot)
      (Tells steady asked (layout.selected key) key slot) := by
  simp only [enter, Step.ensures_bind]
  refine (present_tells hsource hsteady hasked).mono (fun _ t ht ↦ ?_) fun _ ht ↦ ht
  exact ht.trans (place_tells rect true (ht.same.number_eq ▸ ht.lastBound_eq))

end Placing

/-! ### The turn of a key -/

section Turn

variable [DecidableEq K] {layout : Layout K S} {key other : K} {steady : Prop}
  {asked : K → ViewKind} {selected : K → Bool} {base : Nat} {entries : List (Entry K S)}
  {stock : ViewStock K (Tracked K V S) S}
  {s : Hosted (Journal H K S) (ViewStock K (Tracked K V S) S)}

/-- An entry is in order. A view is built once. It is filled for a key when it was styled for it
just before, and it is of the kind that was asked for; `steady` says when this is also the kind of
the key by then. A view is sized and moved when it is live under the key that it was last filled
for. -/
def Vouched (steady : Prop) (asked : K → ViewKind) (selected : K → Bool)
    (live : Keyed K (Slot K (Tracked K V S) S)) (past : List (Entry K S)) : Entry K S → Prop
  | .bound key kind view => .created (asked key) view ∈ past ∧ (steady → kind = asked key) ∧
      past.find? (Entry.isAbout view) = some (.styled (selected key) view)
  | .moved _ view | .resized _ view => ∃ key slot, live.find? key = some slot ∧
      slot.view.number = view ∧ lastBound view past = some key
  | .created _ view => ∀ kind, .created kind view ∉ past
  | _ => True

omit [ViewHandle H V S] in
/-- What is live under a key may be changed if it is the same view. -/
theorem Vouched.put {slot slot' : Slot K (Tracked K V S) S} {past : List (Entry K S)}
    {entry : Entry K S} (h : Vouched steady asked selected stock.live past entry)
    (hlive : stock.live.find? key = some slot) (hnumber : slot'.view.number = slot.view.number) :
    Vouched steady asked selected (stock.put key slot').live past entry := by
  have hplaced {view : Nat} (h : ∃ other found, stock.live.find? other = some found ∧
      found.view.number = view ∧ lastBound view past = some other) :
      ∃ other found, (stock.put key slot').live.find? other = some found ∧
        found.view.number = view ∧ lastBound view past = some other := by
    obtain ⟨other, found, hfound, hview, hlast⟩ := h
    by_cases hother : other = key
    · subst hother
      obtain rfl := Option.some.inj (hlive.symm.trans hfound)
      exact ⟨other, slot', find?_put.trans (if_pos rfl), hnumber.trans hview, hlast⟩
    · exact ⟨other, found, find?_put.trans ((if_neg hother).trans hfound), hview, hlast⟩
  cases entry with
  | moved position view => exact hplaced h
  | resized size view => exact hplaced h
  | _ => exact h

/-- The entries say of which kind each view was built, and that each live view was last filled for
its key. -/
structure Recorded (entries : List (Entry K S)) (stock : ViewStock K (Tracked K V S) S) : Prop where
  created : stock.Every fun slot ↦ .created slot.kind slot.view.number ∈ entries
  lastBound_eq : ∀ {key slot}, stock.live.find? key = some slot →
    lastBound slot.view.number entries = some key

omit [ViewHandle H V S] in
theorem Recorded.released (h : Recorded entries stock) (key : K) :
    Recorded entries (stock.released key) where
  created := h.created.released key
  lastBound_eq {other slot} hslot := by
    rw [find?_released] at hslot
    split at hslot
    · cases hslot
    · exact h.lastBound_eq hslot

omit [ViewHandle H V S] in
theorem Recorded.foldl_released (h : Recorded entries stock) (keys : List K) :
    Recorded entries (keys.foldl ViewStock.released stock) := by
  induction keys generalizing stock with
  | nil => exact h
  | cons key rest ih => exact ih (h.released key)

omit [ViewHandle H V S] in
theorem Recorded.setPool {kind : ViewKind} {pool : Pool (Slot K (Tracked K V S) S)}
    (h : Recorded entries stock)
    (hpool : ∀ slot ∈ pool.free, .created slot.kind slot.view.number ∈ entries) :
    Recorded entries (stock.setPool kind pool) :=
  ⟨h.created.setPool hpool, h.lastBound_eq⟩

omit [ViewHandle H V S] in
theorem Recorded.put {slot slot' : Slot K (Tracked K V S) S} (h : Recorded entries stock)
    (hlive : stock.live.find? key = some slot) (hnumber : slot'.view.number = slot.view.number)
    (hkind : slot'.kind = slot.kind) : Recorded entries (stock.put key slot') where
  created := by
    refine h.created.put ?_
    rw [hnumber, hkind]
    exact h.created.live hlive
  lastBound_eq {other found} hfound := by
    rw [find?_put] at hfound
    split at hfound
    · next heq =>
      obtain rfl := Option.some.inj hfound
      rw [heq, hnumber]
      exact h.lastBound_eq hlive
    · exact h.lastBound_eq hfound

/-- No view is lost, and the journal says what there is to say of each. -/
structure Chronicled (s : Hosted (Journal H K S) (ViewStock K (Tracked K V S) S)) : Prop where
  conserved : ∃ base, Conserved base s
  numbered : s.host.Numbered
  recorded : Recorded s.host.entries s.held

/-- The journal grew by entries that are in order, and says of each view what there is to say. -/
structure Follows (steady : Prop) (asked : K → ViewKind) (selected : K → Bool)
    (before after : Hosted (Journal H K S) (ViewStock K (Tracked K V S) S)) : Prop where
  chronicled : Chronicled after
  grows : Grows (Vouched steady asked selected after.held.live) before.host.entries
    after.host.entries

omit [ViewHandle H V S] in
/-- Two live views have different numbers. -/
theorem Conserved.number_ne (h : Conserved base s) {slot found : Slot K (Tracked K V S) S}
    (hslot : s.held.live.find? key = some slot) (hfound : s.held.live.find? other = some found)
    (hne : other ≠ key) : found.view.number ≠ slot.view.number := by
  have hnumbers := ((slots_perm_slotsWithout hslot).map fun slot ↦ slot.view.number).nodup_iff.mp
    (h.complete.numbers_perm.nodup_iff.mpr List.nodup_range')
  have herased : (s.held.live.erase key).find? other = some found :=
    (Keyed.find?_erase ..).trans ((if_neg hne).trans hfound)
  have hmem : found ∈ s.held.slotsWithout key :=
    List.mem_append_left _ (Keyed.mem_values_iff.mpr ⟨other, herased⟩)
  exact fun heq ↦ (List.nodup_cons.mp hnumbers).1 (List.mem_map.mpr ⟨found, hmem, heq⟩)

omit [ViewHandle H V S] in
/-- Work on the view given to a key is in order, if the views are told of already. -/
theorem follows_put {start t : Hosted (Journal H K S) (Slot K (Tracked K V S) S)}
    (hgrows : Grows (Vouched steady asked selected (stock.put key t.held).live) s.host.entries
      start.host.entries)
    (hnumbered : start.host.Numbered) (hrecorded : Recorded start.host.entries stock)
    (hkind : start.held.kind = asked key)
    (hbuilt : .created start.held.kind start.held.view.number ∈ start.host.entries)
    (ht : Tells steady (asked key) (selected key) key start t)
    (hconserved : Conserved base ⟨t.host, stock.put key t.held⟩) :
    Follows steady asked selected s ⟨t.host, stock.put key t.held⟩ where
  chronicled := by
    have hput : (stock.put key t.held).live.find? key = some t.held := find?_put.trans (if_pos rfl)
    have hslot : .created t.held.kind t.held.view.number ∈ t.host.entries := by
      rw [ht.same.kind_eq, ht.same.number_eq]
      exact ht.grows.mem hbuilt
    have hothers : stock.Every fun slot ↦ .created slot.kind slot.view.number ∈ t.host.entries :=
      fun slot hslot ↦ ht.grows.mem (hrecorded.created slot hslot)
    have hcounted : t.host.Numbered := fun kind view hview ↦
      ht.same.created_eq ▸ hnumbered kind view (ht.grows.mem_of_not_fits (fun _ ↦ id) hview)
    refine ⟨⟨base, hconserved⟩, hcounted, hothers.put hslot, fun {other found} hfound ↦ ?_⟩
    by_cases hother : other = key
    · subst hother
      obtain rfl := Option.some.inj (hput.symm.trans hfound)
      exact ht.same.number_eq ▸ ht.lastBound_eq
    · have hne := hconserved.number_ne hput hfound hother
      have hbeside : (stock.put key t.held).live.find? other = stock.live.find? other :=
        find?_put.trans (if_neg hother)
      have hold : stock.live.find? other = some found := hbeside.symm.trans hfound
      rw [ht.same.number_eq] at hne
      exact (ht.grows.lastBound_eq fun _ _ htold ↦ htold.boundTo?_eq_none hne).trans
        (hrecorded.lastBound_eq hold)
  grows := by
    refine hgrows.trans (ht.grows.mono fun past entry hpast htold ↦ ?_)
    have hplaced {number : Nat} (h : number = start.held.view.number ∧
        lastBound start.held.view.number past = some key) :
        ∃ other slot, (stock.put key t.held).live.find? other = some slot ∧
          slot.view.number = number ∧ lastBound number past = some other :=
      ⟨key, t.held, find?_put.trans (if_pos rfl), ht.same.number_eq.trans h.1.symm, h.1 ▸ h.2⟩
    cases entry with
    | bound other kind number =>
      obtain ⟨rfl, rfl, hsteady, hstyled⟩ := htold
      exact ⟨hkind ▸ hpast.subset hbuilt, hsteady, hstyled⟩
    | moved position number => exact hplaced htold
    | resized size number => exact hplaced htold
    | created kind number => exact htold.elim
    | _ => trivial

omit [ViewHandle H V S] in
/-- The views that the host builds, and those it refuses to build, are written down. -/
theorem create_grows (steady : Prop) (asked : K → ViewKind) (selected : K → Bool)
    (hsource : source.Chronicles) (kind : ViewKind) {journal : Journal H K S}
    (hnumbered : journal.Numbered) :
    let fits := fun past entry ↦ ∀ live : Keyed K (Slot K (Tracked K V S) S),
      Vouched steady asked selected live past entry
    (source.create kind).Ensures journal
      (fun view? t ↦ Grows fits journal.entries t.entries ∧ t.Numbered ∧
        (∀ view, lastBound view t.entries = lastBound view journal.entries) ∧
        ∀ view ∈ view?, .created kind view.number ∈ t.entries)
      fun t ↦ t.entries = journal.entries ∧ t.Numbered := by
  intro fits
  obtain ⟨step, hcreate⟩ := hsource.create kind
  rw [hcreate, Journal.create, Journal.onHost, Step.ensures_bind, Step.ensures_within]
  refine Step.ensures_of_forall (fun view? host ↦ ?_) fun _ ↦ ⟨rfl, hnumbered⟩
  cases view? with
  | none =>
    have hcounted : Journal.Numbered { journal with host } := hnumbered
    refine ⟨.single fun _ ↦ trivial, hcounted.write fun _ _ heq ↦ ?_, fun _ ↦ rfl, fun _ hview ↦ ?_⟩
    · cases heq
    · cases hview
  | some view =>
    refine ⟨.single fun _ kind hold ↦ ?_, fun kind view hview ↦ ?_, fun _ ↦ rfl, ?_⟩
    · exact Nat.lt_irrefl _ (hnumbered kind _ hold)
    · rcases List.mem_cons.mp hview with heq | hold
      · obtain ⟨-, rfl⟩ := Entry.created.inj heq
        exact Nat.lt_succ_self _
      · exact Nat.lt_succ_of_lt (hnumbered kind view hold)
    · rintro _ ⟨⟩
      exact List.mem_cons_self

variable [Scalar S]

/-- The turn of a key writes entries that are in order, however it ends. -/
theorem realize_follows (hsource : source.Chronicles) (hsteady : steady → source.KindsSteady)
    (key : K) (h : Chronicled s) :
    (realize source layout key).Ensures s
      (fun _ ↦ Follows steady (source.kind s.host) layout.selected s)
      (Follows steady (source.kind s.host) layout.selected s) := by
  obtain ⟨⟨base, hconserved⟩, hnumbered, hrecorded⟩ := h
  have hreleased := hconserved.released key
  have hfree : (s.held.released key).live.find? key = none := by simp [find?_released]
  refine realize_ensures hconserved.sound ?lost ?kept ?reused ?asked
  case lost => exact fun _ _ ↦ ⟨⟨⟨base, hconserved⟩, hnumbered, hrecorded⟩, .refl _⟩
  case kept =>
    intro rect slot _ hlive hkind
    have hput {t : Hosted (Journal H K S) (Slot K (Tracked K V S) S)}
        (ht : Tells steady (source.kind s.host key) (layout.selected key) key ⟨s.host, slot⟩ t) :=
      follows_put (.refl _) hnumbered hrecorded hkind (hrecorded.created.live hlive) ht
        (hconserved.work hlive ht.same)
    exact (keep_tells hsource hsteady (fun _ ↦ rfl) (hrecorded.lastBound_eq hlive)).mono
      (fun _ _ ↦ hput) fun _ ↦ hput
  case reused =>
    intro rect slot rest _ hkind hpool
    have hslot : slot ∈ (s.held.pool (source.kind s.host key)).free := hpool ▸ List.mem_cons_self
    have hslotKind : slot.kind = source.kind s.host key := hconserved.sound.kind_eq hslot
    have hothers : Recorded s.host.entries
        ((s.held.released key).setPool (source.kind s.host key) ⟨rest⟩) :=
      (hrecorded.released key).setPool fun other hother ↦
        hrecorded.created.pooled (hpool ▸ List.mem_cons_of_mem _ hother)
    rw [← pool_released_of_kind hkind] at hpool
    have hput {t : Hosted (Journal H K S) (Slot K (Tracked K V S) S)}
        (ht : Tells steady (source.kind s.host key) (layout.selected key) key
          ⟨s.host, slot.under key⟩ t) :=
      follows_put (.refl _) hnumbered hothers hslotKind (hrecorded.created.pooled hslot) ht
        (hreleased.reuse hfree hpool ht.same)
    exact (enter_tells hsource hsteady fun _ ↦ rfl).mono (fun _ _ ↦ hput) fun _ ↦ hput
  case asked =>
    intro rect _ hkind hpool stock
    rw [← pool_released_of_kind hkind] at hpool
    have hothers : Recorded s.host.entries stock := (hrecorded.released key).setPool (by simp)
    obtain ⟨step, hstep⟩ := hsource.journals.create s.host key
    have hcreate := Journal.create_ensures (source.kind s.host key) step s.host
    rw [← hstep] at hcreate
    have hkinds : (source.create (source.kind s.host key)).Ensures s.host
        (fun _ host ↦ steady → source.kind host = source.kind s.host)
        fun host ↦ steady → source.kind host = source.kind s.host :=
      Step.ensures_forall fun h ↦ Step.ensures_iff_after.mpr ((hsteady h).create ..)
    have hgrows := create_grows steady (source.kind s.host) layout.selected hsource
      (source.kind s.host key) hnumbered
    refine ((hcreate.and hkinds).and hgrows).mono (fun view? journal ht ↦ ?_) fun journal ht ↦ ?_
    · obtain ⟨⟨hview, hkinds⟩, hgrows, hnumbered, hlast, hbuilt⟩ := ht
      have hothers : Recorded journal.entries stock :=
        ⟨fun slot hslot ↦ hgrows.mem (hothers.created slot hslot),
          fun hlive ↦ (hlast _).trans (hothers.lastBound_eq hlive)⟩
      cases view? with
      | none => exact ⟨⟨⟨base, hreleased.setPool_nil hpool hview.1⟩, hnumbered, hothers⟩,
          hgrows.mono fun _ _ _ hfits ↦ hfits _⟩
      | some view =>
        obtain ⟨hnumber, hviewKind, hcreated, -⟩ := hview
        have hput {t : Hosted (Journal H K S) (Slot K (Tracked K V S) S)}
            (ht : Tells steady (source.kind s.host key) (layout.selected key) key
              ⟨journal, (Slot.ofView view (source.kind s.host key)).under key⟩ t) :=
          follows_put (hgrows.mono fun _ _ _ hfits ↦ hfits _) hnumbered hothers rfl
            (hbuilt view rfl) ht (hreleased.build hfree hpool hnumber hviewKind hcreated ht.same)
        exact (enter_tells hsource hsteady fun h ↦ congrFun (hkinds h) key).mono
          (fun _ _ ↦ hput) fun _ ↦ hput
    · obtain ⟨⟨⟨hcreated, -⟩, -⟩, hentries, hnumbered⟩ := ht
      exact ⟨⟨⟨base, hreleased.setPool_nil hpool hcreated⟩, hnumbered, hentries ▸ hothers⟩,
        hentries ▸ .refl _⟩

/-! ### The turns of all keys -/

/-- The states of the views and the host after the turn of each key, up to one that is cut short. -/
def turns (source : ViewSource K (Journal H K S) (Tracked K V S)) (layout : Layout K S) :
    List K → Hosted (Journal H K S) (ViewStock K (Tracked K V S) S) →
      List (Hosted (Journal H K S) (ViewStock K (Tracked K V S) S))
  | [], _ => []
  | key :: rest, s =>
    match realize source layout key s with
    | .ok _ t => t :: turns source layout rest t
    | .error _ t => [t]

/-- Each turn writes entries that are in order, and the last one leaves what all of them do. -/
theorem turns_follow (hsource : source.Chronicles) (hsteady : steady → source.KindsSteady)
    (layout : Layout K S) (keys : List K) (h : Chronicled s) :
    (s :: turns source layout keys s).IsChain (fun before after ↦
        Follows steady (source.kind before.host) layout.selected before after) ∧
      (s :: turns source layout keys s).getLast? =
        some ((realizeAll source layout keys).after s) ∧
      Chronicled ((realizeAll source layout keys).after s) := by
  induction keys generalizing s with
  | nil => exact ⟨.singleton s, rfl, h⟩
  | cons key rest ih =>
    have hturn : Follows steady (source.kind s.host) layout.selected s
        ((realize source layout key).after s) :=
      Step.ensures_iff_after.mp (realize_follows hsource hsteady key h)
    rw [turns, realizeAll, Step.after_bind]
    rw [Step.after] at hturn
    cases hrealize : realize source layout key s with
    | ok tally t =>
      rw [hrealize] at hturn
      have hafter := Step.after_bind_pure (realizeAll source layout rest) (tally + ·) t
      obtain ⟨hchain, hlast, hrest⟩ := ih hturn.chronicled
      exact ⟨.cons_cons hturn hchain, hlast.trans (congrArg some hafter.symm),
        (congrArg Chronicled hafter).mpr hrest⟩
    | error fault t =>
      rw [hrealize] at hturn
      exact ⟨.cons_cons hturn (.singleton t), rfl, hturn.chronicled⟩

/-- After the turns a pass does nothing more to the views. -/
theorem after_follow (h : s.held.Sound) (leaving keys : List K) (inWindow : K → Bool) :
    (follow source layout leaving keys inWindow).after s = (realizeAll source layout keys).after
      ⟨s.host, (vacate layout.rebind leaving inWindow).after s.held⟩ := by
  obtain ⟨count, hvacate⟩ := vacate_eq h layout.rebind leaving inWindow
  rw [Step.after_of_eq_ok hvacate]
  let vacated : Hosted _ _ := ⟨s.host, s.held.vacated layout.rebind leaving inWindow⟩
  let ends (t : Hosted (Journal H K S) (ViewStock K (Tracked K V S) S)) : Prop :=
    t = (realizeAll source layout keys).after vacated
  have hturns : (realizeAll source layout keys).Ensures vacated (fun _ ↦ ends) ends :=
    Step.ensures_iff_after.mpr rfl
  have hfollow : (follow source layout leaving keys inWindow).Ensures s (fun _ ↦ ends) ends := by
    simp only [follow, Step.ensures_bind, Step.ensures_onHeld, Step.ensures_of_eq_ok hvacate,
      Step.ensures_get, Step.ensures_require, Step.ensures_pure, ite_self]
    exact hturns
  have hends := Step.ensures_iff_after.mp hfollow
  exact hends

/-! ### Beside the turns -/

omit [ViewHandle H V S] [Scalar S] in
theorem Chronicled.empty {journal : Journal H K S} (h : journal.Numbered) :
    Chronicled (V := V) ⟨journal, ViewStock.empty⟩ where
  conserved := ⟨_, .empty journal⟩
  numbered := h
  recorded := ⟨.empty _, fun hslot ↦ by simp [ViewStock.empty] at hslot⟩

omit [ViewHandle H V S] [Scalar S] in
/-- Releasing the views that are to go does not fail, and nothing else is to be said of them. -/
theorem Chronicled.vacate (h : Chronicled s) (rebind : Bool) (leaving : List K)
    (inWindow : K → Bool) :
    Chronicled ⟨s.host, (vacate rebind leaving inWindow).after s.held⟩ := by
  obtain ⟨⟨base, hconserved⟩, hnumbered, hrecorded⟩ := h
  obtain ⟨count, hvacate⟩ := vacate_eq hconserved.sound rebind leaving inWindow
  rw [Step.after_of_eq_ok hvacate]
  exact ⟨⟨base, hconserved.foldl_released _⟩, hnumbered, hrecorded.foldl_released _⟩

omit [Scalar S] in
/-- Filling a live view again writes entries that are in order, if it is of the kind asked for. -/
theorem refill_follows (hsource : source.Chronicles) (hsteady : steady → source.KindsSteady)
    (hkind : s.held.kindOf? key = some (source.kind s.host key)) (h : Chronicled s) :
    (refill source key (selected key)).Ensures s
      (fun _ ↦ Follows steady (source.kind s.host) selected s)
      (Follows steady (source.kind s.host) selected s) := by
  obtain ⟨⟨base, hconserved⟩, hnumbered, hrecorded⟩ := h
  obtain ⟨slot, hlive, hslot⟩ := kindOf?_eq_some_iff.mp hkind
  have hput {t : Hosted (Journal H K S) (Slot K (Tracked K V S) S)}
      (ht : Tells steady (source.kind s.host key) (selected key) key ⟨s.host, slot⟩ t) :=
    follows_put (.refl _) hnumbered hrecorded hslot (hrecorded.created.live hlive) ht
      (hconserved.work hlive ht.same)
  simp only [refill, Step.ensures_bind, ensures_onLive, hlive]
  exact (present_tells hsource hsteady fun _ ↦ rfl).mono (fun _ _ ↦ hput) fun _ ↦ hput

omit [Scalar S] in
/-- Work on views beside a pass keeps the journal in order. -/
theorem upheld_follows (start : Hosted (Journal H K S) (ViewStock K (Tracked K V S) S)) :
    Upheld (Follows steady asked selected start) where
  withHost host h := by
    obtain ⟨⟨⟨base, hconserved⟩, hnumbered, hrecorded⟩, hgrows⟩ := h
    exact ⟨⟨⟨base, hconserved.sound, hconserved.complete.congr rfl⟩, hnumbered, hrecorded⟩, hgrows⟩
  style {s key slot} chosen h hlive := by
    intro styled
    obtain ⟨⟨⟨base, hconserved⟩, hnumbered, hrecorded⟩, hgrows⟩ := h
    have hput : Recorded s.host.entries (s.held.put key styled.held) := hrecorded.put hlive rfl rfl
    have hstyled : Recorded (.styled chosen slot.view.number :: s.host.entries)
        (s.held.put key styled.held) :=
      ⟨fun other hother ↦ List.mem_cons_of_mem _ (hput.created other hother), hput.lastBound_eq⟩
    have hput : Grows (Vouched steady asked selected (s.held.put key styled.held).live)
        start.host.entries s.host.entries := hgrows.mono fun _ _ _ hentry ↦ hentry.put hlive rfl
    have hcounted : (s.host.write (.styled chosen slot.view.number)).Numbered :=
      hnumbered.write nofun
    exact ⟨⟨⟨base, hconserved.work hlive (Slot.style_sameView chosen ⟨s.host, slot⟩)⟩, hcounted,
      hstyled⟩, hput.trans (.single trivial)⟩
  editView {s key slot} change h hlive := by
    intro view
    obtain ⟨⟨⟨base, hconserved⟩, hnumbered, hrecorded⟩, hgrows⟩ := h
    exact ⟨⟨⟨base, hconserved.work hlive (Slot.edit_sameView change ⟨s.host, slot⟩)⟩,
      hnumbered, hrecorded.put hlive rfl rfl⟩, hgrows.mono fun _ _ _ hentry ↦ hentry.put hlive rfl⟩

end Turn

end ViewStock

end Windowing
