import Windowing.Proofs.Collection.Repeating
import Windowing.Proofs.Remembering
import Windowing.Proofs.Table.Repeating

/-!
# Views are where they are to be

A pass does not tell a view its size or its position again if they are those that it was told last.
No view is out of place for that: after a completed pass each live view was last given the size and
the position that the state of the collection or the table asks for, whether it stayed, came from a
pool, or was given to its key by a pass that a fault cut short.

## Main results

* `views_in_place` — for collections and for tables, live views are where they are to be.
-/

namespace Windowing

variable {H V : Type} [ViewHandle H V Rat]

/-! ### Collections -/

namespace Collection

variable {E M : Type} [ExtentModel M Rat] [ResizableModel M Rat] [CrossPlacement M Rat]

theorem remembering_runAll (edit : E → Step M (Reply Rat)) (source : ItemSource H V)
    (calls : List (Call E H V Rat))
    {s : Hosted (Journal H Nat Rat) (Collection M (Tracked Nat V Rat) Rat)}
    (h : StockHas ViewStock.Remembering s) :
    StockHas ViewStock.Remembering (Step.runAll (Call.record edit source) calls s).2 :=
  stockHas_runAll ViewStock.upheld_remembering edit .empty
    (fun index selected {_} ↦ ViewStock.refill_remembers source.journals_views index selected)
    (fun layout leaving keys inWindow {_} ↦
      ViewStock.follow_remembers source.journals_views layout leaving keys inWindow) calls h

omit [ResizableModel M Rat] [ViewHandle H V Rat] in
/-- A live view in its place was told the rectangle of its item. -/
theorem InPlace.told {items : Collection M (Tracked Nat V Rat) Rat} (h : items.InPlace)
    (hevery : items.stock.Every Slot.Remembers) {index : Nat}
    {slot : Slot Nat (Tracked Nat V Rat) Rat} (hslot : items.stock.live.find? index = some slot) :
    ∃ extent, ExtentModel.extentOf items.model index = .ok extent ∧
      let rect := items.axis.rect (items.viewport.positionOf index, extent)
        (CrossPlacement.crossSpan items.model index items.crossExtent)
      slot.view.size = some rect.size ∧ slot.view.position = some rect.origin := by
  have hkey := Keyed.mem_keys_of_find? hslot
  have hindex := IndexRange.contains_iff.mp (List.all_eq_true.mp h.all_contains index hkey)
  obtain ⟨rect, hrect, hplaced⟩ := h.placed index (IndexRange.mem_toList.mpr hindex) slot hslot
  change items.placement index = .ok rect at hrect
  rw [placement] at hrect
  cases hextent : ExtentModel.extentOf items.model index with
  | error fault =>
    rw [hextent] at hrect
    cases hrect
  | ok extent =>
    rw [hextent] at hrect
    obtain rfl := Except.ok.inj hrect
    exact ⟨extent, rfl, hevery.live hslot _ hplaced⟩

end Collection

/-! ### Tables -/

namespace Table

theorem remembering_runAll (source : TableSource H V) (calls : List (Call H Rat))
    {s : Hosted (Journal H CellId Rat) (Table (Tracked CellId V Rat) Rat)}
    (h : StockHas ViewStock.Remembering s) :
    StockHas ViewStock.Remembering (Step.runAll (Call.record source) calls s).2 :=
  stockHas_runAll ViewStock.upheld_remembering .empty
    (fun cell selected {_} ↦ ViewStock.refill_remembers source.journals_views cell selected)
    (fun layout leaving cells inWindow {_} ↦
      ViewStock.follow_remembers source.journals_views layout leaving cells inWindow) calls h

omit [ViewHandle H V Rat] in
/-- A live view in its place was told the rectangle of its cell. -/
theorem InPlace.told {table : Table (Tracked CellId V Rat) Rat} (h : table.InPlace)
    (hevery : table.stock.Every Slot.Remembers) {cell : CellId}
    {slot : Slot CellId (Tracked CellId V Rat) Rat}
    (hslot : table.stock.live.find? cell = some slot) :
    slot.view.size = some (table.placement cell).size ∧
      slot.view.position = some (table.placement cell).origin := by
  have hkey := Keyed.mem_keys_of_find? hslot
  have hcell := TableWindow.mem_cells_iff.mpr (List.all_eq_true.mp h.all_contains cell hkey)
  obtain ⟨rect, hrect, hplaced⟩ := h.placed cell hcell slot hslot
  obtain rfl : table.placement cell = rect := Except.ok.inj hrect
  exact hevery.live hslot _ hplaced

end Table

/-! ### After every pass -/

/-- After every pass that a run of calls completes, the size and the position that each live view
was last given are those of the rectangle of its item: along the scroll axis from where the item
starts in the viewport over its extent, and across it over its lane. In a table the rectangle is
that of the row and the column. The host may tell views nothing itself, but passes may have been cut
short. The runs are recorded to say so, and end where the runs without the record do. -/
theorem views_in_place (host : H) (mode : SelectionMode) (lookahead : Nat) :
    (∀ {E M : Type} [ExtentModel M Rat] [ResizableModel M Rat] [CrossPlacement M Rat]
      (edit : E → Step M (Reply Rat)) (source : ItemSource H V) (model : M) (axis : Axis)
      (calls : List (Collection.Call E H V Rat)) (call : Collection.Call E H V Rat)
      {pass : Pass IndexRange Nat}
      {s t : Hosted (Journal H Nat Rat) (Collection M (Tracked Nat V Rat) Rat)},
      let start := Collection.recorded host model axis mode lookahead
      let before := (Step.runAll (Collection.Call.record edit source) calls start).2
      call.journaled.lead edit source.journaled before = .ok true s →
      Collection.layout source.journaled s = .ok pass t →
      (call.record edit source).after before = t ∧
        (call.perform edit source).after (Step.runAll (Collection.Call.perform edit source) calls
          ⟨host, Collection.initial model axis mode lookahead⟩).2 = Collection.plain t ∧
        ∀ index slot, t.held.stock.live.find? index = some slot →
          ∃ extent, ExtentModel.extentOf t.held.model index = .ok extent ∧
            let start := ExtentModel.offsetOf t.held.model index - t.held.viewport.offset
            let rect := t.held.axis.rect (start, extent)
              (CrossPlacement.crossSpan t.held.model index t.held.crossExtent)
            slot.view.size = some rect.size ∧ slot.view.position = some rect.origin) ∧
    ∀ (source : TableSource H V) (rows cols : Strip Rat) (calls : List (Table.Call H Rat))
      (call : Table.Call H Rat) {pass : Pass TableWindow CellId}
      {s t : Hosted (Journal H CellId Rat) (Table (Tracked CellId V Rat) Rat)},
      let start := Table.recorded host rows cols mode lookahead
      let before := (Step.runAll (Table.Call.record source) calls start).2
      call.journaled.lead source.journaled before = .ok true s →
      Table.layout source.journaled s = .ok pass t →
      (call.record source).after before = t ∧
        (call.perform source).after (Step.runAll (Table.Call.perform source) calls
          ⟨host, Table.initial rows cols mode lookahead⟩).2 = Table.plain t ∧
        ∀ cell slot, t.held.stock.live.find? cell = some slot →
          let top := t.held.rows.model.offsetOf cell.row - t.held.rows.offset
          let left := t.held.cols.model.offsetOf cell.col - t.held.cols.offset
          let rect := Rect.ofOrigin ⟨left, top⟩ (t.held.cols.model.extentOf cell.col)
            (t.held.rows.model.extentOf cell.row)
          slot.view.size = some rect.size ∧ slot.view.position = some rect.origin := by
  refine ⟨fun {E M} _ _ _ edit source model axis calls call {pass s t} ↦ ?items,
    fun source rows cols calls call {pass s t} ↦ ?cells⟩
  case items =>
    intro start before hlead hpass
    have hstart := Collection.recorded_coherent (V := V) host model axis mode lookahead
    have hs := Collection.coherent_of_lead hstart hlead
    have hplace := (Collection.layout_inPlace source hs).of_ok hpass
    have hafter := Collection.Call.after_perform_of_lead hlead hpass
    have hplain := Collection.after_recorded edit source host model axis mode lookahead calls call
    have hbefore := Collection.remembering_runAll edit source calls (s := start) (.empty _)
    have hafterwards : Collection.StockHas ViewStock.Remembering t :=
      hafter ▸ Collection.remembering_runAll edit source [call] hbefore
    exact ⟨hafter, hplain.trans (congrArg _ hafter), fun _ _ ↦ hplace.told hafterwards.every⟩
  case cells =>
    intro start before hlead hpass
    have hstart := Table.recorded_coherent (V := V) host rows cols mode lookahead
    have hs := Table.coherent_of_lead hstart hlead
    have hplace := (Table.layout_inPlace source hs).of_ok hpass
    have hafter := Table.Call.after_perform_of_lead hlead hpass
    have hplain := Table.after_recorded source host rows cols mode lookahead calls call
    have hbefore := Table.remembering_runAll source calls (s := start) (.empty _)
    have hafterwards : Table.StockHas ViewStock.Remembering t :=
      hafter ▸ Table.remembering_runAll source [call] hbefore
    exact ⟨hafter, hplain.trans (congrArg _ hafter), fun _ _ ↦ hplace.told hafterwards.every⟩

/-- A view whose pass was cut short before it was placed, and one that came from the pool, are where
they are to be after the next pass, in a list and in a table. -/
theorem views_in_place_rehearsal :
    (let source : ItemSource (Rehearsal Nat Nat) (BlankView Rat) := Rehearsal.items
      let host : Rehearsal Nat Nat :=
        { (Rehearsal.ofPoll 5 : Rehearsal Nat Nat) with bindFails := some 1 }
      let calls : List (Collection.Call (Strip.Call Rat) (Rehearsal Nat Nat) (BlankView Rat) Rat) :=
        [.setViewportSize ⟨100, 15⟩, .layout, .host ({ · with bindFails := none }), .scrollTo 5]
      let s := (Step.runAll (Collection.Call.record Strip.Call.perform source) calls
        (Collection.recorded host { Strip.empty with uniform := 10 } .vertical .none 0)).2
      ∃ pass t slot, Collection.layout source.journaled s = .ok pass t ∧
        t.held.stock.live.find? 1 = some slot ∧
        slot.view.size = some ⟨100, 10⟩ ∧ slot.view.position = some ⟨0, 5⟩) ∧
    (let source : TableSource (Rehearsal (Nat × Nat) CellId) (BlankView Rat) := Rehearsal.cells
      let strip : Strip Rat := { Strip.empty with uniform := 20 }
      let calls : List (Table.Call (Rehearsal (Nat × Nat) CellId) Rat) :=
        [.setViewportSize ⟨20, 15⟩, .layout, .scrollTo ⟨25, 0⟩]
      let s := (Step.runAll (Table.Call.record source) calls
        (Table.recorded (Rehearsal.ofPoll (1, 5)) strip strip .none 0)).2
      ∃ pass t slot, Table.layout source.journaled s = .ok pass t ∧
        t.held.stock.live.find? ⟨0, 2⟩ = some slot ∧
        slot.view.size = some ⟨20, 20⟩ ∧ slot.view.position = some ⟨15, 0⟩) := by
  constructor
  · intro source host calls s
    obtain ⟨pass, t, hpass, htest⟩ := Step.exists_eq_ok_and (Collection.layout source.journaled) s
      (fun _ t ↦ (t.held.stock.live.find? 1).isSome && decide (t.held.axis = .vertical) &&
        decide (t.held.model.extentOf 1 = 10) && decide (t.held.model.offsetOf 1 = 10) &&
        decide (t.held.viewport.offset = 5) && decide (t.held.crossExtent = 100))
      (by decide +kernel)
    simp only [Bool.and_eq_true, decide_eq_true_eq] at htest
    obtain ⟨⟨⟨⟨⟨hlive, haxis⟩, hextent⟩, hstart⟩, hoffset⟩, hcross⟩ := htest
    obtain ⟨slot, hslot⟩ := Option.isSome_iff_exists.mp hlive
    obtain ⟨-, -, hplace⟩ := (views_in_place host .none 0).1 Strip.Call.perform source
      { Strip.empty with uniform := 10 } .vertical calls .layout rfl hpass
    obtain ⟨extent, hfound, hsize, hposition⟩ := hplace 1 slot hslot
    obtain rfl : 10 = extent := hextent.symm.trans (Except.ok.inj hfound)
    have hrect : Axis.vertical.rect
        (ExtentModel.offsetOf t.held.model 1 - t.held.viewport.offset, 10)
        (CrossPlacement.crossSpan t.held.model 1 t.held.crossExtent) = ⟨0, 5, 100, 15⟩ := by
      change Rect.ofOrigin ⟨0, t.held.model.offsetOf 1 - t.held.viewport.offset⟩
        t.held.crossExtent 10 = _
      rw [hstart, hoffset, hcross]
      norm_num [Rect.ofOrigin]
    rw [haxis, hrect] at hsize hposition
    exact ⟨pass, t, slot, hpass, hslot, hsize.trans (by norm_num [Rect.size]), hposition⟩
  · intro source strip calls s
    obtain ⟨pass, t, hpass, htest⟩ := Step.exists_eq_ok_and (Table.layout source.journaled) s
      (fun _ t ↦ (t.held.stock.live.find? ⟨0, 2⟩).isSome &&
        decide (t.held.cols.positionOf 2 = 15) && decide (t.held.rows.positionOf 0 = 0) &&
        decide (t.held.cols.model.extentOf 2 = 20) && decide (t.held.rows.model.extentOf 0 = 20))
      (by decide +kernel)
    simp only [Bool.and_eq_true, decide_eq_true_eq] at htest
    obtain ⟨⟨⟨⟨hlive, hleft⟩, htop⟩, hwidth⟩, hheight⟩ := htest
    have hrect : t.held.placement ⟨0, 2⟩ = ⟨15, 0, 35, 20⟩ := by
      rw [Table.placement, hleft, htop, hwidth, hheight]
      norm_num [Rect.ofOrigin]
    obtain ⟨slot, hslot⟩ := Option.isSome_iff_exists.mp hlive
    obtain ⟨-, -, hplace⟩ := (views_in_place (Rehearsal.ofPoll (1, 5)) .none 0).2 source
      strip strip calls .layout rfl hpass
    obtain ⟨hsize, hposition⟩ := hplace ⟨0, 2⟩ slot hslot
    change _ = some (t.held.placement ⟨0, 2⟩).size at hsize
    change _ = some (t.held.placement ⟨0, 2⟩).origin at hposition
    rw [hrect] at hsize hposition
    exact ⟨pass, t, slot, hpass, hslot, hsize.trans (by norm_num [Rect.size]), hposition⟩

end Windowing
