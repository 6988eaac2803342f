import Windowing.Proofs.Viewports
import Windowing.Viewport.Call

/-!
# The kept window

A viewport keeps the window that it found last, and forgets it when something that can move it has
changed. So whatever calls were made, in whatever order, the window that the viewport answers is the
one that is found for its model, offset, extent and look-ahead as they are.

This asks of the model that its queries change none of its later answers. What a query stores may
well change the model: here the model may turn, at any time, into another one that gives the same
answers.

## Main definitions

* `ExtentModel.SameAnswers` — two models that answer every query alike.
* `ExtentModel.Quiet` — models whose queries do not change their later answers.
* `Viewport.CallsKeep` — a property of viewports that every call keeps.
* `Viewport.Runs` — a run of calls, between which the model may store what queries worked out.

## Main results

* `ExtentModel.SameAnswers.visibleWindow_eq` — models that answer alike have the same windows.
* `Viewport.Runs.fresh` — a run keeps the window fresh.
* `Viewport.window_answers_visibleWindow` — after any run, the window that is answered is the one
  that is found anew.
-/

namespace Windowing

namespace ExtentModel

section SameAnswers

variable {M S : Type} [ExtentModel M S]

/-- The two models answer every query alike. -/
structure SameAnswers (a b : M) : Prop extends Alike a b where
  indexAtOffset_eq : ∀ offset, indexAtOffset b offset = indexAtOffset a offset
  trackIndex_eq : ∀ index, trackIndex b index = trackIndex a index

variable {a b : M}

theorem SameAnswers.trackStop_eq (h : SameAnswers a b) (len track index : Nat) :
    trackStop b len track index = trackStop a len track index := by
  fun_induction trackStop a len track index with
  | case1 index hindex ih => rw [trackStop, h.trackIndex_eq, if_pos hindex, ih]
  | case2 index hindex => rw [trackStop, h.trackIndex_eq, if_neg hindex]

theorem SameAnswers.nextTrack_eq (h : SameAnswers a b) (len index : Nat) :
    nextTrack b len index = nextTrack a len index := by
  rw [nextTrack, nextTrack, h.trackIndex_eq, h.trackStop_eq]

theorem SameAnswers.trackStart_eq (h : SameAnswers a b) (track index : Nat) :
    trackStart b track index = trackStart a track index := by
  induction index with
  | zero => rfl
  | succ index ih => rw [trackStart, trackStart, h.trackIndex_eq, ih]

theorem SameAnswers.lookPast_eq (h : SameAnswers a b) (len lookahead stop : Nat) :
    lookPast b len lookahead stop = lookPast a len lookahead stop := by
  induction lookahead generalizing stop with
  | zero => rfl
  | succ lookahead ih => rw [lookPast, lookPast, h.nextTrack_eq, ih]

variable [Scalar S]

theorem SameAnswers.skipTracks_eq (h : SameAnswers a b) (len : Nat) (offset : S) (start : Nat) :
    skipTracks b len offset start = skipTracks a len offset start := by
  fun_induction skipTracks a len offset start with
  | case1 start next hnext ih =>
    rw [skipTracks, h.nextTrack_eq, h.offsetOf_eq, h.offsetOf_eq, if_pos hnext, ih]
  | case2 start next hnext =>
    rw [skipTracks, h.nextTrack_eq, h.offsetOf_eq, h.offsetOf_eq, if_neg hnext]

theorem SameAnswers.stepBack_eq (h : SameAnswers a b) (offset : S) (index : Nat) :
    stepBack b offset index = stepBack a offset index := by
  induction index with
  | zero => rfl
  | succ index ih => rw [stepBack, stepBack, h.offsetOf_eq, ih]

theorem SameAnswers.walkTo_eq (h : SameAnswers a b) (len : Nat) (limit : S) (index : Nat) :
    walkTo b len limit index = walkTo a len limit index := by
  fun_induction walkTo a len limit index with
  | case1 index hindex ih => rw [walkTo, h.offsetOf_eq, if_pos hindex, ih]
  | case2 index hindex => rw [walkTo, h.offsetOf_eq, if_neg hindex]

theorem SameAnswers.windowStart_eq (h : SameAnswers a b) (len : Nat) (offset : S) :
    windowStart b len offset = windowStart a len offset := by
  simp only [windowStart, h.indexAtOffset_eq, h.skipTracks_eq, h.stepBack_eq, h.trackIndex_eq,
    h.trackStart_eq]

theorem SameAnswers.windowStop_eq (h : SameAnswers a b) (len : Nat) (limit : S)
    (lookahead start : Nat) :
    windowStop b len limit lookahead start = windowStop a len limit lookahead start := by
  simp only [windowStop, h.walkTo_eq, h.nextTrack_eq, h.lookPast_eq]

/-- The search for a window sees no more of a model than its answers. -/
theorem SameAnswers.visibleWindow_eq (h : SameAnswers a b) (offset extent : S) (lookahead : Nat) :
    visibleWindow b offset extent lookahead = visibleWindow a offset extent lookahead := by
  simp only [visibleWindow, h.len_eq, h.totalExtent_eq, h.windowStart_eq, h.windowStop_eq,
    h.offsetOf_eq]

end SameAnswers

/-- No query of a model of which `valid` holds changes its later answers. To find a window, all of
the model is settled; no edit, of those that `edit` says, leaves the valid models. -/
structure Quiet {E M S : Type} [ExtentModel M S] (edit : E → Step M (Reply S))
    (valid : M → Prop) : Prop where
  edit : ∀ {model} call, valid model → valid ((edit call).after model)
  settleAll : ∀ {model}, valid model → valid (ExtentModel.settleAll model)
  sameAnswers_settleAll : ∀ {model : M}, valid model →
    SameAnswers model (ExtentModel.settleAll model)

end ExtentModel

/-! ### Strips and grids -/

theorem Strip.Sound.sameAnswers {S : Type} [Scalar S] {strip other : Strip S} (h : strip.Sound)
    (hother : other.Sound) (hmeasures : other.measures = strip.measures) :
    ExtentModel.SameAnswers strip other where
  toAlike := h.alike hother hmeasures
  indexAtOffset_eq offset := by
    have hindex : other.indexAtOffset offset = strip.indexAtOffset offset := by
      rw [hother.indexAtOffset_eq, h.indexAtOffset_eq, hmeasures]
    exact hindex
  trackIndex_eq _ := rfl

/-- What a strip stores does not show in its answers. -/
theorem Strip.quiet {S : Type} [Scalar S] :
    ExtentModel.Quiet Strip.Call.perform (Strip.Sound : Strip S → Prop) where
  edit call h := h.perform call
  settleAll h := h.settleAll
  sameAnswers_settleAll {strip} h := h.sameAnswers h.settleAll (measures_settleAll strip)

/-- Nor does what a grid stores in its tracks, also if they were made too few or too many. -/
theorem Grid.quiet {S : Type} [Scalar S] :
    ExtentModel.Quiet Grid.Call.perform fun grid : Grid (Strip S) S ↦ grid.tracks.Sound where
  edit call h := Step.ensures_iff_after.mp (perform_tracks (fun call _ h ↦ h.perform call) call h)
  settleAll h := h.settleAll
  sameAnswers_settleAll {grid} h := by
    have htracks := Strip.quiet.sameAnswers_settleAll h
    refine ⟨alike_withTracks htracks.toAlike, fun offset ↦ ?_, fun _ ↦ rfl⟩
    change (if grid.len = 0 then 0 else Nat.min
        (ExtentModel.indexAtOffset (ExtentModel.settleAll grid.tracks) offset * grid.lanes)
        (grid.len - 1)) = grid.indexAtOffset offset
    rw [htracks.indexAtOffset_eq, indexAtOffset]

namespace Viewport

variable {E M S : Type} [Scalar S] [ExtentModel M S] {edit : E → Step M (Reply S)}
  {valid : M → Prop} {viewport : Viewport M S}

/-! ### What every call keeps -/

/-- Whatever a call on a viewport does keeps the property. -/
structure CallsKeep (edit : E → Step M (Reply S)) (holds : Viewport M S → Prop) : Prop where
  setLookahead : ∀ {viewport} lookahead, holds viewport → holds (viewport.setLookahead lookahead)
  model : ∀ {viewport} call, holds viewport →
    holds (viewport.withModel ((edit call).after viewport.model))
  invalidate : ∀ {viewport}, holds viewport → holds viewport.invalidate
  scrollTo : ∀ {viewport} offset, holds viewport → holds (viewport.scrollTo offset).1
  resize : ∀ {viewport} extent, holds viewport → holds (viewport.resize extent).1
  clamp : ∀ {viewport}, holds viewport → holds viewport.clamp.1
  window : ∀ {viewport}, holds viewport → holds viewport.window.2

section CallsKeep

variable {holds : Viewport M S → Prop}

/-- Bringing an item into view is scrolling to some offset, if the item is there. -/
theorem CallsKeep.bring (h : CallsKeep edit holds) (hviewport : holds viewport) (index : Nat)
    (align : ScrollAlign) : holds (((Call.bring index align).perform edit).after viewport) := by
  refine Step.ensures_iff_after.mp ?_
  change ((do
    let moved ← Step.ofExcept (Viewport.bring index align (← get))
    set moved.1
    return .plain (.flag moved.2)) : Step (Viewport M S) (Answer S)).Ensures viewport _ _
  simp only [Step.ensures_bind, Step.ensures_get, Step.ensures_ofExcept]
  cases hbring : viewport.bring index align with
  | error fault => exact hviewport
  | ok moved =>
    rcases bring_moves hbring with hsame | ⟨target, rfl⟩
    · exact hsame ▸ hviewport
    · exact h.scrollTo target hviewport

/-- A call keeps such a property, however it ends. -/
theorem CallsKeep.perform (h : CallsKeep edit holds) (call : Call E S)
    (hviewport : holds viewport) : holds ((call.perform edit).after viewport) := by
  cases call with
  | setLookahead lookahead => exact h.setLookahead lookahead hviewport
  | model call =>
    refine Step.ensures_iff_after.mp ?_
    simp only [Call.perform, onModel, Step.ensures_bind, Step.ensures_within, Step.ensures_pure]
    exact Step.ensures_iff_after.mpr (h.model call hviewport)
  | invalidate => exact h.invalidate hviewport
  | scrollTo offset => exact h.scrollTo offset hviewport
  | scrollBy delta => exact h.scrollTo (viewport.offset + delta) hviewport
  | resize extent => exact h.resize extent hviewport
  | maxOffset => exact hviewport
  | clamp => exact h.clamp hviewport
  | window => exact h.window hviewport
  | positionOf index => exact hviewport
  | extentOf index =>
    refine Step.ensures_iff_after.mp ?_
    simp only [Call.perform, Step.ensures_bind, Step.ensures_get, Step.ensures_ofExcept]
    split <;> exact hviewport
  | isFullyVisible index =>
    refine Step.ensures_iff_after.mp ?_
    simp only [Call.perform, Step.ensures_bind, Step.ensures_get, Step.ensures_ofExcept]
    split <;> exact hviewport
  | isPartiallyVisible index =>
    refine Step.ensures_iff_after.mp ?_
    simp only [Call.perform, Step.ensures_bind, Step.ensures_get, Step.ensures_ofExcept]
    split <;> exact hviewport
  | reveal index => exact h.bring hviewport index .nearest
  | scrollToStart => exact h.scrollTo Scalar.zero hviewport
  | scrollToEnd => exact h.scrollTo viewport.maxOffset hviewport
  | bring index align => exact h.bring hviewport index align

end CallsKeep

/-- Whoever moves a viewport, or takes hold of its model, has it forget its window. -/
theorem callsKeep_fresh (edit : E → Step M (Reply S)) :
    CallsKeep edit (Fresh : Viewport M S → Prop) where
  setLookahead lookahead h := by
    rw [setLookahead]
    split
    · exact h
    · exact fresh_of_kept_eq_none rfl
  model _ _ := fresh_of_kept_eq_none rfl
  invalidate _ := fresh_of_kept_eq_none rfl
  scrollTo offset h := h.scrollTo offset
  resize extent h := h.resize extent
  clamp h := h.clamp
  window h := h.window

/-- The model of a viewport changes by edits and by what it stores, and stays valid. -/
theorem callsKeep_valid (h : ExtentModel.Quiet edit valid) :
    CallsKeep edit fun viewport : Viewport M S ↦ valid viewport.model where
  setLookahead {viewport} lookahead hvalid :=
    (setLookahead_steady lookahead viewport).model_eq ▸ hvalid
  model call hvalid := h.edit call hvalid
  invalidate hvalid := hvalid
  scrollTo {viewport} offset hvalid := (scrollTo_steady offset viewport).model_eq ▸ hvalid
  resize {viewport} extent hvalid := (resize_steady extent viewport).model_eq ▸ hvalid
  clamp {viewport} hvalid := (clamp_steady viewport).model_eq ▸ hvalid
  window {viewport} hvalid := by
    rw [window]
    split
    · exact hvalid
    · exact h.settleAll hvalid

/-! ### Runs -/

/-- A run of calls leads from one viewport to another. After a call, and before the first one, the
model may have stored more: it is then another valid model that gives the same answers. -/
inductive Runs (edit : E → Step M (Reply S)) (valid : M → Prop) :
    List (Call E S) → Viewport M S → Viewport M S → Prop
  | start (viewport : Viewport M S) : Runs edit valid [] viewport viewport
  | call {calls : List (Call E S)} {first last : Viewport M S} (call : Call E S)
      (run : Runs edit valid calls first last) :
      Runs edit valid (calls ++ [call]) first ((call.perform edit).after last)
  | store {calls : List (Call E S)} {first last : Viewport M S} {model : M}
      (same : ExtentModel.SameAnswers last.model model) (isValid : valid model)
      (run : Runs edit valid calls first last) :
      Runs edit valid calls first { last with model }

variable {calls : List (Call E S)} {first last : Viewport M S}

/-- A run goes on with calls between which the model stores nothing but what they say. -/
theorem Runs.append (h : Runs edit valid calls first last) (more : List (Call E S)) :
    Runs edit valid (calls ++ more) first (Step.runAll (Call.perform edit) more last).2 := by
  induction more generalizing calls last with
  | nil => rwa [Step.runAll, List.append_nil]
  | cons call rest ih =>
    rw [Step.runAll, List.append_cons]
    exact ih (h.call call)

/-- Storing leaves a kept window fresh, since no answer changes. -/
theorem Fresh.store {model : M} (h : viewport.Fresh)
    (hsame : ExtentModel.SameAnswers viewport.model model) :
    ({ viewport with model } : Viewport M S).Fresh := by
  intro window hwindow
  calc
    window = viewport.freshWindow := h window hwindow
    _ = ({ viewport with model } : Viewport M S).freshWindow :=
      (hsame.visibleWindow_eq viewport.offset viewport.extent viewport.lookahead).symm

theorem Runs.fresh (h : Runs edit valid calls first last) (hfirst : first.Fresh) : last.Fresh := by
  induction h with
  | start => exact hfirst
  | call call _ ih => exact (callsKeep_fresh edit).perform call (ih hfirst)
  | store hsame _ _ ih => exact (ih hfirst).store hsame

theorem Runs.model_valid (h : Runs edit valid calls first last)
    (hquiet : ExtentModel.Quiet edit valid) (hfirst : valid first.model) : valid last.model := by
  induction h with
  | start => exact hfirst
  | call call _ ih => exact (callsKeep_valid hquiet).perform call (ih hfirst)
  | store _ hvalid => exact hvalid

/-- A fresh viewport answers the window that is found for it as it is. -/
theorem Fresh.fst_window (h : viewport.Fresh)
    (hsame : ExtentModel.SameAnswers viewport.model (ExtentModel.settleAll viewport.model)) :
    viewport.window.1 = viewport.freshWindow := by
  rw [Viewport.window]
  cases hkept : viewport.kept with
  | some window => exact h window hkept
  | none => exact hsame.visibleWindow_eq viewport.offset viewport.extent viewport.lookahead

/-- After every run of calls, with the model storing what it will, the window that a viewport
answers is the one that is found for its model, offset, extent and look-ahead at that time. -/
theorem window_answers_visibleWindow {model : M} {extent : S}
    (hquiet : ExtentModel.Quiet edit valid) (hvalid : valid model)
    (hrun : Runs edit valid calls (ofModel model extent) viewport) :
    ((Call.window : Call E S).perform edit).outcome viewport =
      .ok (.window (ExtentModel.visibleWindow viewport.model viewport.offset viewport.extent
        viewport.lookahead)) := by
  have hfresh := hrun.fresh (fresh_of_kept_eq_none rfl)
  have hsame := hquiet.sameAnswers_settleAll (hrun.model_valid hquiet hvalid)
  exact congrArg (Except.ok <| Answer.window ·) (hfresh.fst_window hsame)

/-- A strip is edited, and stores the starts of its items, while the viewport that shows it keeps a
window, is scrolled and gets longer. -/
theorem window_answers_visibleWindow_strip :
    let found : List (Call (Strip.Call Rat) Rat) := [.model (.edit (.setLen 50)),
      .model (.setUniform 10), .resize 30, .bring 20 .center, .window]
    let edited : List (Call (Strip.Call Rat) Rat) := [.positionOf 12, .resize 45,
      .model (.edit (.setItemExtent 18 40)), .window, .scrollTo 500, .clamp]
    ∃ viewport, Runs Strip.Call.perform Strip.Sound (found ++ edited) (ofModel .empty 0) viewport ∧
      ((Call.window : Call (Strip.Call Rat) Rat).perform Strip.Call.perform).outcome viewport =
        .ok (.window (ExtentModel.visibleWindow viewport.model viewport.offset viewport.extent
          viewport.lookahead)) := by
  intro found edited
  have hempty : (Strip.empty : Strip Rat).Sound :=
    Strip.sound_of_isUniform Std.TreeMap.isEmpty_emptyc
  have hfound : Runs Strip.Call.perform Strip.Sound found (ofModel .empty 0) _ :=
    (Runs.start _).append found
  have hsound := hfound.model_valid Strip.quiet hempty
  have hstored := (hfound.store (hsound.sameAnswers (hsound.settleAt 12)
    (Strip.measures_settleAt 12 _)) (hsound.settleAt 12)).append edited
  exact ⟨_, hstored, window_answers_visibleWindow Strip.quiet hempty hstored⟩

end Viewport

end Windowing
