import Mathlib.Data.List.Chain
import Windowing.Host

/-!
# What a step ensures

A step ends with an answer or with a fault, and leaves a state behind in both cases. What it
is to ensure from a given state is therefore said by two conditions, one for each way of
ending. The conditions are carried backwards through a step, one equivalence for each way of
putting steps together, so that a step is followed without looking at how steps are made.

## Main definitions

* `Step.Ensures` — what holds when a step has ended, whichever way it did.
* `Step.Reached` — the states that calls of one sort lead to.
* `Step.stages` — the states that a run passes through, also within its calls.
* `Step.lastMark` — what was measured when a run last made a certain call.
* `Step.since` — the calls that a run made since then.

## Main results

* `Step.ensures_bind`, `Step.ensures_within` — steps one after another, and on a part.
* `Step.holds_lastMark` — what every call keeps, up to taking a mark, holds after a run.
-/

namespace Windowing

namespace Step

variable {σ τ α β : Type}

/-- From `s` the step ends with an answer and a state of which `ok` holds, or with a fault in a
state of which `cut` holds. -/
def Ensures (step : Step σ α) (s : σ) (ok : α → σ → Prop) (cut : σ → Prop) : Prop :=
  match step s with
  | .ok a t => ok a t
  | .error _ t => cut t

variable {s : σ} {ok : α → σ → Prop} {cut : σ → Prop}

/-! ### Steps put together -/

/-- A step after the state is read is the step for that state. -/
theorem get_bind (next : σ → Step σ α) (s : σ) : (get >>= next) s = next s s :=
  rfl

@[simp]
theorem ensures_pure (a : α) : (pure a : Step σ α).Ensures s ok cut ↔ ok a s := Iff.rfl

@[simp]
theorem ensures_throw (fault : Fault) : (throw fault : Step σ α).Ensures s ok cut ↔ cut s :=
  Iff.rfl

@[simp]
theorem ensures_get {ok : σ → σ → Prop} : (get : Step σ σ).Ensures s ok cut ↔ ok s s := Iff.rfl

@[simp]
theorem ensures_set (t : σ) {ok : PUnit → σ → Prop} :
    (set t : Step σ PUnit).Ensures s ok cut ↔ ok ⟨⟩ t := Iff.rfl

@[simp]
theorem ensures_modify (change : σ → σ) {ok : PUnit → σ → Prop} :
    (modify change : Step σ PUnit).Ensures s ok cut ↔ ok ⟨⟩ (change s) := Iff.rfl

@[simp]
theorem ensures_modifyGet (change : σ → α × σ) :
    (modifyGet change : Step σ α).Ensures s ok cut ↔ ok (change s).1 (change s).2 := Iff.rfl

@[simp]
theorem ensures_bind (step : Step σ α) (next : α → Step σ β) {ok : β → σ → Prop} :
    (step >>= next).Ensures s ok cut ↔
      step.Ensures s (fun a t ↦ (next a).Ensures t ok cut) cut := by
  simp only [Ensures, bind, EStateM.bind]
  cases step s <;> rfl

@[simp]
theorem ensures_map (f : α → β) (step : Step σ α) {ok : β → σ → Prop} :
    (f <$> step).Ensures s ok cut ↔ step.Ensures s (fun a t ↦ ok (f a) t) cut := by
  simp only [Ensures, Functor.map, EStateM.map]
  cases step s <;> rfl

@[simp]
theorem ensures_ite (c : Prop) [Decidable c] (yes no : Step σ α) :
    (if c then yes else no).Ensures s ok cut ↔
      if c then yes.Ensures s ok cut else no.Ensures s ok cut := by
  split <;> rfl

@[simp]
theorem ensures_require (condition : Bool) (fault : Fault) {ok : Unit → σ → Prop} :
    (require condition fault : Step σ Unit).Ensures s ok cut ↔
      if condition then ok () s else cut s := by
  rw [require]
  split <;> rfl

/-- A step that only reads its answer off ends where it began. -/
@[simp]
theorem ensures_ofExcept (answer : Except Fault α) :
    (ofExcept answer : Step σ α).Ensures s ok cut ↔
      match answer with
      | .ok a => ok a s
      | .error _ => cut s := by
  cases answer <;> rfl

/-- A step on a part ensures what its inner step does of the part written back. -/
@[simp]
theorem ensures_within (part : σ → τ) (store : τ → σ → σ) (step : Step τ α) :
    (within part store step).Ensures s ok cut ↔
      step.Ensures (part s) (fun a t ↦ ok a (store t s)) fun t ↦ cut (store t s) := by
  simp only [Ensures, within]
  cases step (part s) <;> rfl

/-! ### Using what a step ensures -/

/-- Every step ensures what holds of every state. -/
theorem ensures_of_forall {step : Step σ α} (hok : ∀ a t, ok a t) (hcut : ∀ t, cut t) :
    step.Ensures s ok cut := by
  rw [Ensures]
  split
  · exact hok ..
  · exact hcut ..

theorem Ensures.mono {step : Step σ α} {ok' : α → σ → Prop} {cut' : σ → Prop}
    (h : step.Ensures s ok cut) (hok : ∀ a t, ok a t → ok' a t) (hcut : ∀ t, cut t → cut' t) :
    step.Ensures s ok' cut' := by
  rw [Ensures] at h ⊢
  cases hr : step s with
  | ok a t =>
    rw [hr] at h
    exact hok a t h
  | error e t =>
    rw [hr] at h
    exact hcut t h

theorem Ensures.and {step : Step σ α} {ok' : α → σ → Prop} {cut' : σ → Prop}
    (h : step.Ensures s ok cut) (h' : step.Ensures s ok' cut') :
    step.Ensures s (fun a t ↦ ok a t ∧ ok' a t) fun t ↦ cut t ∧ cut' t := by
  rw [Ensures] at h h' ⊢
  cases hr : step s with
  | ok a t =>
    rw [hr] at h h'
    exact ⟨h, h'⟩
  | error e t =>
    rw [hr] at h h'
    exact ⟨h, h'⟩

/-- What a step ensures of each member of a family, it ensures of all of them. -/
theorem ensures_forall {ι : Sort*} {step : Step σ α} {ok : ι → α → σ → Prop} {cut : ι → σ → Prop}
    (h : ∀ i, step.Ensures s (ok i) (cut i)) :
    step.Ensures s (fun a t ↦ ∀ i, ok i a t) fun t ↦ ∀ i, cut i t := by
  simp only [Ensures] at h ⊢
  cases hr : step s with
  | ok a t =>
    intro i
    simpa only [hr] using h i
  | error e t =>
    intro i
    simpa only [hr] using h i

theorem Ensures.of_ok {step : Step σ α} {a : α} {t : σ} (h : step.Ensures s ok cut)
    (hr : step s = .ok a t) : ok a t := by
  rw [Ensures, hr] at h
  exact h

/-- A step that answers ensures what holds of its answer and its state. -/
theorem ensures_of_eq_ok {step : Step σ α} {a : α} {t : σ} (hr : step s = .ok a t) :
    step.Ensures s ok cut ↔ ok a t := by
  rw [Ensures, hr]

/-- A step answers in a certain way exactly when it ensures that it does. -/
theorem eq_ok_iff {step : Step σ α} {a : α} {t : σ} :
    step s = .ok a t ↔ step.Ensures s (fun a' t' ↦ a' = a ∧ t' = t) fun _ ↦ False := by
  rw [Ensures]
  cases step s <;> simp

/-- What holds however a step ends is what holds of the state that it leaves behind. -/
theorem ensures_iff_after {step : Step σ α} {holds : σ → Prop} :
    step.Ensures s (fun _ ↦ holds) holds ↔ holds (step.after s) := by
  rw [Ensures, Step.after]
  cases step s <;> rfl

/-- What a step ensures of its answer, it ensures knowing that it gave this answer. -/
theorem Ensures.and_eq_ok {step : Step σ α} (h : step.Ensures s ok cut) :
    step.Ensures s (fun a t ↦ ok a t ∧ step s = .ok a t) cut := by
  rw [Ensures] at h ⊢
  cases hr : step s with
  | ok a t =>
    rw [hr] at h
    exact ⟨h, rfl⟩
  | error e t =>
    rw [hr] at h
    exact h

theorem after_of_eq_ok {step : Step σ α} {a : α} {t : σ} (h : step s = .ok a t) :
    step.after s = t := by
  rw [Step.after, h]

/-- A step that is cut short is not followed by the next one. -/
theorem after_bind (step : Step σ α) (next : α → Step σ β) (s : σ) :
    (step >>= next).after s =
      match step s with
      | .ok a t => (next a).after t
      | .error _ t => t := by
  simp only [after, bind, EStateM.bind]
  cases step s <;> rfl

/-- What a step answers does not matter to the state that it leaves. -/
theorem after_bind_pure (step : Step σ α) (f : α → β) (s : σ) :
    (step >>= fun a ↦ pure (f a)).after s = step.after s := by
  rw [after_bind, after]
  cases step s <;> rfl

theorem exists_eq_ok {step : Step σ α} (h : (step.outcome s).isOk = true) :
    ∃ a t, step s = .ok a t := by
  rw [outcome] at h
  cases hr : step s with
  | ok a t => exact ⟨a, t, rfl⟩
  | error e t =>
    rw [hr] at h
    cases h

/-- A step that is never cut short answers. -/
theorem Ensures.exists_eq_ok {step : Step σ α} (h : step.Ensures s ok fun _ ↦ False) :
    ∃ a t, step s = .ok a t ∧ ok a t := by
  rw [Ensures] at h
  cases hr : step s with
  | ok a t =>
    rw [hr] at h
    exact ⟨a, t, rfl, h⟩
  | error e t =>
    rw [hr] at h
    exact h.elim

/-- A step answers, and its answer passes a test, if running it says so. -/
theorem exists_eq_ok_and (step : Step σ α) (s : σ) (test : α → σ → Bool)
    (h : (match step s with | .ok a t => test a t | .error _ _ => false) = true) :
    ∃ a t, step s = .ok a t ∧ test a t = true := by
  cases hr : step s with
  | ok a t => exact ⟨a, t, rfl, by rwa [hr] at h⟩
  | error e t =>
    rw [hr] at h
    cases h

/-- Steps that ensure the same however they end leave the same state behind. -/
theorem after_congr {step : Step σ α} {other : Step σ β}
    (h : ∀ holds : σ → Prop,
      step.Ensures s (fun _ ↦ holds) holds ↔ other.Ensures s (fun _ ↦ holds) holds) :
    step.after s = other.after s := by
  have hsame := h fun t ↦ step.after s = t
  rw [ensures_iff_after, ensures_iff_after] at hsame
  exact hsame.mp rfl

/-! ### Runs -/

variable {perform : β → Step σ α}

/-- What the calls of a run keep holds after the run. -/
theorem holds_runAll (holds : σ → Prop) {calls : List β}
    (keeps : ∀ call ∈ calls, ∀ s, holds s → holds ((perform call).after s)) (h : holds s) :
    holds (runAll perform calls s).2 := by
  induction calls generalizing s with
  | nil => exact h
  | cons call rest ih =>
    exact ih (fun later hlater ↦ keeps later (.tail _ hlater)) (keeps call (.head _) s h)

/-- A run with one more call goes on from where it was. -/
theorem snd_runAll_concat (perform : β → Step σ α) (calls : List β) (call : β) (s : σ) :
    (runAll perform (calls ++ [call]) s).2 = (perform call).after (runAll perform calls s).2 := by
  induction calls generalizing s with
  | nil => rfl
  | cons first rest ih => exact ih ((perform first).after s)

/-- What calls that are not cut short keep holds after a run in which none is. -/
theorem holds_runAll_of_isOk (holds : σ → Prop)
    (keeps : ∀ call s, holds s → (perform call).Ensures s (fun _ ↦ holds) fun _ ↦ True)
    {calls : List β} (h : holds s)
    (hok : ∀ outcome ∈ (runAll perform calls s).1, outcome.isOk = true) :
    holds (runAll perform calls s).2 := by
  induction calls generalizing s with
  | nil => exact h
  | cons call rest ih =>
    obtain ⟨hcall, hrest⟩ := List.forall_mem_cons.mp hok
    obtain ⟨a, t, hr⟩ := exists_eq_ok hcall
    have hnext := (keeps call s h).of_ok hr
    rw [← after_of_eq_ok hr] at hnext
    exact ih hnext hrest

/-! ### States that calls lead to -/

/-- The states that calls of one sort lead to, from where a property holds. A call that is cut short
leads somewhere too. -/
inductive Reached (perform : β → Step σ α) (may : β → Prop) (start : σ → Prop) : σ → Prop where
  | start {s : σ} : start s → Reached perform may start s
  | call {s : σ} {call : β} : Reached perform may start s → may call →
      Reached perform may start ((perform call).after s)

/-- What holds at the start and what the calls keep holds wherever they lead. -/
theorem Reached.holds {may : β → Prop} {start holds : σ → Prop}
    (h : Reached perform may start s) (hstart : ∀ s, start s → holds s)
    (keeps : ∀ call, may call → ∀ s, holds s → holds ((perform call).after s)) : holds s := by
  induction h with
  | start hs => exact hstart _ hs
  | call _ hcall ih => exact keeps _ hcall _ ih

/-- Going on with such calls leads to no other states. -/
theorem Reached.runAll {may : β → Prop} {start : σ → Prop} (h : Reached perform may start s)
    {calls : List β} (hcalls : ∀ call ∈ calls, may call) :
    Reached perform may start (runAll perform calls s).2 :=
  holds_runAll (Reached perform may start) (fun call hcall _ h ↦ h.call (hcalls call hcall)) h

/-! ### Runs in stages -/

/-- The states that a run passes through, the first one included, and those within the calls. -/
def stages (perform : β → Step σ α) (within : β → σ → List σ) : List β → σ → List σ
  | [], s => [s]
  | call :: rest, s => s :: within call s ++ stages perform within rest ((perform call).after s)

variable {within : β → σ → List σ}

theorem head?_stages (calls : List β) (s : σ) :
    (stages perform within calls s).head? = some s := by
  cases calls <;> rfl

theorem getLast?_stages (calls : List β) (s : σ) :
    (stages perform within calls s).getLast? = some (runAll perform calls s).2 := by
  induction calls generalizing s with
  | nil => rfl
  | cons call rest ih => rw [stages, List.getLast?_append, ih, Option.some_or, runAll]

/-- What relates the states within each call, the first and the last included, relates those of a
run. -/
theorem isChain_stages {related : σ → σ → Prop} (holds : σ → Prop)
    (keeps : ∀ call s, holds s →
      (s :: within call s ++ [(perform call).after s]).IsChain related ∧
        holds ((perform call).after s))
    (calls : List β) (h : holds s) : (stages perform within calls s).IsChain related := by
  induction calls generalizing s with
  | nil => exact .singleton s
  | cons call rest ih =>
    obtain ⟨hcall, hholds⟩ := keeps call s h
    have hhead : (stages perform within rest ((perform call).after s)).head? =
        some ((perform call).after s) := head?_stages rest _
    obtain ⟨tail, htail⟩ := List.head?_eq_some_iff.mp hhead
    have hrest := ih hholds
    rw [stages, htail]
    rw [htail] at hrest
    have hoverlap : (s :: within call s ++ [(perform call).after s] ++ tail).IsChain related :=
      hcall.append_overlap hrest (by simp)
    simpa using hoverlap

/-! ### Runs with a mark -/

/-- What was measured after the last marked call of a run, or `last` if the run has none. -/
def lastMark (perform : β → Step σ α) (marked : β → Bool) (measure : σ → Nat) :
    List β → σ → Nat → Nat
  | [], _, last => last
  | call :: rest, s, last =>
    let t := (perform call).after s
    lastMark perform marked measure rest t (if marked call then measure t else last)

/-- What every call keeps, a marked one by taking its mark, holds after a run for the last mark. -/
theorem holds_lastMark {marked : β → Bool} {measure : σ → Nat} (holds : Nat → σ → Prop)
    (keeps : ∀ call last s, holds last s →
      let t := (perform call).after s
      holds (if marked call then measure t else last) t)
    (calls : List β) (last : Nat) (s : σ) (h : holds last s) :
    holds (lastMark perform marked measure calls s last) (runAll perform calls s).2 := by
  induction calls generalizing last s with
  | nil => exact h
  | cons call rest ih => exact ih _ _ (keeps call last s h)

/-- The calls of a run since its last marked one, the latest first, each with the state in which it
was made; `earlier` are those made before the run. -/
def since (perform : β → Step σ α) (marked : β → Bool) :
    List β → σ → List (β × σ) → List (β × σ)
  | [], _, earlier => earlier
  | call :: rest, s, earlier =>
    since perform marked rest ((perform call).after s)
      (if marked call then [] else (call, s) :: earlier)

/-- What every call keeps, of the calls since the last marked one and of the state, holds after a
run. -/
theorem holds_since {marked : β → Bool} (holds : List (β × σ) → σ → Prop)
    (keeps : ∀ call earlier s, holds earlier s →
      holds (if marked call then [] else (call, s) :: earlier) ((perform call).after s))
    (calls : List β) (earlier : List (β × σ)) (s : σ) (h : holds earlier s) :
    holds (since perform marked calls s earlier) (runAll perform calls s).2 := by
  induction calls generalizing earlier s with
  | nil => exact h
  | cons call rest ih => exact ih _ _ (keeps call earlier s h)

/-! ### Steps beside a host -/

variable {H A B : Type} {hosted : Hosted H A}

@[simp]
theorem ensures_onHeld (step : Step A α) {ok : α → Hosted H A → Prop}
    {cut : Hosted H A → Prop} :
    (Hosted.onHeld step).Ensures hosted ok cut ↔
      step.Ensures hosted.held (fun a held ↦ ok a ⟨hosted.host, held⟩)
        fun held ↦ cut ⟨hosted.host, held⟩ :=
  ensures_within ..

@[simp]
theorem ensures_onHost (step : Step H α) {ok : α → Hosted H A → Prop}
    {cut : Hosted H A → Prop} :
    (Hosted.onHost step).Ensures hosted ok cut ↔
      step.Ensures hosted.host (fun a host ↦ ok a ⟨host, hosted.held⟩)
        fun host ↦ cut ⟨host, hosted.held⟩ :=
  ensures_within ..

@[simp]
theorem ensures_onPart (part : A → B) (store : B → A → A) (step : Step (Hosted H B) α)
    {ok : α → Hosted H A → Prop} {cut : Hosted H A → Prop} :
    (Hosted.onPart part store step).Ensures hosted ok cut ↔
      step.Ensures ⟨hosted.host, part hosted.held⟩
        (fun a inner ↦ ok a ⟨inner.host, store inner.held hosted.held⟩)
        fun inner ↦ cut ⟨inner.host, store inner.held hosted.held⟩ :=
  ensures_within ..

end Step

end Windowing
