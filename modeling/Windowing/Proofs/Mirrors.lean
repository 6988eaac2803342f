import Windowing.Host

/-!
# Steps that agree on what they show

Two steps may work on states of different types, one of which knows more than the other. They
agree if the second, made on what the first state shows, ends as the first one does: with the
answer or the fault that the first one shows, in the state that it shows. Steps that are put
together from parts that agree, agree.

## Main definitions

* `Step.Mirrors` — one step shows what another does.

## Main results

* `Step.Mirrors.bind`, `Step.Mirrors.within` — steps one after another, and on a part.
* `Step.runAll_mirrors` — a run of calls that agree.
-/

namespace Windowing

namespace Step

variable {σ τ σ' τ' α β α' β' : Type}

/-- What the end of a step shows, given what its answer and its state show. -/
def shown (answer : α → β) (state : σ → τ) : EStateM.Result Fault σ α → EStateM.Result Fault τ β
  | .ok a s => .ok (answer a) (state s)
  | .error e s => .error e (state s)

/-- Made on what a state shows, `plain` does what `step` shows. -/
def Mirrors (state : σ → τ) (answer : α → β) (step : Step σ α) (plain : Step τ β) : Prop :=
  ∀ s, plain (state s) = shown answer state (step s)

variable {state : σ → τ} {answer : α → β} {step : Step σ α} {plain : Step τ β}

/-- Every step agrees with itself. -/
theorem mirrors_refl (step : Step σ α) : Mirrors id id step step := by
  intro s
  cases h : step s with
  | ok => exact h
  | error => exact h

/-! ### Steps put together -/

theorem mirrors_pure {a : α} {b : β} (h : answer a = b) :
    Mirrors state answer (pure a) (pure b) := by
  intro s
  rw [← h]
  rfl

theorem mirrors_throw (fault : Fault) : Mirrors state answer (throw fault) (throw fault) :=
  fun _ ↦ rfl

theorem mirrors_get : Mirrors state state get get :=
  fun _ ↦ rfl

theorem mirrors_modify {change : σ → σ} {change' : τ → τ}
    (h : ∀ s, change' (state s) = state (change s)) :
    Mirrors state id (modify change) (modify change') := by
  intro s
  exact congrArg (EStateM.Result.ok PUnit.unit) (h s)

theorem mirrors_modifyGet {change : σ → α × σ} {change' : τ → β × τ}
    (h : ∀ s, change' (state s) = (answer (change s).1, state (change s).2)) :
    Mirrors state answer (modifyGet change) (modifyGet change') := by
  intro s
  have hend := congrArg (fun result ↦ (EStateM.Result.ok result.1 result.2 :
    EStateM.Result Fault τ β)) (h s)
  exact hend

theorem mirrors_ofExcept (result : Except Fault α) :
    Mirrors state id (ofExcept result) (ofExcept result) := by
  cases result with
  | ok a => exact mirrors_pure rfl
  | error fault => exact mirrors_throw fault

theorem mirrors_require (condition : Bool) (fault : Fault) :
    Mirrors state id (require condition fault) (require condition fault) := by
  rw [require, require]
  split
  · exact mirrors_pure rfl
  · exact mirrors_throw fault

/-- Steps that agree, followed by steps that agree. -/
theorem Mirrors.bind {answer' : α' → β'} {next : α → Step σ α'} {next' : β → Step τ β'}
    (h : Mirrors state answer step plain)
    (hnext : ∀ a, Mirrors state answer' (next a) (next' (answer a))) :
    Mirrors state answer' (step >>= next) (plain >>= next') := by
  intro s
  simp only [Bind.bind, EStateM.bind, h s]
  cases step s with
  | ok a t => exact hnext a t
  | error fault t => rfl

/-- Steps that agree, followed by one answer. -/
theorem Mirrors.answering (h : Mirrors state answer step plain) (a : α') :
    Mirrors state id (do let _ ← step; return a) (do let _ ← plain; return a) :=
  h.bind fun _ ↦ mirrors_pure rfl

theorem Mirrors.map {answer' : α' → β'} {f : α → α'} {f' : β → β'}
    (h : Mirrors state answer step plain) (hf : ∀ a, f' (answer a) = answer' (f a)) :
    Mirrors state answer' (f <$> step) (f' <$> plain) := by
  intro s
  simp only [Functor.map, EStateM.map, h s]
  cases step s with
  | ok a t => exact congrArg (EStateM.Result.ok · (state t)) (hf a)
  | error fault t => rfl

/-- Steps that answer a flag, followed by a change where the flag is set. -/
theorem Mirrors.followUp {step : Step σ Bool} {plain : Step τ Bool} {change : σ → σ}
    {change' : τ → τ} (h : Mirrors state id step plain)
    (hchange : ∀ s, change' (state s) = state (change s)) :
    Mirrors state id
      (do let applied ← step
          if applied then modify change
          return applied)
      (do let applied ← plain
          if applied then modify change'
          return applied) := by
  refine h.bind fun applied ↦ ?_
  cases applied with
  | false => exact mirrors_pure rfl
  | true =>
    simp only [id, if_true]
    exact (mirrors_modify hchange).bind fun _ ↦ mirrors_pure rfl

/-- Steps on parts that agree, where what is written back shows what the part does. -/
theorem Mirrors.within {state' : σ' → τ'} {part : σ' → σ} {store : σ → σ' → σ'} {part' : τ' → τ}
    {store' : τ → τ' → τ'} (h : Mirrors state answer step plain)
    (hpart : ∀ s, part' (state' s) = state (part s))
    (hstore : ∀ t s, store' (state t) (state' s) = state' (store t s)) :
    Mirrors state' answer (Step.within part store step) (Step.within part' store' plain) := by
  intro s
  simp only [Step.within, hpart, h (part s)]
  cases step (part s) with
  | ok a t => exact congrArg _ (hstore t s)
  | error fault t => exact congrArg _ (hstore t s)

/-! ### Runs -/

theorem after_of_shown {s : σ} (h : plain (state s) = shown answer state (step s)) :
    plain.after (state s) = state (step.after s) := by
  simp only [Step.after, h]
  cases step s <;> rfl

theorem outcome_of_shown {plain : Step τ α} {s : σ}
    (h : plain (state s) = shown id state (step s)) :
    plain.outcome (state s) = step.outcome s := by
  simp only [Step.outcome, h]
  cases step s <;> rfl

theorem Mirrors.after (h : Mirrors state answer step plain) (s : σ) :
    plain.after (state s) = state (step.after s) :=
  after_of_shown (h s)

/-- Runs of calls that agree on the states of which something holds, and keep it, end with the same
answers and faults, in states that agree. -/
theorem runAll_of_shown {perform : β → Step σ α} {plain : β → Step τ α} (holds : σ → Prop)
    (keeps : ∀ call s, holds s → holds ((perform call).after s))
    (agrees : ∀ call s, holds s → plain call (state s) = shown id state (perform call s))
    (calls : List β) {s : σ} (hs : holds s) :
    runAll plain calls (state s) =
      ((runAll perform calls s).1, state (runAll perform calls s).2) := by
  induction calls generalizing s with
  | nil => rfl
  | cons call rest ih =>
    have hcall := agrees call s hs
    rw [runAll, runAll, after_of_shown hcall, outcome_of_shown hcall, ih (keeps call s hs)]

/-- Runs of calls that agree end with the same answers and faults, in states that agree. -/
theorem runAll_mirrors {perform : β → Step σ α} {plain : β → Step τ α}
    (h : ∀ call, Mirrors state id (perform call) (plain call)) (calls : List β) (s : σ) :
    runAll plain calls (state s) =
      ((runAll perform calls s).1, state (runAll perform calls s).2) :=
  runAll_of_shown (fun _ ↦ True) (fun _ _ ↦ id) (fun call s _ ↦ h call s) calls trivial

end Step

/-! ### Steps with a host -/

namespace Hosted

variable {G H A B C D α β : Type} {answer : α → β} {host : G → H} {held : A → B}

/-- What a host and what works with it show. -/
def shown (host : G → H) (held : A → B) (hosted : Hosted G A) : Hosted H B :=
  ⟨host hosted.host, held hosted.held⟩

theorem onHeld_mirrors {step : Step A α} {plain : Step B β}
    (h : Step.Mirrors held answer step plain) :
    Step.Mirrors (shown host held) answer (onHeld step) (onHeld plain) :=
  h.within (fun _ ↦ rfl) fun _ _ ↦ rfl

theorem onHost_mirrors {step : Step G α} {plain : Step H β}
    (h : Step.Mirrors host answer step plain) :
    Step.Mirrors (shown host held) answer (onHost step) (onHost plain) :=
  h.within (fun _ ↦ rfl) fun _ _ ↦ rfl

theorem onPart_mirrors {part : A → C} {store : C → A → A} {part' : B → D} {store' : D → B → B}
    {inner : C → D} {step : Step (Hosted G C) α} {plain : Step (Hosted H D) β}
    (h : Step.Mirrors (shown host inner) answer step plain)
    (hpart : ∀ a, part' (held a) = inner (part a))
    (hstore : ∀ c a, store' (inner c) (held a) = held (store c a)) :
    Step.Mirrors (shown host held) answer (onPart part store step) (onPart part' store' plain) :=
  h.within (fun s ↦ congrArg (Hosted.mk (host s.host)) (hpart s.held))
    fun t s ↦ congrArg (Hosted.mk (host t.host)) (hstore t.held s.held)

end Hosted

end Windowing
