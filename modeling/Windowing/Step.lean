import Windowing.Fault

/-!
# Steps

A step is a call on a state that may be cut short by a fault. What it changed before that
point stays changed: a step leaves a state behind however it ends, and a run of steps goes
on from there.

## Main definitions

* `Step` — a call on a state, which may end in a fault and keeps the state it reached.
* `Step.after`, `Step.outcome` — the state it leaves behind and the way it ended.
* `Step.within` — a step on one part of a larger state.
* `Step.runAll`, `Step.states` — a run of calls that does not stop at faults, and the states
  that it passes through.

## Main results

* `Step.forall_mem_states` — what every call keeps holds throughout a run.
-/

namespace Windowing

/-- A call on a state `σ`. It ends with an answer or with a fault, and in both cases
leaves a state behind. -/
abbrev Step (σ α : Type) := EStateM Fault σ α

namespace Step

variable {σ τ α β : Type}

/-- The state that a step leaves behind, however it ended. -/
def after (step : Step σ α) (s : σ) : σ :=
  match step s with
  | .ok _ t => t
  | .error _ t => t

/-- The answer or the fault that a step ends with. -/
def outcome (step : Step σ α) (s : σ) : Except Fault α :=
  match step s with
  | .ok a _ => .ok a
  | .error e _ => .error e

/-- A step that reads its answer off the state and may fail to. -/
def ofExcept : Except Fault α → Step σ α
  | .ok a => pure a
  | .error e => throw e

/-- A step that fails unless a condition holds. -/
def require (condition : Bool) (fault : Fault) : Step σ Unit :=
  if condition then pure () else throw fault

/-- A step on the part of the state that `part` reads and `store` writes. What the inner
step leaves behind is written back also when it ends in a fault. -/
def within (part : σ → τ) (store : τ → σ → σ) (step : Step τ α) : Step σ α := fun s ↦
  match step (part s) with
  | .ok a t => .ok a (store t s)
  | .error e t => .error e (store t s)

/-- Runs steps one after another. A step that ends in a fault does not stop the run: the
next one goes on from the state that the fault left. -/
def runAll (perform : β → Step σ α) : List β → σ → List (Except Fault α) × σ
  | [], s => ([], s)
  | call :: rest, s =>
    let (answers, t) := runAll perform rest ((perform call).after s)
    ((perform call).outcome s :: answers, t)

/-- The states that a run of calls passes through, the first one included. -/
def states (perform : β → Step σ α) : List β → σ → List σ
  | [], s => [s]
  | call :: rest, s => s :: states perform rest ((perform call).after s)

/-! ### Runs -/

/-- What every call keeps holds of every state that a run passes through. -/
theorem forall_mem_states {perform : β → Step σ α} {holds : σ → Prop}
    (keeps : ∀ call s, holds s → holds ((perform call).after s)) :
    ∀ (calls : List β) (s : σ), holds s → ∀ t ∈ states perform calls s, holds t
  | [], s, hs, t, ht => by
    rw [states, List.mem_singleton] at ht
    exact ht ▸ hs
  | call :: rest, s, hs, t, ht => by
    rcases List.mem_cons.mp ht with rfl | ht
    · exact hs
    · exact forall_mem_states keeps rest _ (keeps call s hs) t ht

/-- A run ends in the last state that it passes through. -/
theorem getLast?_states (perform : β → Step σ α) :
    ∀ (calls : List β) (s : σ),
      (states perform calls s).getLast? = some (runAll perform calls s).2
  | [], s => rfl
  | call :: rest, s => by
    rw [states, List.getLast?_cons, getLast?_states perform rest, Option.getD_some, runAll]

end Step

end Windowing
