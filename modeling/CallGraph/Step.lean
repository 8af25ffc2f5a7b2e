/-! Actions that may fail and keep the state they reach either way. -/
namespace CallGraph

/-- An action on a state `σ` with a result `α` or a failure `ε`. -/
abbrev Action (σ ε α : Type) := σ → Except ε α × σ

namespace Action

variable {σ τ ε α β : Type}

def done : Action σ ε Unit := fun s =>
  (.ok (), s)

/-- Goes on with the second action if the first succeeds. -/
def andThen (first : Action σ ε α) (second : α → Action σ ε β) : Action σ ε β := fun s =>
  match first s with
  | (.error e, s) => (.error e, s)
  | (.ok a, s) => second a s

/-- Runs actions in order up to the first failure. -/
def sequence : List (Action σ ε Unit) → Action σ ε Unit
  | [] => done
  | action :: actions => action.andThen fun _ => sequence actions

/-- The same action, which leaves the state as it was if it fails. -/
def atomic (action : Action σ ε α) : Action σ ε α := fun s =>
  match action s with
  | (.ok a, s') => (.ok a, s')
  | (.error e, _) => (.error e, s)

/-- The same action with another kind of failure. -/
def mapError {ε' : Type} (f : ε → ε') (action : Action σ ε α) : Action σ ε' α := fun s =>
  let (result, s) := action s
  (result.mapError f, s)

/-- An action on a part of a larger state. -/
def within (get : τ → σ) (set : τ → σ → τ) (action : Action σ ε α) : Action τ ε α := fun t =>
  let (result, s) := action (get t)
  (result, set t s)

end Action
end CallGraph
