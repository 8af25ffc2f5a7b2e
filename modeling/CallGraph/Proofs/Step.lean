import CallGraph.Step
import Mathlib.Tactic.Common

/-! Actions one after another, by what came of the first. -/
namespace CallGraph.Action

variable {σ ε α β : Type} {first : Action σ ε α} {s : σ}

theorem andThen_of_eq_ok (second : α → Action σ ε β) {a : α} {s' : σ}
    (h : first s = (.ok a, s')) : first.andThen second s = second a s' := by
  unfold andThen
  rw [h]

theorem andThen_of_eq_error (second : α → Action σ ε β) {e : ε} {s' : σ}
    (h : first s = (.error e, s')) : first.andThen second s = (.error e, s') := by
  unfold andThen
  rw [h]

theorem andThen_of_ok (second : α → Action σ ε β) {a : α} (h : (first s).1 = .ok a) :
    first.andThen second s = second a (first s).2 :=
  andThen_of_eq_ok second (Prod.ext h rfl)

theorem andThen_of_error (second : α → Action σ ε β) {e : ε} (h : (first s).1 = .error e) :
    first.andThen second s = (.error e, (first s).2) :=
  andThen_of_eq_error second (Prod.ext h rfl)

theorem sequence_append_of_ok {actions : List (Action σ ε Unit)} (more : List (Action σ ε Unit))
    {s' : σ} (h : sequence actions s = (.ok (), s')) :
    sequence (actions ++ more) s = sequence more s' := by
  induction actions generalizing s with
  | nil =>
    cases h
    rfl
  | cons action actions ih =>
    rw [sequence] at h
    rw [List.cons_append, sequence]
    cases hfirst : (action s).1 with
    | error e =>
      rw [andThen_of_error _ hfirst] at h
      cases h
    | ok _ =>
      rw [andThen_of_ok _ hfirst] at h ⊢
      exact ih h

/-- A sequence fails with its first action that does. -/
theorem exists_failed_of_sequence {actions : List (Action σ ε Unit)} {e : ε} {s' : σ}
    (h : sequence actions s = (.error e, s')) :
    ∃ before action after s₁, actions = before ++ action :: after ∧
      sequence before s = (.ok (), s₁) ∧ action s₁ = (.error e, s') := by
  induction actions generalizing s with
  | nil => cases h
  | cons action actions ih =>
    rw [sequence] at h
    cases hfirst : (action s).1 with
    | error _ =>
      rw [andThen_of_error _ hfirst] at h
      cases h
      exact ⟨[], action, actions, s, rfl, rfl, Prod.ext hfirst rfl⟩
    | ok _ =>
      rw [andThen_of_ok _ hfirst] at h
      obtain ⟨before, failing, after, s₁, rfl, hbefore, hfailing⟩ := ih h
      refine ⟨action :: before, failing, after, s₁, rfl, ?_, hfailing⟩
      rw [sequence, andThen_of_ok _ hfirst, hbefore]

/-- Performs actions one after another, whatever comes of them. -/
def each : List (Action σ ε α) → σ → List (Except ε α) × σ
  | [], s => ([], s)
  | action :: actions, s =>
    let rest := each actions (action s).2
    ((action s).1 :: rest.1, rest.2)

theorem each_append (actions more : List (Action σ ε α)) (s : σ) :
    each (actions ++ more) s =
      ((each actions s).1 ++ (each more (each actions s).2).1, (each more (each actions s).2).2) := by
  induction actions generalizing s with
  | nil => rfl
  | cons action actions ih =>
    dsimp only [List.cons_append, each]
    rw [ih]

theorem length_each (actions : List (Action σ ε α)) (s : σ) :
    (each actions s).1.length = actions.length := by
  induction actions generalizing s with
  | nil => rfl
  | cons action actions ih => exact congrArg (· + 1) (ih _)

/-- What comes of an action depends on the actions before it alone. -/
theorem getElem?_each (earlier : List (Action σ ε α)) (action : Action σ ε α)
    (later : List (Action σ ε α)) (s : σ) :
    (each (earlier ++ action :: later) s).1[earlier.length]? =
      some (action (each earlier s).2).1 := by
  have hlength := length_each earlier s
  rw [each_append]
  dsimp only
  rw [List.getElem?_append_right (by omega), hlength, Nat.sub_self]
  rfl

/-- A part of the state that an action leaves as it was, whatever comes of it. -/
def Keeps {γ : Type} (action : Action σ ε α) (part : σ → γ) : Prop :=
  ∀ s, part (action s).2 = part s

theorem Keeps.andThen {γ : Type} {part : σ → γ} {second : α → Action σ ε β} (h : first.Keeps part)
    (h' : ∀ a, (second a).Keeps part) : (first.andThen second).Keeps part := by
  intro s
  cases hfirst : (first s).1 with
  | error e =>
    rw [andThen_of_error _ hfirst]
    exact h s
  | ok a =>
    rw [andThen_of_ok _ hfirst]
    exact (h' a _).trans (h s)

theorem Keeps.sequence {γ : Type} {part : σ → γ} {actions : List (Action σ ε Unit)}
    (h : ∀ action ∈ actions, action.Keeps part) : (sequence actions).Keeps part := by
  induction actions with
  | nil => exact fun _ => rfl
  | cons action actions ih =>
    exact (h action List.mem_cons_self).andThen fun _ =>
      ih fun other hother => h other (List.mem_cons_of_mem action hother)

theorem Keeps.each {γ : Type} {part : σ → γ} {actions : List (Action σ ε α)}
    (h : ∀ action ∈ actions, action.Keeps part) (s : σ) : part (each actions s).2 = part s := by
  induction actions generalizing s with
  | nil => rfl
  | cons action actions ih =>
    have hrest := ih (fun other hother => h other (List.mem_cons_of_mem action hother)) (action s).2
    exact hrest.trans (h action List.mem_cons_self s)

def leads (action : Action σ ε α) (s : σ) (check : α → σ → Bool) : Bool :=
  match action s with
  | (.ok a, s) => check a s
  | _ => false

theorem exists_of_leads {check : α → σ → Bool} (h : first.leads s check) :
    ∃ a s', first s = (.ok a, s') ∧ check a s' := by
  unfold leads at h
  split at h
  · exact ⟨_, _, ‹_›, h⟩
  · cases h

end CallGraph.Action
