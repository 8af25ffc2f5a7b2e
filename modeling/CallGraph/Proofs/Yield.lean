import CallGraph.Yield
import Mathlib.Logic.Function.Iterate
import Mathlib.Tactic.Common

/-! What a state yields, call by call, as a list of values that are still to come. -/
namespace CallGraph

variable {σ α : Type} {next : σ → Option α × σ} {view : σ → List α}

/-- What a state yields when it is asked once more after a number of calls. -/
def yielded (next : σ → Option α × σ) (s : σ) (calls : ℕ) : Option α :=
  (next ((fun s => (next s).2)^[calls] s)).1

/-- Each call yields the first value of those still to come, and nothing once there are none. -/
def Yields (next : σ → Option α × σ) (view : σ → List α) : Prop :=
  ∀ s, (next s).1 = (view s).head? ∧ view (next s).2 = (view s).tail

theorem Yields.view_iterate (h : Yields next view) (s : σ) (calls : ℕ) :
    view ((fun s => (next s).2)^[calls] s) = (view s).drop calls := by
  induction calls with
  | zero => rfl
  | succ calls ih =>
    rw [Function.iterate_succ_apply', (h _).2, ih, List.tail_drop]

/-- The calls yield the list, one value each, and nothing from then on. -/
theorem Yields.yielded_eq (h : Yields next view) (s : σ) :
    yielded next s = fun calls => (view s)[calls]? := by
  funext calls
  rw [yielded, (h _).1, h.view_iterate, List.head?_drop]

theorem Yields.drain_eq (h : Yields next view) {s : σ} {steps : ℕ}
    (hsteps : (view s).length ≤ steps) : (drain next s steps).1 = view s := by
  induction steps generalizing s with
  | zero =>
    rw [List.eq_nil_of_length_eq_zero (Nat.le_zero.mp hsteps)]
    rfl
  | succ steps ih =>
    obtain ⟨hhead, htail⟩ := h s
    unfold drain
    rcases hnext : next s with ⟨value?, later⟩
    rw [hnext] at hhead htail
    dsimp only at hhead htail
    cases hview : view s with
    | nil =>
      rw [hview] at hhead
      subst hhead
      rfl
    | cons value values =>
      rw [hview] at hhead htail hsteps
      subst hhead
      have hlater : (view later).length ≤ steps := by
        rw [htail]
        simpa using hsteps
      simp only [List.head?_cons]
      rw [ih hlater, htail, List.tail_cons]

end CallGraph
