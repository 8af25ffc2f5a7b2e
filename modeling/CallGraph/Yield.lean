/-! Values that a state yields one after another. -/
namespace CallGraph

variable {σ α : Type}

/-- What a state yields within a number of steps, up to its first end, and the state after it. -/
def drain (next : σ → Option α × σ) (s : σ) : (steps : Nat) → List α × σ
  | 0 => ([], s)
  | steps + 1 =>
    match next s with
    | (none, last) => ([], last)
    | (some value, later) =>
      let (values, last) := drain next later steps
      (value :: values, last)

end CallGraph
