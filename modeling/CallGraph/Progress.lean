/-! Milestones of a run: each positive multiple of ten percent, the first time it is reached. -/
namespace CallGraph

/-- A reached percentage and the counts behind it. -/
structure Milestone where
  percentage : Nat
  processed : Nat
  total : Nat
  deriving DecidableEq, Repr

/-- The largest count a call graph can announce. -/
def maxCount : Nat :=
  UInt64.size - 1

/-- The percentage that `processed` is of `total`, the product held at the largest count. -/
def percentage (processed total : Nat) : Nat :=
  min (processed * 100) maxCount / total

/-- Counts processed edges against an announced total. -/
structure Tracker where
  total : Nat
  processed : Nat
  lastMilestone : Nat
  deriving DecidableEq, Repr

namespace Tracker

def start (total : Nat) : Tracker :=
  ⟨total, 0, 0⟩

/-- Counts one more edge and tells the milestone it reaches; a total of zero never tells one. -/
def advance (t : Tracker) : Option Milestone × Tracker :=
  let processed := t.processed + 1
  let percent := percentage processed t.total
  if t.total ≠ 0 ∧ percent % 10 = 0 ∧ t.lastMilestone < percent then
    (some ⟨percent, processed, t.total⟩, { t with processed, lastMilestone := percent })
  else
    (none, { t with processed })

/-- The milestones that `n` further edges reach, in order, and the tracker after them. -/
def advanceMany (t : Tracker) (n : Nat) : List Milestone × Tracker :=
  n.repeat (fun (milestones, t) => (milestones ++ t.advance.1.toList, t.advance.2)) ([], t)

end Tracker
end CallGraph
