import CallGraph.Progress
import CallGraph.Sink.Basic

/-!
One pass over a stream of edges: the admitted ones are added to a destination, milestones are told, and
the destination is closed whatever happens. The first failure in time is the result.
-/
namespace CallGraph

/-- A finite stream of edges and the counts that are announced before it. -/
structure Source where
  edgeCount : Nat
  methodCount : Nat
  items : List (Except ExportError Edge)

/-- The counts of a completed run. -/
structure Summary where
  total : Nat
  processed : Nat
  admitted : Nat
  deriving DecidableEq, Repr

/-- What happens during a run, in order. -/
inductive Event
  | note (n : Note)
  | pull
  | add (e : Edge)
  | milestone (m : Milestone)
  | finish
  | close
  deriving DecidableEq, Repr

def Milestone.note (m : Milestone) : Note :=
  ⟨.info, .progress, "Processed " ++ toString m.percentage ++ "% of all edges (" ++
    toString m.processed ++ "/" ++ toString m.total ++ ")"⟩

/-- The note that an event makes; milestones make one if they are to be logged. -/
def Event.note? (logMilestones : Bool) : Event → Option Note
  | note n => some n
  | milestone m => if logMilestones then some m.note else none
  | _ => none

def Event.milestone? : Event → Option Milestone
  | milestone m => some m
  | _ => none

namespace Pipeline

/-- The result of a run or of a part of it, what happened, and the destination after it. -/
structure Run (σ α : Type) where
  result : Except ExportError α
  trace : List Event
  state : σ

/-- The counts of the edges so far. -/
structure Tally where
  tracker : Tracker
  admitted : Nat
  deriving DecidableEq, Repr

def Tally.start (total : Nat) : Tally :=
  ⟨.start total, 0⟩

/-- Counts an edge and tells the milestone it reaches. -/
def Tally.count (t : Tally) (admitted : Bool) : List Event × Tally :=
  let (milestone?, tracker) := t.tracker.advance
  (milestone?.toList.map .milestone, ⟨tracker, if admitted then t.admitted + 1 else t.admitted⟩)

def Tally.summary (t : Tally) : Summary :=
  ⟨t.tracker.total, t.tracker.processed, t.admitted⟩

variable {σ : Type}

/-- Something that happened before a part of a run. -/
def Run.after {α : Type} (events : List Event) (run : Run σ α) : Run σ α :=
  { run with trace := events ++ run.trace }

/-- Adds the admitted edges up to the first failure. -/
def feed (admits : Edge → Bool) (sink : Sink σ) (t : Tally) (s : σ) :
    List (Except ExportError Edge) → Run σ Tally
  | [] => ⟨.ok t, [], s⟩
  | .error e :: _ => ⟨.error e, [.pull], s⟩
  | .ok e :: rest =>
    if admits e then
      match sink.add e s with
      | (.error f, s) => ⟨.error f, [.pull, .add e], s⟩
      | (.ok (), s) =>
        let (milestones, t) := t.count true
        (feed admits sink t s rest).after (.pull :: .add e :: milestones)
    else
      let (milestones, t) := t.count false
      (feed admits sink t s rest).after (.pull :: milestones)

def finish (sink : Sink σ) (t : Tally) (s : σ) : Run σ Summary :=
  let (result, s) := sink.finish s
  ⟨result.map fun _ => t.summary, .finish :: sink.finishNotes.map .note, s⟩

def openingNotes (source : Source) : List Note :=
  [⟨.info, .pipeline, "Number of reachable methods is " ++ toString source.methodCount⟩,
    ⟨.info, .pipeline, "Beginning to process call graph of size " ++ toString source.edgeCount⟩]

def doneNote (s : Summary) : Note :=
  ⟨.info, .pipeline, "Done creating function call graph (" ++ toString s.admitted ++ " of " ++
    toString s.processed ++ " edges exported)"⟩

/-- What is told when the destination cannot be closed after another failure. -/
def closeNote (e : ExportError) : Note :=
  ⟨.warning, .pipeline, "Failed to close sink after error: " ++ e.message⟩

/-- Closes the destination; a failure to do so counts only if nothing failed before. -/
def close (sink : Sink σ) (run : Run σ Summary) : Run σ Summary :=
  let (closed, s) := sink.close run.state
  match run.result, closed with
  | .ok summary, .ok () => ⟨.ok summary, run.trace ++ [.close, .note (doneNote summary)], s⟩
  | .ok _, .error e => ⟨.error e, run.trace ++ [.close], s⟩
  | .error e, .ok () => ⟨.error e, run.trace ++ [.close], s⟩
  | .error e, .error f => ⟨.error e, run.trace ++ [.close, .note (closeNote f)], s⟩

/-- Exports a stream of edges into a destination. -/
def run (source : Source) (admits : Edge → Bool) (sink : Sink σ) (s : σ) : Run σ Summary :=
  let fed := feed admits sink (.start source.edgeCount) s source.items
  let finished : Run σ Summary :=
    match fed.result with
    | .error e => ⟨.error e, fed.trace, fed.state⟩
    | .ok t => (finish sink t fed.state).after fed.trace
  (close sink finished).after ((openingNotes source).map .note)

end Pipeline
end CallGraph
