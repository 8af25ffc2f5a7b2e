import CallGraph.Sink.Basic

/-! Destinations behind a guard that rejects some of what they are asked. -/
namespace CallGraph

/-- What a guard rejects: every edge after so many, the last work, or closing. -/
structure Guard where
  adds? : Option Nat
  finish : Bool
  close : Bool
  deriving DecidableEq, Repr

namespace Sink

variable {σ : Type}

/-- Takes every edge and keeps none. -/
def accepting : Sink Unit where
  add _ := Action.done
  finish := Action.done
  close := Action.done
  finishNotes := []

/-- Fails in any case. -/
def reject (e : ExportError) : Action σ ExportError Unit := fun s =>
  (.error e, s)

/-- The destination behind a guard, with the number of edges that have passed; a rejected edge and
rejected last work do not reach it, while closing is rejected only after it has been done. -/
def guarded (g : Guard) (rejection : String → ExportError) (sink : Sink σ) : Sink (σ × Nat) where
  add e := fun (s, passed) =>
    if g.adds? = some passed then reject (rejection "add") (s, passed)
    else
      let (result, s) := sink.add e s
      (result, s, passed + 1)
  finish := fun (s, passed) =>
    if g.finish then reject (rejection "finish") (s, passed)
    else
      let (result, s) := sink.finish s
      (result, s, passed)
  close := fun (s, passed) =>
    let (result, s) := sink.close s
    (result.bind fun _ => if g.close then .error (rejection "close") else .ok (), s, passed)
  finishNotes := sink.finishNotes

end Sink
end CallGraph
