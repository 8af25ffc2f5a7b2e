import CallGraph.Edge
import CallGraph.Error
import CallGraph.Note
import CallGraph.Step

/-! Destinations of exported edges. -/
namespace CallGraph

/-- What a destination with state `σ` does; closing it again does nothing. -/
structure Sink (σ : Type) where
  add : Edge → Action σ ExportError Unit
  /-- Work that is left after the last edge of a successful run. -/
  finish : Action σ ExportError Unit
  close : Action σ ExportError Unit
  /-- What is told before that work. -/
  finishNotes : List Note

/-- A destination within a larger state. -/
def Sink.within {σ τ : Type} (sink : Sink σ) (get : τ → σ) (set : τ → σ → τ) : Sink τ where
  add e := (sink.add e).within get set
  finish := sink.finish.within get set
  close := sink.close.within get set
  finishNotes := sink.finishNotes

end CallGraph
