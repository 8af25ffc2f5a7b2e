import CallGraph.Sink.Basic
import CallGraph.Store.Basic

/-! A store as a destination of edges: each edge is one request, and the store is closed once. -/
namespace CallGraph

/-- A prepared store, and whether it has been closed. -/
structure StoreSink (σ : Type) where
  inner : σ
  closed : Bool
  deriving DecidableEq, Repr

namespace StoreSink

variable {σ : Type}

def clearNote : Note :=
  ⟨.info, .storeSink, "Deleting current graph"⟩

def schemaNote : Note :=
  ⟨.info, .storeSink, "Creating constraints and indices"⟩

def classesNote : Note :=
  ⟨.info, .storeSink, "Creating class dependency graph"⟩

/-- Clears a store and prepares it; a store that fails is closed. Also gives the notes of doing so. -/
def prepare (store : Store σ) (s : σ) : (Except ExportError Unit × List Note) × σ :=
  match store .clear s with
  | (.error e, s) => ((.error (.store e), [clearNote]), (store .close s).2)
  | (.ok (), s) =>
    match store .schema s with
    | (.error e, s) => ((.error (.store e), [clearNote, schemaNote]), (store .close s).2)
    | (.ok (), s) => ((.ok (), [clearNote, schemaNote]), s)

def request (store : Store σ) (r : Request) : Action (StoreSink σ) ExportError Unit :=
  ((store r).mapError .store).within inner fun sink inner => { sink with inner }

def add (store : Store σ) (e : Edge) : Action (StoreSink σ) ExportError Unit :=
  request store (.call e.source e.target e.kind.label)

def deriveClasses (store : Store σ) : Action (StoreSink σ) ExportError Unit :=
  request store .classes

/-- Closes the store, even if that fails; nothing if it has been closed. -/
def close (store : Store σ) : Action (StoreSink σ) ExportError Unit := fun sink =>
  if sink.closed then (.ok (), sink)
  else request store .close { sink with closed := true }

/-- A prepared store as a destination; the class layer is derived at the end if it is wanted. -/
def sink (store : Store σ) (classGraph : Bool) : Sink (StoreSink σ) where
  add := add store
  finish := if classGraph then deriveClasses store else Action.done
  close := close store
  finishNotes := if classGraph then [classesNote] else []

end StoreSink
end CallGraph
