import CallGraph.Analyzer.Engine
import CallGraph.Remote.Session
import CallGraph.Sink.Documents
import CallGraph.Sink.Store
import CallGraph.Store.Database

/-!
A whole export: the destination is opened, then the call graph, and then the edges are run through.
-/
namespace CallGraph

inductive Destination
  | documents (folder : String)
  | server (address user password : String) (classGraph : Bool)
  | database (path : String) (classGraph : Bool)
  deriving DecidableEq, Repr

/-- An export: the settings of the analysis, the filter, and the destination. -/
structure Export where
  settings : Settings
  filter : Filter
  destination : Destination
  deriving DecidableEq, Repr

namespace Export

/-- The result of an export, what happened, and the world after it. -/
abbrev Outcome (ν : Type) := Pipeline.Run (World ν) Summary

variable {ν : Type}

/-- An export that fails before its destination is open. -/
def refused (e : ExportError) (notes : List Note) (w : World ν) : Outcome ν :=
  ⟨.error e, notes.map .note, w⟩

/-- Opens the call graph and runs it into an open destination, which is closed in any case. -/
def runInto {σ : Type} (x : Export) (engine : Engine) (sink : Sink (σ × World ν)) (s : σ × World ν) :
    Pipeline.Run (σ × World ν) Summary :=
  let opening := (engine.notes x.settings).map .note
  match engine.source s.2 x.settings with
  | .error e => ⟨.error e, opening, (sink.close s).2⟩
  | .ok source => (Pipeline.run source x.filter.admits sink s).after opening

/-- The outcome of running into a destination that was opened with some notes. -/
def concluded {σ : Type} (notes : List Note) (run : Pipeline.Run (σ × World ν) Summary) :
    Outcome ν :=
  ⟨run.result, notes.map .note ++ run.trace, run.state.2⟩

def toDocuments (x : Export) (engine : Engine) (folder : String) (w : World ν) : Outcome ν :=
  match Documents.prepareFolder folder w.disk with
  | (.error e, d) => refused e [] (w.withDisk d)
  | (.ok (), d) =>
    let notes := [Documents.openNote folder]
    match Documents.openIn folder d with
    | (.error e, d) => refused e notes (w.withDisk d)
    | (.ok docs, d) =>
      let sink : Sink (Documents × World ν) :=
        Documents.sink.within (fun (docs, w) => (docs, w.disk))
          (fun (_, w) (docs, d) => (docs, w.withDisk d))
      concluded notes (x.runInto engine sink (docs, w.withDisk d))

def toStore {σ : Type} (x : Export) (engine : Engine) (store : Store (σ × World ν)) (classGraph : Bool)
    (notes : List Note) (s : σ × World ν) : Outcome ν :=
  match StoreSink.prepare store s with
  | ((.error e, more), s) => refused e (notes ++ more) s.2
  | ((.ok (), more), s) =>
    let sink : Sink ((σ × Bool) × World ν) :=
      (StoreSink.sink store classGraph).within (fun ((s, closed), w) => ⟨(s, w), closed⟩)
        (fun _ sink => ((sink.inner.1, sink.closed), sink.inner.2))
    concluded (notes ++ more) (x.runInto engine sink ((s.1, false), s.2))

def toServer [Remote.Driver ν] (x : Export) (engine : Engine) (address user password : String)
    (classGraph : Bool) (w : World ν) : Outcome ν :=
  let notes :=
    [⟨.info, .export, "Connecting to Neo4j at " ++ address⟩, Remote.Session.startNote address]
  match (Remote.Session.start address user password : Except StoreError (Remote.Session ν)) with
  | .error e => refused (.store e) notes w
  | .ok session =>
    let store : Store (Remote.Session ν × World ν) :=
      Store.within Remote.Session.store (fun (s, w) => (s, w.server))
        (fun (_, w) (s, server) => (s, w.withServer server))
    x.toStore engine store classGraph notes (session, w)

def prepareDatabaseFolder (path : String) : Action Disk ExportError Unit := fun d =>
  match Path.parent? path with
  | none => (.ok (), d)
  | some folder =>
    if folder.isEmpty then (.ok (), d)
    else
      (Disk.createFolders folder).mapError (.configuration <| .databaseFolderFailed folder ·) d

def toDatabase (x : Export) (engine : Engine) (path : String) (classGraph : Bool) (w : World ν) :
    Outcome ν :=
  match prepareDatabaseFolder path w.disk with
  | (.error e, d) => refused e [] (w.withDisk d)
  | (.ok (), d) =>
    let notes := [⟨.info, .export, "Opening SQLite graph store at " ++ path⟩]
    match Database.openAt path d with
    | (.error e, d) => refused (.store e) notes (w.withDisk d)
    | (.ok db, d) =>
      let store : Store (Database × World ν) :=
        Store.within Database.store (fun (db, w) => (db, w.disk))
          (fun (_, w) (db, d) => (db, w.withDisk d))
      x.toStore engine store classGraph notes (db, w.withDisk d)

def run [Remote.Driver ν] (x : Export) (engine : Engine) (w : World ν) : Outcome ν :=
  match x.destination with
  | .documents folder => x.toDocuments engine folder w
  | .server address user password classGraph =>
    x.toServer engine address user password classGraph w
  | .database path classGraph => x.toDatabase engine path classGraph w

end Export
end CallGraph
