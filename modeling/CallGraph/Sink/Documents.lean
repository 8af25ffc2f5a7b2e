import CallGraph.Sink.Basic
import CallGraph.Sink.Document

/-!
The call graph as two JSON documents in a folder: an object that describes each method once, under its
signature, and a list of the edges.
-/
namespace CallGraph

/-- The two documents and the signatures that are described so far, the latest first. -/
structure Documents where
  mapping : Document
  edges : Document
  described : List String

namespace Documents

def mappingName : String := "mapping.json"

def edgesName : String := "edges.json"

/-- What the method document says about a method. -/
def methodValue (m : Method) : Json.Value :=
  .object [("method", .text m.name), ("class", .text m.className), ("package", .text m.package)]

/-- What the edge document says about an edge. -/
def edgeValue (e : Edge) : Json.Value :=
  .object [("src", .text e.source.signature), ("tgt", .text e.target.signature),
    ("kind", .text e.kind.label)]

/-- Makes sure that the output folder is there. -/
def prepareFolder (folder : String) : Action Disk ExportError Unit := fun d =>
  if d.hasEntry folder ∧ !d.isFolder folder then
    (.error (.configuration (.outputTaken folder)), d)
  else
    (Disk.createFolders folder).mapError (.configuration <| .outputFailed folder ·) d

/-- Creates both documents; the first is let go if the second cannot be created. -/
def openIn (folder : String) : Disk → Except ExportError Documents × Disk := fun d =>
  match Document.create (Path.join folder mappingName) "\x7b" "\x7d" d with
  | (.error e, d) => (.error e, d)
  | (.ok mapping, d) =>
    match Document.create (Path.join folder edgesName) "[" "]" d with
    | (.error e, d) => (.error e, mapping.abandon d)
    | (.ok edges, d) => (.ok ⟨mapping, edges, []⟩, d)

def openNote (folder : String) : Note :=
  ⟨.info, .documents, "Writing call graph to " ++ folder⟩

def create (folder : String) : Disk → Except ExportError Documents × Disk := fun d =>
  match prepareFolder folder d with
  | (.error e, d) => (.error e, d)
  | (.ok (), d) => openIn folder d

def methodCount (docs : Documents) : Nat :=
  docs.described.length

def onMapping (action : Action (Document × Disk) ExportError Unit) :
    Action (Documents × Disk) ExportError Unit :=
  action.within (fun (docs, d) => (docs.mapping, d))
    (fun (docs, _) (mapping, d) => ({ docs with mapping }, d))

def onEdges (action : Action (Document × Disk) ExportError Unit) :
    Action (Documents × Disk) ExportError Unit :=
  action.within (fun (docs, d) => (docs.edges, d))
    (fun (docs, _) (edges, d) => ({ docs with edges }, d))

/-- Counts a signature as described. -/
def markDescribed (signature : String) : Action (Documents × Disk) ExportError Unit :=
  fun (docs, d) => (.ok (), { docs with described := signature :: docs.described }, d)

/-- Describes a method unless its signature is described. -/
def addMethod (m : Method) : Action (Documents × Disk) ExportError Unit := fun (docs, d) =>
  if docs.described.contains m.signature then (.ok (), docs, d)
  else
    (onMapping (Document.appendMember m.signature (methodValue m))).andThen
      (fun _ => markDescribed m.signature) (docs, d)

/-- Describes both endpoints and lists the edge. -/
def addEdge (e : Edge) : Action (Documents × Disk) ExportError Unit :=
  Action.sequence
    [addMethod e.source, addMethod e.target, onEdges (Document.appendItem (edgeValue e))]

/-- Closes both documents, the second also if the first cannot be closed. -/
def close : Action (Documents × Disk) ExportError Unit := fun s =>
  let (mapping, s) := onMapping Document.close s
  let (edges, s) := onEdges Document.close s
  (mapping.bind fun _ => edges, s)

/-- Lets the documents go: they are closed if they are not yet. -/
def drop (docs : Documents) (d : Disk) : Disk :=
  (close (docs, d)).2.2

/-- The two documents as a destination of edges. -/
def sink : Sink (Documents × Disk) where
  add := addEdge
  finish := Action.done
  close := close
  finishNotes := []

end Documents
end CallGraph
