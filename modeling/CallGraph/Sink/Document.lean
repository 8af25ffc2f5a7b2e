import CallGraph.Disk.Writer
import CallGraph.Json.Value

/-! A JSON list or object that is written to a file member by member. -/
namespace CallGraph

/-- A document that is being written; it has no writer once it is closed. -/
structure Document where
  path : String
  writer? : Option Disk.Writer
  closer : String
  hasMembers : Bool

namespace Document

/-- Creates the file and writes the opening bracket into the buffer. -/
def create (path opener closer : String) : Disk → Except ExportError Document × Disk := fun d =>
  match Disk.create path d with
  | (.error e, d) => (.error (.io path e), d)
  | (.ok handle, d) =>
    match Disk.Writer.put opener.toUTF8 (.start handle, d) with
    | (.error e, _, d) => (.error (.io path e), d)
    | (.ok (), w, d) => (.ok ⟨path, some w, closer, false⟩, d)

def write (piece : String) : Action (Document × Disk) ExportError Unit := fun (doc, d) =>
  match doc.writer? with
  | none => (.error (.io doc.path .streamClosed), doc, d)
  | some w =>
    let (result, w, d) := Disk.Writer.put piece.toUTF8 (w, d)
    (result.mapError (.io doc.path), { doc with writer? := some w }, d)

/-- Writes pieces in order up to the first that fails. -/
def writeAll (pieces : List String) : Action (Document × Disk) ExportError Unit :=
  Action.sequence (pieces.map write)

/-- Writes a comma if a member stands before. -/
def beginMember : Action (Document × Disk) ExportError Unit := fun (doc, d) =>
  let mark : Document → Document := fun doc => { doc with hasMembers := true }
  if doc.hasMembers then
    let (result, doc, d) := write "," (doc, d)
    (result, mark doc, d)
  else (.ok (), mark doc, d)

/-- Appends a member, given in pieces. -/
def append (pieces : List String) : Action (Document × Disk) ExportError Unit :=
  beginMember.andThen fun _ => writeAll pieces

def appendItem (item : Json.Value) : Action (Document × Disk) ExportError Unit :=
  append item.pieces

def appendMember (key : String) (value : Json.Value) : Action (Document × Disk) ExportError Unit :=
  append (Json.textPieces key ++ ":" :: value.pieces)

/-- Writes the closing bracket and all that is held back; nothing if that has been done before. -/
def close : Action (Document × Disk) ExportError Unit := fun (doc, d) =>
  match doc.writer? with
  | none => (.ok (), doc, d)
  | some w =>
    let finish := (Disk.Writer.put doc.closer.toUTF8).andThen fun _ => Disk.Writer.flush
    let (result, _, d) := finish (w, d)
    (result.mapError (.io doc.path), { doc with writer? := none }, d)

/-- Lets a document go without closing it: what is held back is still written if it can be. -/
def abandon (doc : Document) (d : Disk) : Disk :=
  match doc.writer? with
  | none => d
  | some w => (Disk.Writer.flush (w, d)).2.2

end Document
end CallGraph
