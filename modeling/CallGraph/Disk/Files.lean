import CallGraph.Disk.Path
import CallGraph.Step

/-! Creating, reading and writing files and folders. -/
namespace CallGraph.Disk

/-- A file opened for writing: where its bytes go, or a device that takes none. -/
inductive Place
  | file (loc : Location)
  | full
  deriving DecidableEq, Repr

/-- A place to write to and how far it has been written. -/
structure Handle where
  place : Place
  offset : Nat
  deriving DecidableEq, Repr

def createFolder (d : Disk) (path : String) : Except IoError Disk :=
  if path.toList.contains '\x00' then .error .nulInName
  else if maxPathBytes < path.utf8ByteSize then .error .nameTooLong
  else
    let names := pathNames path
    let plain := if names.getLast? = some "." ∧ names.length > 1 then names.dropLast else names
    match d.follow false (d.startOf path) plain maxLinks with
    | .error e => .error e
    | .ok (.at _) => .error .alreadyExists
    | .ok (.absent folder name) => .ok (d.put (folder ++ [name]) .folder)

/-- Creates a folder and the missing ones above it, as far up as `levels` goes. -/
def createFoldersUp (d : Disk) (path : String) : (levels : Nat) → Except IoError Unit × Disk
  | 0 => (.error .notFound, d)
  | levels + 1 =>
    if path.isEmpty then (.ok (), d)
    else
      match d.createFolder path with
      | .ok d => (.ok (), d)
      | .error .notFound =>
        match Path.parent? path with
        | none => (.error (.other "failed to create whole tree"), d)
        | some above =>
          match d.createFoldersUp above levels with
          | (.error e, d) => (.error e, d)
          | (.ok (), d) =>
            match d.createFolder path with
            | .ok d => (.ok (), d)
            | .error e => if d.isFolder path then (.ok (), d) else (.error e, d)
      | .error e => if d.isFolder path then (.ok (), d) else (.error e, d)

/-- Creates a folder and the missing ones above it; folders that were created stay. -/
def createFolders (path : String) : Action Disk IoError Unit := fun d =>
  d.createFoldersUp path (path.length + 2)

/-- Opens a file for writing from its start, empty. -/
def create (path : String) : Action Disk IoError Handle := fun d =>
  match d.locate path with
  | .error e => (.error e, d)
  | .ok (.absent folder name) =>
    let loc := folder ++ [name]
    (.ok ⟨.file loc, 0⟩, d.put loc (.file (.bytes .empty) false))
  | .ok (.at loc) =>
    match d.node? loc with
    | some (.file _ executable) => (.ok ⟨.file loc, 0⟩, d.put loc (.file (.bytes .empty) executable))
    | some .fullDevice => (.ok ⟨.full, 0⟩, d)
    | some .folder => (.error .isFolder, d)
    | _ => (.error .notFound, d)

/-- The bytes with others put over them from an offset on; a gap is filled with zeros. -/
def overwrite (data : ByteArray) (offset : Nat) (bytes : ByteArray) : ByteArray :=
  if offset = data.size then data ++ bytes
  else
    let gap : ByteArray := ⟨Array.replicate (offset - data.size) 0⟩
    data.extract 0 offset ++ gap ++ bytes ++ data.extract (offset + bytes.size) data.size

/-- Writes bytes where a handle stands and moves it behind them. -/
def write (h : Handle) (bytes : ByteArray) : Action Disk IoError Handle := fun d =>
  match h.place with
  | .full => (.error .noSpace, d)
  | .file loc =>
    let moved : Handle := { h with offset := h.offset + bytes.size }
    match d.node? loc with
    | some (.file (.bytes data) executable) =>
      (.ok moved, d.put loc (.file (.bytes (overwrite data h.offset bytes)) executable))
    | some (.file (.database _) executable) =>
      (.ok moved, d.put loc (.file (.bytes (overwrite .empty h.offset bytes)) executable))
    | _ => (.ok moved, d)

/-- What the file at a path holds. A full device yields zeros without end, so that reading it never comes to
a result; the error stands for that. -/
def read (d : Disk) (path : String) : Except IoError Contents :=
  match d.locate path with
  | .error e => .error e
  | .ok (.absent _ _) => .error .notFound
  | .ok (.at loc) =>
    match d.node? loc with
    | some (.file contents _) => .ok contents
    | some .folder => .error .isFolder
    | some .fullDevice => .error (.other "zeros without end")
    | _ => .error .notFound

def bytes? (d : Disk) (path : String) : Option ByteArray :=
  match d.lookup? path with
  | some (.file (.bytes data) _) => some data
  | _ => none

/-- The tables of the database file that a path leads to; an empty file is a database without any. -/
def tables? (d : Disk) (path : String) : Option Tables :=
  match d.lookup? path with
  | some (.file (.database tables?) _) => tables?
  | _ => none

/-- The names of the entries of a folder, each once. -/
def namesIn (d : Disk) (folder : Location) : List String :=
  (d.nodes.filterMap fun (loc, _) =>
    if loc.dropLast = folder ∧ loc.length = folder.length + 1 then loc.getLast? else none).eraseDups

def entries (d : Disk) (path : String) : Except IoError (List String) :=
  match d.locate path with
  | .error e => .error e
  | .ok (.absent _ _) => .error .notFound
  | .ok (.at loc) =>
    match d.node? loc with
    | some .folder => .ok (d.namesIn loc)
    | _ => .error .notFolder

/-- Every entry below the working folder, folders with a slash at their end, in ascending order. -/
def tree (d : Disk) : List String :=
  let below := d.nodes.filterMap fun (loc, node) =>
    if d.working.isPrefixOf loc ∧ d.working.length < loc.length then
      let path := String.intercalate "/" (loc.drop d.working.length)
      some (match node with
        | .folder => path ++ "/"
        | _ => path)
    else none
  below.mergeSort fun x y => !decide (y < x)

end CallGraph.Disk
