import CallGraph.Error
import CallGraph.Store.Tables

/-! Folders, files and links: what stands at a location, and where a path leads. -/
namespace CallGraph

/-- The names from the root down to an entry. -/
abbrev Location := List String

/-- What a file holds: bytes, or an embedded database that may have its tables. -/
inductive Contents
  | bytes (data : ByteArray)
  | database (tables? : Option Tables)

/-- What stands at a location; a full device is a file on which nothing can be written. -/
inductive Node
  | folder
  | file (contents : Contents) (executable : Bool)
  | link (target : String)
  | fullDevice

/-- All entries below the root, and the folder that relative paths start from. -/
structure Disk where
  nodes : List (Location × Node)
  working : Location

namespace Disk

/-- What stands at a location. -/
def node? (d : Disk) (loc : Location) : Option Node :=
  if loc.isEmpty then some .folder else (d.nodes.find? (·.1 == loc)).map (·.2)

/-- The disk with an entry put at a location in place of what stands there. -/
def put (d : Disk) (loc : Location) (node : Node) : Disk :=
  if d.nodes.any (·.1 == loc) then
    { d with nodes := d.nodes.map fun entry => if entry.1 == loc then (loc, node) else entry }
  else { d with nodes := d.nodes ++ [(loc, node)] }

/-- The disk with an entry put at a location below the working folder, and the folders above it. -/
def withEntry (d : Disk) (names : List String) (node : Node) : Disk :=
  let above := (List.range names.length).drop 1
  let folders := above.foldl (fun d n =>
    let loc := d.working ++ names.take n
    if (d.node? loc).isSome then d else d.put loc .folder) d
  folders.put (d.working ++ names) node

/-- An empty working folder on a disk that also has the full device. -/
def fresh (working : Location) : Disk :=
  ⟨[(["dev"], .folder), (["dev", "full"], .fullDevice), (working, .folder)], working⟩

/-- The names in a path, a slash at its end standing for the folder itself. -/
def pathNames (path : String) : List String :=
  let names := ((path.toList.splitOn '/').filter (!·.isEmpty)).map String.ofList
  if path.toList.getLast? = some '/' ∧ !names.isEmpty then names ++ ["."] else names

def isAbsolute (path : String) : Bool :=
  path.toList.head? = some '/'

def startOf (d : Disk) (path : String) : Location :=
  if isAbsolute path then [] else d.working

/-- Where following names stops. -/
inductive Stop
  | at (loc : Location)
  | absent (folder : Location) (name : String)
  | link (folder : Location) (target : String) (rest : List String)

/-- Longer names are refused. -/
def maxNameBytes : Nat := 255

def maxPathBytes : Nat := 4095

/-- Follows names from a location up to the first link; the last name may stay a link. -/
def walk (d : Disk) (followLast : Bool) (here : Location) : List String → Except IoError Stop
  | [] => .ok (.at here)
  | name :: rest =>
    match d.node? here with
    | some .folder =>
      if name = "." then d.walk followLast here rest
      else if name = ".." then d.walk followLast here.dropLast rest
      else if maxNameBytes < name.utf8ByteSize then .error .nameTooLong
      else
        match d.node? (here ++ [name]) with
        | none => if rest.isEmpty then .ok (.absent here name) else .error .notFound
        | some (.link target) =>
          if rest.isEmpty ∧ !followLast then .ok (.at (here ++ [name]))
          else .ok (.link here target rest)
        | some _ => d.walk followLast (here ++ [name]) rest
    | _ => .error .notFolder

/-- Where a path leads: to an entry, or to a name that is free in a folder. -/
inductive Target
  | at (loc : Location)
  | absent (folder : Location) (name : String)
  deriving DecidableEq, Repr

def maxLinks : Nat := 40

/-- Follows names and at most so many links. -/
def follow (d : Disk) (followLast : Bool) (here : Location) (names : List String) :
    Nat → Except IoError Target
  | 0 =>
    match d.walk followLast here names with
    | .error e => .error e
    | .ok (.at loc) => .ok (.at loc)
    | .ok (.absent folder name) => .ok (.absent folder name)
    | .ok (.link _ _ _) => .error .tooManyLinks
  | links + 1 =>
    match d.walk followLast here names with
    | .error e => .error e
    | .ok (.at loc) => .ok (.at loc)
    | .ok (.absent folder name) => .ok (.absent folder name)
    | .ok (.link folder target rest) =>
      d.follow followLast (if isAbsolute target then [] else folder) (pathNames target ++ rest) links

/-- Where a path leads. -/
def locate (d : Disk) (path : String) : Except IoError Target :=
  if path.isEmpty then .error .notFound
  else if path.toList.contains '\x00' then .error .nulInName
  else if maxPathBytes < path.utf8ByteSize then .error .nameTooLong
  else d.follow true (d.startOf path) (pathNames path) maxLinks

/-- What stands where a path leads. -/
def lookup? (d : Disk) (path : String) : Option Node :=
  match d.locate path with
  | .ok (.at loc) => d.node? loc
  | _ => none

def hasEntry (d : Disk) (path : String) : Bool :=
  (d.lookup? path).isSome

def isFolder (d : Disk) (path : String) : Bool :=
  match d.lookup? path with
  | some .folder => true
  | _ => false

def isFile (d : Disk) (path : String) : Bool :=
  match d.lookup? path with
  | some (.file _ _) => true
  | _ => false

end Disk
end CallGraph
