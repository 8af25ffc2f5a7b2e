import CallGraph.Disk.Files
import CallGraph.Store.Embedded

/-! An embedded store whose tables are kept in a file. -/
namespace CallGraph

/-- Where the tables are kept. -/
inductive Home
  | memory
  | file (loc : Location)
  | full
  deriving DecidableEq, Repr

/-- An embedded store and where its tables are kept. -/
structure Database where
  home : Home
  embedded : Embedded
  deriving DecidableEq, Repr

namespace Database

/-- A database that is gone when it is closed. -/
def inMemory : Database :=
  ⟨.memory, .opened none⟩

/-- The number of bytes before the first NUL. -/
def nulPosition (path : String) : Nat :=
  Json.byteSize (path.toList.takeWhile (· ≠ '\x00'))

/-- Opens the database in a file, which is created if there is none; an empty file has no tables. A path
is taken as it stands: the options of one that starts with `file:` are not read. -/
def openAt (path : String) : Disk → Except StoreError Database × Disk := fun d =>
  let refuse (e : DatabaseError) : Except StoreError Database × Disk := (.error (.database e), d)
  if path.isEmpty ∨ path = ":memory:" then (.ok inMemory, d)
  else if path.toList.contains '\x00' then refuse (.nulInPath (nulPosition path))
  else
    match d.locate path with
    | .error _ => refuse (.cannotOpen path)
    | .ok (.absent folder name) =>
      let loc := folder ++ [name]
      (.ok ⟨.file loc, .opened none⟩, d.put loc (.file (.bytes .empty) false))
    | .ok (.at loc) =>
      match d.node? loc with
      | some (.file (.database tables?) _) => (.ok ⟨.file loc, .opened tables?⟩, d)
      | some (.file (.bytes data) _) =>
        if data.isEmpty then (.ok ⟨.file loc, .opened none⟩, d) else refuse .notADatabase
      | some .fullDevice => (.ok ⟨.full, .opened none⟩, d)
      | _ => refuse (.cannotOpen path)

/-- Puts tables into the file at a location. -/
def save (loc : Location) (tables? : Option Tables) (d : Disk) : Disk :=
  match d.node? loc with
  | some (.file _ executable) => d.put loc (.file (.database tables?) executable)
  | _ => d

/-- Carries out a request and keeps the tables it changes. -/
def store : Store (Database × Disk) := fun request (db, d) =>
  let (result, embedded) := Embedded.store request db.embedded
  match db.home, embedded with
  | .file loc, .opened tables? =>
    if embedded = db.embedded then (result, db, d)
    else (result, { db with embedded }, save loc tables? d)
  | .full, .opened _ =>
    if embedded = db.embedded then (result, db, d) else (.error (.database .full), db, d)
  | _, _ => (result, { db with embedded }, d)

end Database
end CallGraph
