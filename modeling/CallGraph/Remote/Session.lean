import CallGraph.Note
import CallGraph.Remote.Server
import CallGraph.Store.Basic
import CallGraph.Store.Tables

/-!
A graph server as a store, reached through a client library. Each change is a transaction of its own;
schema statements and questions run outside transactions.
-/
namespace CallGraph.Remote

/-- A handle on a server; none once the session is closed. -/
structure Session (ν : Type := Server) [Driver ν] where
  handle? : Option (Driver.Handle ν)

namespace Session

def startNote (address : String) : Note :=
  ⟨.debug, .server, "Connecting to " ++ address⟩

variable {ν : Type} [Driver ν]

def start (address user password : String) : Except StoreError (Session ν) :=
  match Driver.connect address user password with
  | .ok handle => .ok ⟨some handle⟩
  | .error e => .error (.remote e)

/-- Calls the library with the handle of a session, which a closed one has not. -/
def through {α : Type} (call : Driver.Handle ν → Action ν RemoteError α) :
    Action (Session ν × ν) StoreError α := fun (s, server) =>
  match s.handle? with
  | none => (.error .closed, s, server)
  | some handle =>
    let (result, server) := (call handle).mapError .remote server
    (result, s, server)

/-- Statements in one transaction: committed if all succeed, else rolled back. -/
def transaction (queries : List Query) (handle : Driver.Handle ν) : Action ν RemoteError Unit :=
  (Driver.begin handle).andThen fun txn server =>
    match Action.sequence (queries.map (Driver.run txn)) server with
    | (.ok (), server) => Driver.commit txn server
    | (.error e, server) => (.error e, (Driver.rollback txn server).2)

/-- Statements one after another, none of them in a transaction with another. -/
def statements (texts : List String) (handle : Driver.Handle ν) : Action ν RemoteError Unit :=
  Action.sequence (texts.map fun text => Driver.runAlone handle (.plain text))

/-- Lets the handle go; nothing if that has been done. -/
def close : Action (Session ν × ν) StoreError Unit := fun (s, server) =>
  match s.handle? with
  | none => (.ok (), s, server)
  | some handle => (.ok (), ⟨none⟩, Driver.release handle server)

/-- Carries out a request; once closed, a session refuses all but closing. -/
def store : Store (Session ν × ν)
  | .clear => through (transaction (Query.delete.map .plain))
  | .schema => through (statements Query.schema)
  | .call source target kind => through (transaction [.addCall source target kind])
  | .classes => through (transaction [.plain Query.classDependency])
  | .close => close

/-- The rows that answer a question. -/
def fetch (query : Query) : Action (Session ν × ν) StoreError (List (Driver.Row ν)) :=
  through fun handle => Driver.ask handle query

/-- What stands in a column of a row. -/
def column {α : Type} (get : Driver.Row ν → String → Except String α) (row : Driver.Row ν)
    (name : String) : Except StoreError α :=
  (get row name).mapError fun fault => .decode ("column " ++ name ++ ": " ++ fault)

/-- The number that answers a question; no row is zero, and a negative number wraps around. -/
def count (text : String) : Action (Session ν × ν) StoreError Nat :=
  (fetch (.plain text)).andThen fun rows s =>
    match rows with
    | [] => (.ok 0, s)
    | row :: _ => ((column Driver.number row "n").map (·.toUInt64.toNat), s)

/-- The numbers that answer questions, asked in order. -/
def countAll : List String → Action (Session ν × ν) StoreError (List Nat)
  | [] => fun s => (.ok [], s)
  | text :: texts =>
    (count text).andThen fun n => (countAll texts).andThen fun ns s => (.ok (n :: ns), s)

/-- The number of stored methods, calls, classes and dependencies. -/
def counts : Action (Session ν × ν) StoreError GraphCounts :=
  (countAll Query.counts).andThen fun ns s =>
    (.ok ⟨ns.getD 0 0, ns.getD 1 0, ns.getD 2 0, ns.getD 3 0⟩, s)

/-- Name, class and package of the method with a signature. -/
def properties (signature : String) :
    Action (Session ν × ν) StoreError (Option (String × String × String)) :=
  (fetch ⟨Query.properties, [("sig", signature)]⟩).andThen fun rows s =>
    match rows with
    | [] => (.ok none, s)
    | row :: _ =>
      let text := column Driver.text row
      (do return some (← text "name", ← text "class", ← text "package"), s)

/-- The dependencies between classes in the order of the server's answer. -/
def classDependencies : Action (Session ν × ν) StoreError (List (ClassKey × ClassKey)) :=
  (fetch (.plain Query.classDependencies)).andThen fun rows s =>
    (rows.mapM fun row => do
      let text := column Driver.text row
      let source : ClassKey := ⟨← text "src_name", ← text "src_package"⟩
      let target : ClassKey := ⟨← text "tgt_name", ← text "tgt_package"⟩
      return (source, target), s)

end Session
end CallGraph.Remote
