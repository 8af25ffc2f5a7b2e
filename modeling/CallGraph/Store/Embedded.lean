import CallGraph.Store.Basic
import CallGraph.Store.Tables

/-! A store that keeps its graph in tables of its own. -/
namespace CallGraph

/-- An open database, which may lack its tables, or a closed one. -/
inductive Embedded
  | opened (tables? : Option Tables)
  | closed
  deriving DecidableEq, Repr

namespace Embedded

/-- A statement that changes rows; without tables it fails and names the one it asks for first. -/
def statement (table : Table) (change : Tables → Tables) : Action (Option Tables) DatabaseError Unit
  | none => (.error (.noTable table.name), none)
  | some t => (.ok (), some (change t))

/-- Removes a table if it is there; refused while rows of another table refer to its rows. -/
def removal (table : Table) : Action (Option Tables) DatabaseError Unit
  | none => (.ok (), none)
  | some t =>
    if t.isReferredTo table then (.error .foreignKey, some t) else (.ok (), some (t.emptied table))

/-- Removes one table after another; none is left once the last has been emptied. -/
def removeAll : Action (Option Tables) DatabaseError Unit :=
  (Action.sequence (Table.removalOrder.map removal)).andThen fun _ _ => (.ok (), none)

/-- Creates the tables that are missing. -/
def createMissing : Action (Option Tables) DatabaseError Unit := fun tables? =>
  (.ok (), some (tables?.getD .empty))

/-- The call and its two methods in one transaction. -/
def mergeCall (source target : Method) (kind : String) : Action (Option Tables) DatabaseError Unit :=
  Action.atomic <| Action.sequence
    [statement .methods (·.insertMethod source), statement .methods (·.insertMethod target),
      statement .calls (·.insertCall source.signature target.signature kind)]

/-- The class layer of the stored calls in one transaction. -/
def mergeClasses : Action (Option Tables) DatabaseError Unit :=
  Action.atomic <| Action.sequence
    [statement .classes (·.deriveClasses), statement .dependencies (·.deriveDependencies)]

/-- What a request does to the tables of an open database. -/
def perform : Request → Action (Option Tables) DatabaseError Unit
  | .clear => removeAll
  | .schema => createMissing
  | .call source target kind => mergeCall source target kind
  | .classes => mergeClasses
  | .close => Action.done

/-- Carries out a request; a closed database can only be closed again. -/
def store : Store Embedded := fun request s =>
  match s, request with
  | .closed, .close => (.ok (), .closed)
  | .closed, _ => (.error .closed, .closed)
  | .opened _, .close => (.ok (), .closed)
  | .opened tables?, request =>
    let (result, tables?) := perform request tables?
    (result.mapError .database, .opened tables?)

/-- Reads from the tables, the first of which a question needs is named. -/
def ask {α : Type} (table : Table) (question : Tables → α) : Embedded → Except StoreError α
  | closed => .error .closed
  | opened none => .error (.database (.noTable table.name))
  | opened (some t) => .ok (question t)

def counts : Embedded → Except StoreError GraphCounts :=
  ask .methods Tables.counts

/-- Name, class and package of the method with a signature. -/
def properties (signature : String) :
    Embedded → Except StoreError (Option (String × String × String)) :=
  ask .methods (·.properties? signature)

/-- The dependencies between classes in ascending order. -/
def classDependencies : Embedded → Except StoreError (List (ClassKey × ClassKey)) :=
  ask .dependencies Tables.classDependencies

end Embedded
end CallGraph
