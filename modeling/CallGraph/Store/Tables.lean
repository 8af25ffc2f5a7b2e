import CallGraph.Method

/-!
A property graph in four tables. Nodes are rows with a number, relationships are rows of two numbers; a
row whose key is already there is not added again, so the first writer of a key keeps it.
-/
namespace CallGraph

structure MethodRow where
  id : Nat
  signature : String
  name : String
  className : String
  package : String
  deriving DecidableEq, Repr

structure ClassRow where
  id : Nat
  name : String
  package : String
  deriving DecidableEq, Repr

/-- A stored call between two method rows. -/
structure CallRow where
  source : Nat
  target : Nat
  kind : String
  deriving DecidableEq, Repr

/-- A stored dependency between two class rows. -/
structure DependencyRow where
  source : Nat
  target : Nat
  deriving DecidableEq, Repr

/-- How many rows each table has. -/
structure GraphCounts where
  methods : Nat
  calls : Nat
  classes : Nat
  dependencies : Nat
  deriving DecidableEq, Repr

/-- A table, by what its rows are. -/
inductive Table
  | methods
  | calls
  | classes
  | dependencies
  deriving DecidableEq, Repr

def Table.name : Table → String
  | .methods => "method"
  | .calls => "call"
  | .classes => "class"
  | .dependencies => "depends_on"

/-- Tables are removed in this order. -/
def Table.removalOrder : List Table :=
  [.dependencies, .calls, .classes, .methods]

/-- The four tables, each in order of insertion. -/
structure Tables where
  methods : List MethodRow
  calls : List CallRow
  classes : List ClassRow
  dependencies : List DependencyRow
  deriving DecidableEq, Repr

/-- The list with a row added at its end, unless it has that row. -/
def addRow {α : Type} [BEq α] (rows : List α) (row : α) : List α :=
  if rows.contains row then rows else rows ++ [row]

def MethodRow.classKey (row : MethodRow) : ClassKey :=
  ⟨row.className, row.package⟩

def ClassRow.key (row : ClassRow) : ClassKey :=
  ⟨row.name, row.package⟩

namespace Tables

def empty : Tables :=
  ⟨[], [], [], []⟩

/-- Adds a method unless its signature is stored; rows are never removed one by one, so the next
number is one more than their count. -/
def insertMethod (t : Tables) (m : Method) : Tables :=
  if t.methods.any (·.signature == m.signature) then t
  else
    let row : MethodRow := ⟨t.methods.length + 1, m.signature, m.name, m.className, m.package⟩
    { t with methods := t.methods ++ [row] }

def method? (t : Tables) (signature : String) : Option MethodRow :=
  t.methods.find? (·.signature == signature)

def methodById? (t : Tables) (id : Nat) : Option MethodRow :=
  t.methods.find? (·.id == id)

def classById? (t : Tables) (id : Nat) : Option ClassRow :=
  t.classes.find? (·.id == id)

/-- Adds the call between the stored methods with the two signatures. -/
def insertCall (t : Tables) (source target kind : String) : Tables :=
  match t.method? source, t.method? target with
  | some s, some d => { t with calls := addRow t.calls ⟨s.id, d.id, kind⟩ }
  | _, _ => t

def insertClass (t : Tables) (key : ClassKey) : Tables :=
  if t.classes.any (·.key == key) then t
  else { t with classes := t.classes ++ [⟨t.classes.length + 1, key.name, key.package⟩] }

/-- Whether a stored method is an endpoint of a stored call. -/
def isEndpoint (t : Tables) (row : MethodRow) : Bool :=
  t.calls.any fun c => c.source == row.id || c.target == row.id

/-- Whether rows of another table refer to rows of a table. -/
def isReferredTo (t : Tables) : Table → Bool
  | .methods => t.methods.any t.isEndpoint
  | .classes => t.classes.any fun row =>
    t.dependencies.any fun d => d.source == row.id || d.target == row.id
  | .calls | .dependencies => false

/-- The tables without the rows of one of them. -/
def emptied (t : Tables) : Table → Tables
  | .methods => { t with methods := [] }
  | .calls => { t with calls := [] }
  | .classes => { t with classes := [] }
  | .dependencies => { t with dependencies := [] }

/-- Adds the class of every method that calls or is called. -/
def deriveClasses (t : Tables) : Tables :=
  ((t.methods.filter t.isEndpoint).map (·.classKey)).foldl insertClass t

/-- The dependencies between stored classes that a stored call gives rise to. -/
def dependenciesOf (t : Tables) (call : CallRow) : List DependencyRow :=
  match t.methodById? call.source, t.methodById? call.target with
  | some s, some d =>
    (t.classes.filter (·.key == s.classKey)).flatMap fun source =>
      (t.classes.filter (·.key == d.classKey)).map fun target => ⟨source.id, target.id⟩
  | _, _ => []

/-- Adds the dependencies that the stored calls give rise to. -/
def deriveDependencies (t : Tables) : Tables :=
  { t with dependencies := (t.calls.flatMap t.dependenciesOf).foldl addRow t.dependencies }

def counts (t : Tables) : GraphCounts :=
  ⟨t.methods.length, t.calls.length, t.classes.length, t.dependencies.length⟩

/-- Name, class and package of the stored method with a signature. -/
def properties? (t : Tables) (signature : String) : Option (String × String × String) :=
  (t.method? signature).map fun row => (row.name, row.className, row.package)

/-- Signature, name, class and package of each method, in order of insertion. -/
def methodTuples (t : Tables) : List (List String) :=
  t.methods.map fun row => [row.signature, row.name, row.className, row.package]

def callTuples (t : Tables) : List (List String) :=
  t.calls.filterMap fun call => do
    return [(← t.methodById? call.source).signature, (← t.methodById? call.target).signature,
      call.kind]

def classTuples (t : Tables) : List (List String) :=
  t.classes.map fun row => [row.name, row.package]

def dependencyKeys (t : Tables) : List (ClassKey × ClassKey) :=
  t.dependencies.filterMap fun row => do
    return ((← t.classById? row.source).key, (← t.classById? row.target).key)

/-- Name and package of both ends of a dependency. -/
def dependencyColumns (keys : ClassKey × ClassKey) : List String :=
  [keys.1.name, keys.1.package, keys.2.name, keys.2.package]

/-- Whether a tuple stands before another, or is equal to it, column by column. -/
def tupleLe (x y : List String) : Bool :=
  !decide (y < x)

def sorted (tuples : List (List String)) : List (List String) :=
  tuples.mergeSort tupleLe

/-- The dependencies in ascending order. -/
def classDependencies (t : Tables) : List (ClassKey × ClassKey) :=
  t.dependencyKeys.mergeSort fun x y => tupleLe (dependencyColumns x) (dependencyColumns y)

end Tables
end CallGraph
