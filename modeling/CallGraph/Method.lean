/-! Methods and the classes that own them. -/
namespace CallGraph

/-- Splits a text around its last dot, if it has one. -/
def splitLastDot : List Char → Option (List Char × List Char)
  | [] => none
  | c :: rest =>
    match splitLastDot rest with
    | some (before, after) => some (c :: before, after)
    | none => if c = '.' then some ([], rest) else none

/-- The package of a qualified type name: what stands before its last dot. -/
def packageOf (owner : String) : String :=
  match splitLastDot owner.toList with
  | some (package, _) => String.ofList package
  | none => ""

/-- A qualified type name without its package. -/
def shortNameOf (owner : String) : String :=
  match splitLastDot owner.toList with
  | some (_, name) => String.ofList name
  | none => owner

/-- A class within a package. -/
structure ClassKey where
  name : String
  package : String
  deriving DecidableEq, Repr

/-- One method; its signature identifies it within a call graph. -/
structure Method where
  /-- The qualified name of the owning type. -/
  owner : String
  name : String
  package : String
  signature : String
  deriving DecidableEq, Repr

namespace Method

/-- The method whose package is the one its owner's name starts with. -/
def inOwnPackage (owner name signature : String) : Method :=
  ⟨owner, name, packageOf owner, signature⟩

def className (m : Method) : String :=
  shortNameOf m.owner

def identifier (m : Method) : String :=
  m.owner ++ "." ++ m.name

def classKey (m : Method) : ClassKey :=
  ⟨m.className, m.package⟩

end Method
end CallGraph
