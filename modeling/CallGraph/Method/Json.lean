import CallGraph.Json.Record
import CallGraph.Json.Value
import CallGraph.Method

/-! Methods as JSON objects. -/
namespace CallGraph

/-- The fields of a method read so far; a package may also be read as absent. -/
structure MethodDraft where
  owner? : Option String
  name? : Option String
  package? : Option (Option String)
  signature? : Option String
  deriving DecidableEq, Repr

namespace MethodDraft

def blank : MethodDraft :=
  ⟨none, none, none, none⟩

def complete? (d : MethodDraft) : Option Method := do
  return ⟨← d.owner?, ← d.name?, ← (← d.package?), ← d.signature?⟩

/-- The method of a draft; an absent package is the one the owner's name starts with. -/
def withPackage? (d : MethodDraft) : Option Method := do
  let owner ← d.owner?
  return ⟨owner, ← d.name?, d.package?.join.getD (packageOf owner), ← d.signature?⟩

def ownerField : Json.Field MethodDraft :=
  .of "class" false owner? (fun d v => { d with owner? := some v }) Json.readText

def nameField : Json.Field MethodDraft :=
  .of "name" false name? (fun d v => { d with name? := some v }) Json.readText

def signatureField : Json.Field MethodDraft :=
  .of "sig" false signature? (fun d v => { d with signature? := some v }) Json.readText

/-- A package that has to be there. -/
def packageField : Json.Field MethodDraft :=
  .of "package" false package? (fun d v => { d with package? := some v })
    (Json.readPresent Json.readText)

/-- A package that may be `null` or left out. -/
def optionalPackageField : Json.Field MethodDraft :=
  .of "package" true package? (fun d v => { d with package? := some v })
    (Json.readOptional Json.readText)

end MethodDraft

namespace Method

def schema : Json.Schema MethodDraft Method where
  name := "MethodIdentity"
  fields := [MethodDraft.ownerField, MethodDraft.nameField, MethodDraft.packageField,
    MethodDraft.signatureField]
  blank := .blank
  build := MethodDraft.complete?

def toJson (m : Method) : Json.Value :=
  .object [("class", .text m.owner), ("name", .text m.name), ("package", .text m.package),
    ("sig", .text m.signature)]

end Method
end CallGraph
