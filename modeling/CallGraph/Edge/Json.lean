import CallGraph.Edge
import CallGraph.Method.Json

/-! Kinds and edges as JSON values. -/
namespace CallGraph

namespace Kind

def read : Json.Reader Kind := fun s =>
  (Json.readText s).map fun r => (ofLabel r.1, r.2)

def toJson (k : Kind) : Json.Value :=
  .text k.label

end Kind

structure EdgeDraft where
  source? : Option Method
  target? : Option Method
  kind? : Option Kind
  deriving DecidableEq, Repr

namespace EdgeDraft

def blank : EdgeDraft :=
  ⟨none, none, none⟩

def complete? (d : EdgeDraft) : Option Edge := do
  return ⟨← d.source?, ← d.target?, ← d.kind?⟩

end EdgeDraft

namespace Edge

/-- An edge whose endpoints are records of the given shape. -/
def schemaOver (name : String) (method : Json.Schema MethodDraft Method) :
    Json.Schema EdgeDraft Edge where
  name := name
  fields :=
    [.of "src" false EdgeDraft.source? (fun d v => { d with source? := some v }) method.read,
      .of "tgt" false EdgeDraft.target? (fun d v => { d with target? := some v }) method.read,
      .of "kind" false EdgeDraft.kind? (fun d v => { d with kind? := some v }) Kind.read]
  blank := .blank
  build := EdgeDraft.complete?

def schema : Json.Schema EdgeDraft Edge :=
  schemaOver "Edge" Method.schema

def toJson (e : Edge) : Json.Value :=
  .object [("src", e.source.toJson), ("tgt", e.target.toJson), ("kind", e.kind.toJson)]

end Edge
end CallGraph
