import CallGraph.Edge.Json

/-! The records of a captured call graph: a header with two counts, and edges. -/
namespace CallGraph.Capture

/-- The counts an analyzer announces before its edges. -/
structure Header where
  edges : UInt64
  methods : UInt64
  deriving DecidableEq, Repr

structure HeaderDraft where
  edges? : Option UInt64
  methods? : Option UInt64
  deriving DecidableEq, Repr

def HeaderDraft.complete? (d : HeaderDraft) : Option Header := do
  return ⟨← d.edges?, ← d.methods?⟩

def Header.schema : Json.Schema HeaderDraft Header where
  name := "GraphHeader"
  fields :=
    [.of "edges" false HeaderDraft.edges? (fun d v => { d with edges? := some v }) Json.readCount,
      .of "reachable_methods" false HeaderDraft.methods? (fun d v => { d with methods? := some v })
        Json.readCount]
  blank := ⟨none, none⟩
  build := HeaderDraft.complete?

def Header.toJson (h : Header) : Json.Value :=
  .object [("edges", .number (toString h.edges)), ("reachable_methods", .number (toString h.methods))]

/-- A method record, whose package may be left to its owner's name. -/
def methodSchema : Json.Schema MethodDraft Method where
  name := "MethodRecord"
  fields := [MethodDraft.signatureField, MethodDraft.ownerField, MethodDraft.nameField,
    MethodDraft.optionalPackageField]
  blank := .blank
  build := MethodDraft.withPackage?

def edgeSchema : Json.Schema EdgeDraft Edge :=
  Edge.schemaOver "EdgeRecord" methodSchema

end CallGraph.Capture
