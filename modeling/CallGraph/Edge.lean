import CallGraph.Kind
import CallGraph.Method

/-! Directed calls between methods. -/
namespace CallGraph

/-- The source may call the target. -/
structure Edge where
  source : Method
  target : Method
  kind : Kind
  deriving DecidableEq, Repr

/-- The endpoints of an edge, the caller first. -/
def Edge.endpoints (e : Edge) : List Method :=
  [e.source, e.target]

end CallGraph
