import CallGraph.Edge

/-! Which edges are exported, decided by substrings of their endpoints. -/
namespace CallGraph

/-- Whether the pattern stands somewhere in the text. -/
def occursIn (pattern : List Char) : List Char → Bool
  | [] => pattern.isEmpty
  | c :: rest => pattern.isPrefixOf (c :: rest) || occursIn pattern rest

/-- Two lists of patterns; an empty list accepts every edge. -/
structure Filter where
  namespaces : List String
  identifiers : List String
  deriving DecidableEq, Repr

namespace Filter

def all : Filter :=
  ⟨[], []⟩

def isEmpty (f : Filter) : Bool :=
  f.namespaces.isEmpty && f.identifiers.isEmpty

/-- Both owners contain some pattern, not necessarily the same. -/
def admitsOwners (f : Filter) (e : Edge) : Bool :=
  f.namespaces.isEmpty ||
    e.endpoints.all fun m => f.namespaces.any fun p => occursIn p.toList m.owner.toList

/-- One pattern is contained in both identifiers. -/
def admitsIdentifiers (f : Filter) (e : Edge) : Bool :=
  f.identifiers.isEmpty ||
    f.identifiers.any fun p => e.endpoints.all fun m => occursIn p.toList m.identifier.toList

def admits (f : Filter) (e : Edge) : Bool :=
  f.admitsOwners e && f.admitsIdentifiers e

end Filter
end CallGraph
