import CallGraph.Error
import CallGraph.Method
import CallGraph.Step

/-! Property-graph stores, by what they can be asked. -/
namespace CallGraph

/-- What a store is asked to do; each request is carried out as a whole or not at all. -/
inductive Request
  /-- Removes the whole graph. -/
  | clear
  /-- Makes sure that constraints and indices are there. -/
  | schema
  /-- Adds both methods and the call between them, unless they are stored. -/
  | call (source target : Method) (kind : String)
  /-- Adds the class layer of the stored calls. -/
  | classes
  /-- Lets the graph go. -/
  | close
  deriving DecidableEq, Repr

def Request.name : Request → String
  | .clear => "clear"
  | .schema => "schema"
  | .call _ _ _ => "call"
  | .classes => "classes"
  | .close => "close"

/-- A store with state `σ` answers requests. -/
abbrev Store (σ : Type) := Request → Action σ StoreError Unit

namespace Store

/-- A store that keeps the requests it gets and fails those that a script names by number. -/
def scripted (fails : (name : String) → (number : Nat) → Bool) : Store (List Request) :=
  fun request asked =>
    let number := asked.countP (·.name == request.name)
    let result :=
      if fails request.name number then
        .error (.decode ("scripted " ++ request.name ++ " failure"))
      else .ok ()
    (result, asked ++ [request])

/-- A store that also keeps the requests it gets. -/
def recorded {σ : Type} (store : Store σ) : Store (σ × List Request) :=
  fun request (s, asked) =>
    let (result, s) := store request s
    (result, s, asked ++ [request])

/-- A store within a larger state. -/
def within {σ τ : Type} (store : Store σ) (get : τ → σ) (set : τ → σ → τ) : Store τ :=
  fun request => (store request).within get set

end Store
end CallGraph
