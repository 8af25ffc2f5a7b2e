/-! How a call comes about: fourteen known kinds, and any other label an analyzer uses. -/
namespace CallGraph

/-- The way one method comes to call another. -/
inductive Kind
  | static
  | special
  | virtual
  | interface
  | classInitializer
  | thread
  | executor
  | asyncTask
  | finalizer
  | privileged
  | newInstance
  | reflectInvoke
  | reflectConstructor
  | reflectClass
  | other (label : String)
  deriving DecidableEq, Repr

namespace Kind

def label : Kind → String
  | static => "STATIC"
  | special => "SPECIAL"
  | virtual => "VIRTUAL"
  | interface => "INTERFACE"
  | classInitializer => "CLINIT"
  | thread => "THREAD"
  | executor => "EXECUTOR"
  | asyncTask => "ASYNCTASK"
  | finalizer => "FINALIZE"
  | privileged => "PRIVILEGED"
  | newInstance => "NEWINSTANCE"
  | reflectInvoke => "REFL_INVOKE"
  | reflectConstructor => "REFL_CONSTR_NEWINSTANCE"
  | reflectClass => "REFL_CLASS_NEWINSTANCE"
  | other label => label

/-- Letters `a` to `z` become capitals and every other character stays. -/
def capitals (label : String) : String :=
  String.ofList (label.toList.map Char.toUpper)

/-- The names that labels are compared with, and the kinds they are read as. -/
def names : List (String × Kind) :=
  [("STATIC", static), ("SPECIAL", special), ("VIRTUAL", virtual), ("INTERFACE", interface),
    ("CLINIT", classInitializer), ("THREAD", thread), ("EXECUTOR", executor), ("ASYNCTASK", asyncTask),
    ("FINALIZE", finalizer), ("PRIVILEGED", privileged), ("NEWINSTANCE", newInstance),
    ("REFL_INVOKE", reflectInvoke), ("REFL_CONSTR_NEWINSTANCE", reflectConstructor),
    ("REFL_CLASS_NEWINSTANCE", reflectClass)]

/-- A known label is recognised in any ASCII letter case; every other label is kept as it is. -/
def ofLabel (label : String) : Kind :=
  (names.lookup (capitals label)).getD (other label)

end Kind
end CallGraph
