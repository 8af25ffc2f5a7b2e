import CallGraph.CommandLine.Options

/-!
Reading the arguments of the command line. A value that is an argument of its own is looked at only when
the next option is met or the arguments end, so an unknown option is told before such a value.
-/
namespace CallGraph.CommandLine

/-- What is wrong with the arguments. -/
inductive Fault
  | unexpected (argument : String)
  | noValue (n : Name)
  | badValue (n : Name) (value : String)
  | needlessValue (n : Name) (value : String)
  | repeated (n : Name)
  | missing (names : List Name)
  deriving DecidableEq, Repr

/-- Why no export is made: a fault, or a question that is answered instead. -/
inductive Stop
  | fault (f : Fault)
  | help (full : Bool)
  | version
  deriving DecidableEq, Repr

private def choicesNote (n : Name) : String :=
  match n.declaration.value? with
  | some ⟨_, .oneOf choices, _⟩ =>
    "\n  [possible values: " ++ String.intercalate ", " (choices.map (·.1)) ++ "]"
  | _ => ""

def Fault.message : Fault → String
  | unexpected argument => "unexpected argument '" ++ argument ++ "' found"
  | noValue n => "a value is required for '" ++ n.title ++ "' but none was supplied" ++ choicesNote n
  | badValue n value => "invalid value '" ++ value ++ "' for '" ++ n.title ++ "'" ++ choicesNote n
  | needlessValue n value =>
    "unexpected value '" ++ value ++ "' for '" ++ n.title ++ "' found; no more were expected"
  | repeated n => "the argument '" ++ n.title ++ "' cannot be used multiple times"
  | missing names =>
    "the following required arguments were not provided:" ++
      String.join (names.map fun n => "\n  " ++ n.title)

/-- Whether an option may have a value. -/
def ValueRule.check (n : Name) (value : String) : ValueRule → Except Fault Unit
  | anyText => .ok ()
  | nonEmpty => if value.isEmpty then .error (.noValue n) else .ok ()
  | oneOf choices =>
    if choices.any (·.1 == value) then .ok ()
    else .error (if value.isEmpty then .noValue n else .badValue n value)

def Options.set (o : Options) (value : String) : Name → Options
  | .input => { o with input? := value }
  | .output => { o with output? := value }
  | .mainClass => { o with mainClass? := value }
  | .archiveFilter => { o with archiveFilters := o.archiveFilters ++ [value] }
  | .edgeFilter => { o with edgeFilters := o.edgeFilters ++ [value] }
  | .namespaceFilter => { o with namespaceFilters := o.namespaceFilters ++ [value] }
  | .sink => { o with sink := (SinkChoice.ofWord? value).getD o.sink }
  | .classGraph => { o with classGraph := true }
  | .serverAddress => { o with serverAddress := value }
  | .serverUser => { o with serverUser := value }
  | .serverPassword => { o with serverPassword := value }
  | .database => { o with database? := value }
  | .engine => { o with engine := value }
  | .capture => { o with capture? := value }
  | .verbose => { o with verbose := true }
  | .help | .version => o

/-- An option whose value has not been looked at. -/
inductive Pending
  | nothing
  | awaiting (n : Name)
  | holding (n : Name) (value : String)
  deriving DecidableEq, Repr

/-- What has been read so far. -/
structure Reading where
  options : Options
  given : List Name
  pending : Pending
  ended : Bool
  deriving DecidableEq, Repr

namespace Reading

def start : Reading :=
  ⟨.default, [], .nothing, false⟩

/-- Takes an option once, or again if it may be repeated. -/
def take (r : Reading) (n : Name) (value : String) : Except Fault Reading :=
  if r.given.contains n ∧ !n.isRepeatable then .error (.repeated n)
  else .ok { r with options := r.options.set value n, given := n :: r.given }

def takeValue (r : Reading) (n : Name) (v : Value) (value : String) : Except Fault Reading :=
  match r.take n value with
  | .error fault => .error fault
  | .ok taken =>
    match v.rule.check n value with
    | .error fault => .error fault
    | .ok () => .ok taken

def settle (r : Reading) : Except Fault Reading :=
  let settled : Reading := { r with pending := .nothing }
  match r.pending with
  | .nothing => .ok settled
  | .awaiting n => .error (.noValue n)
  | .holding n value =>
    match n.declaration.value? with
    | none => .ok settled
    | some v => settled.takeValue n v value

/-- Looks at the value that is pending and goes on. -/
def settled (r : Reading) (next : Reading → Except Stop Reading) : Except Stop Reading :=
  match r.settle with
  | .error fault => .error (.fault fault)
  | .ok r => next r

/-- Reads a switch; `full` says which of the two helps is meant. -/
def readSwitch (r : Reading) (n : Name) (full : Bool) : Except Stop Reading :=
  r.settled fun r =>
    match n with
    | .help => .error (.help full)
    | .version => .error .version
    | n => (r.take n "").mapError .fault

/-- Reads an option that takes a value, which may be attached to it. -/
def readValued (r : Reading) (n : Name) (v : Value) (attached? : Option String) :
    Except Stop Reading :=
  r.settled fun r =>
    match attached? with
    | none => .ok { r with pending := .awaiting n }
    | some value => (r.takeValue n v value).mapError .fault

def readWord (r : Reading) (word : String) (attached? : Option String) : Except Stop Reading :=
  match Name.ofWord? word with
  | none => .error (.fault (.unexpected ("--" ++ word)))
  | some n =>
    match n.declaration.value?, attached? with
    | some v, _ => r.readValued n v attached?
    | none, some value => .error (.fault (.needlessValue n value))
    | none, none => r.readSwitch n true

def attachedValue? : List Char → Option String
  | [] => none
  | '=' :: value => some (String.ofList value)
  | value => some (String.ofList value)

def readLetters (r : Reading) : List Char → Except Stop Reading
  | [] => .ok r
  | letter :: rest =>
    match Name.ofLetter? letter with
    | none => .error (.fault (.unexpected (String.ofList ['-', letter])))
    | some n =>
      match n.declaration.value? with
      | some v => r.readValued n v (attachedValue? rest)
      | none =>
        match r.readSwitch n false with
        | .error stop => .error stop
        | .ok r => r.readLetters rest

/-- Reads an argument that can only be a value. -/
def readPlain (r : Reading) (argument : String) : Except Stop Reading :=
  match r.pending with
  | .awaiting n => .ok { r with pending := .holding n argument }
  | _ => .error (.fault (.unexpected argument))

def read (r : Reading) (argument : String) : Except Stop Reading :=
  if r.ended then .error (.fault (.unexpected argument))
  else
    match argument.toList with
    | ['-', '-'] => .ok { r with ended := true }
    | '-' :: '-' :: word =>
      let name := String.ofList (word.takeWhile (· ≠ '='))
      match word.dropWhile (· ≠ '=') with
      | [] => r.readWord name none
      | _ :: value => r.readWord name (some (String.ofList value))
    | '-' :: letter :: letters => r.readLetters (letter :: letters)
    | _ => r.readPlain argument

def readAll (r : Reading) : List String → Except Stop Reading
  | [] => .ok r
  | argument :: rest =>
    match r.read argument with
    | .error stop => .error stop
    | .ok r => r.readAll rest

/-- The options that have to be given if there is no capture. -/
def required : List Name :=
  [.input, .mainClass]

def finish (r : Reading) : Except Stop Options :=
  match r.settle with
  | .error fault => .error (.fault fault)
  | .ok r =>
    let absent := required.filter fun n => !r.given.contains n
    if absent.isEmpty ∨ r.given.contains .capture then .ok r.options
    else .error (.fault (.missing absent))

end Reading

def Options.ofArguments (arguments : List String) : Except Stop Options :=
  match Reading.start.readAll arguments with
  | .error stop => .error stop
  | .ok r => r.finish

end CallGraph.CommandLine
