import CallGraph.CommandLine.Name

/-! The explanation of the options, in a short and in a full form. -/
namespace CallGraph.CommandLine

/-- The name and the number of this release. -/
def versionText : String := "cgexport 0.1.0\n"

namespace Help

def column : Nat := 10

def width : Nat := 90

def indent : String :=
  String.ofList (List.replicate column ' ')

/-- Words on as few lines as the width allows, the first line begun with `line`. -/
def fill (line : String) : List String → List String
  | [] => [line]
  | word :: rest =>
    if line.length + 1 + word.length ≤ width then fill (line ++ " " ++ word) rest
    else line :: fill word rest

def wrap (text : String) : List String :=
  match (text.toList.splitOn ' ').map String.ofList with
  | [] => []
  | word :: rest => fill word rest

def heading (n : Name) : String :=
  (match n.declaration.letter? with
    | some letter => "  -" ++ String.singleton letter ++ ", "
    | none => "      ") ++ n.title

/-- The explanation of an option; the two helps point to each other. -/
def summary (full : Bool) (n : Name) : String :=
  match n, full with
  | .help, true => "Print help (see a summary with '-h')"
  | .help, false => "Print help (see more with '--help')"
  | n, _ => n.declaration.help

def choices (n : Name) : List (String × String) :=
  match n.declaration.value? with
  | some ⟨_, .oneOf choices, _⟩ => choices
  | _ => []

/-- The remarks on the value of an option; the full help explains choices apart. -/
def remarks (full : Bool) (n : Name) : List String :=
  let default := match n.declaration.value?.bind (·.default?) with
    | some value => ["[default: " ++ value ++ "]"]
    | none => []
  let choices := (choices n).map (·.1)
  let listed :=
    if full ∨ choices.isEmpty then []
    else ["[possible values: " ++ String.intercalate ", " choices ++ "]"]
  default ++ listed

def choiceLines (n : Name) : List String :=
  let choices := choices n
  let longest := (choices.map (·.1.length)).foldl max 0
  choices.map fun (word, meaning) =>
    "- " ++ word ++ ":" ++ String.ofList (List.replicate (longest + 1 - word.length) ' ') ++ meaning

/-- The explanation of an option in parts that stand apart. -/
def parts (full : Bool) (n : Name) : List String :=
  let parts := (summary full n :: remarks full n).filter (!·.isEmpty)
  if full then parts else [String.intercalate " " parts]

def explanation (full : Bool) (n : Name) : List String :=
  let text := List.intercalate [""] ((parts full n).map wrap)
  let listed :=
    if !full ∨ (choices n).isEmpty then []
    else "" :: ("Possible values:" :: choiceLines n).map (indent ++ ·)
  text.map (indent ++ ·) ++ listed

def entry (full : Bool) (n : Name) : List String :=
  heading n :: explanation full n

def lines (full : Bool) : List String :=
  ["Export a program's static call graph to JSON files or a graph database", "",
    "Usage: cgexport [OPTIONS]", "", "Options:"] ++
    List.intercalate (if full then [""] else []) (Name.all.map (entry full))

/-- The help, in its short or its full form. -/
def text (full : Bool) : String :=
  String.join ((lines full).map (· ++ "\n"))

end Help
end CallGraph.CommandLine
