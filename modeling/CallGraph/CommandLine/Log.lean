import CallGraph.Note

/-! Which notes are logged, and the lines they are logged in. -/
namespace CallGraph

def Level.label : Level → String
  | debug => "DEBUG"
  | info => "INFO"
  | warning => "WARN"

/-- The place that log lines name for a part of a run. -/
def Origin.place : Origin → String
  | .export => "callgraph_export::app::export"
  | .pipeline => "callgraph_export::domain::pipeline"
  | .progress => "callgraph_export::domain::progress"
  | .documents => "callgraph_export::adapters::json::sink"
  | .storeSink => "callgraph_export::adapters::graphdb::sink"
  | .server => "callgraph_export::adapters::graphdb::neo4j"
  | .replay => "callgraph_export::adapters::engine::dump"
  | .analyzer => "callgraph_export::adapters::engine::process"

namespace CommandLine

/-- How much is logged. -/
inductive Verbosity
  | off
  | errors
  | warnings
  | info
  | debug
  | all
  deriving DecidableEq, Repr

namespace Verbosity

def rank : Verbosity → Nat
  | off => 0
  | errors => 1
  | warnings => 2
  | info => 3
  | debug => 4
  | all => 5

/-- The amount that a word or a digit stands for. -/
def ofWord? (word : String) : Option Verbosity :=
  match String.ofList (word.toList.map Char.toLower) with
  | "off" | "0" => some off
  | "error" | "1" | "" => some errors
  | "warn" | "2" => some warnings
  | "info" | "3" => some info
  | "debug" | "4" => some debug
  | "trace" | "5" => some all
  | _ => none

def shows (v : Verbosity) : Level → Bool
  | .debug => debug.rank ≤ v.rank
  | .info => info.rank ≤ v.rank
  | .warning => warnings.rank ≤ v.rank

end Verbosity

/-- How much is logged of the places whose names begin with a text. -/
structure LogRule where
  place : String
  verbosity : Verbosity
  deriving DecidableEq, Repr

/-- What is logged; of the rules that apply, the last with the longest name counts. -/
structure LogFilter where
  rules : List LogRule
  deriving DecidableEq, Repr

namespace LogFilter

def everywhere (v : Verbosity) : LogFilter :=
  ⟨[⟨"", v⟩]⟩

/-- The rule that is written `place=amount`, or as one of the two alone. -/
def rule? (text : String) : Option LogRule :=
  let place := text.toList.takeWhile (· ≠ '=')
  match text.toList.dropWhile (· ≠ '=') with
  | [] =>
    match Verbosity.ofWord? text with
    | some v => some ⟨"", v⟩
    | none => some ⟨text, .all⟩
  | _ :: amount => (Verbosity.ofWord? (String.ofList amount)).map (⟨String.ofList place, ·⟩)

/-- The filter that rules between commas make; without any, only errors are logged. -/
def ofText? (text : String) : Option LogFilter :=
  let texts := ((text.toList.splitOn ',').map String.ofList).filter (!·.isEmpty)
  if texts.isEmpty then some (everywhere .errors) else (texts.mapM rule?).map (⟨·⟩)

/-- The rule that counts at a place. -/
def ruleAt? (f : LogFilter) (place : String) : Option LogRule :=
  (f.rules.filter fun r => r.place.toList.isPrefixOf place.toList).foldl (fun best? r =>
    match best? with
    | none => some r
    | some best => some (if best.place.length ≤ r.place.length then r else best)) none

def shows (f : LogFilter) (n : Note) : Bool :=
  match f.ruleAt? n.origin.place with
  | none => false
  | some r => r.verbosity.shows n.level

end LogFilter

def logLine (n : Note) : String :=
  n.level.label ++ " " ++ n.origin.place ++ ": " ++ n.text

/-- The lines in which the notes that a filter shows are logged. -/
def logLines (f : LogFilter) (notes : List Note) : List String :=
  (notes.filter f.shows).map logLine

end CommandLine
end CallGraph
