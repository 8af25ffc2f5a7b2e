import CallGraph.CommandLine.Arguments
import CallGraph.CommandLine.Help
import CallGraph.CommandLine.Log

/-! A run of the program: what it prints, how it ends, and the world it leaves. -/
namespace CallGraph.CommandLine

def summaryText (s : Summary) (destination : Destination) : String :=
  let place := match destination with
    | .documents folder => folder
    | .server address _ _ _ => address
    | .database path _ => path
  "Export Summary:\n  Edges in call graph: " ++ toString s.total ++
    "\n  Edges processed:     " ++ toString s.processed ++
    "\n  Edges exported:      " ++ toString s.admitted ++ "\n  Output: " ++ place ++ "\n"

/-- An export by options: its summary or the words for each cause of its failure, and its notes. -/
structure Report (ν : Type) where
  result : Except (List String) Summary
  output : String
  notes : List Note
  world : World ν

variable {ν : Type} [Remote.Driver ν]

/-- Exports as the options ask. -/
def Options.run (o : Options) (w : World ν) : Report ν :=
  match o.toExport w.disk with
  | .error fault => ⟨.error ("Invalid configuration" :: fault.chain), "", [], w⟩
  | .ok x =>
    let outcome := x.run o.source w
    let notes := outcome.trace.filterMap (Event.note? true)
    match outcome.result with
    | .error e => ⟨.error ("Call graph export failed" :: e.chain), "", notes, outcome.state⟩
    | .ok summary => ⟨.ok summary, summaryText summary x.destination, notes, outcome.state⟩

/-- The words for a failure and for all that lies behind it, on one line. -/
def chainText (chain : List String) : String :=
  String.intercalate ": " chain

/-- What a run of the program prints, its exit code, and the world after it. -/
structure Ending (ν : Type) where
  code : Nat
  output : String
  complaints : List String
  world : World ν

/-- The amount that is logged unless the environment says otherwise. -/
def Options.verbosity (o : Options) : Verbosity :=
  if o.verbose then .debug else .info

/-- Runs the program with arguments and, if there is one, a text that says what is logged. -/
def execute (arguments : List String) (log? : Option String) (w : World ν) : Ending ν :=
  match Options.ofArguments arguments with
  | .error (.help full) => ⟨0, Help.text full, [], w⟩
  | .error .version => ⟨0, versionText, [], w⟩
  | .error (.fault f) => ⟨2, "", ["error: " ++ f.message], w⟩
  | .ok o =>
    let filter := (log?.bind LogFilter.ofText?).getD (.everywhere o.verbosity)
    let report := o.run w
    let lines := logLines filter report.notes
    match report.result with
    | .ok _ => ⟨0, report.output, lines, report.world⟩
    | .error chain => ⟨1, report.output, lines ++ ["Error: " ++ chainText chain], report.world⟩

end CallGraph.CommandLine
