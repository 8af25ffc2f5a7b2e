import CallGraph.CommandLine.Name
import CallGraph.Export

/-! What a command line asks for, and the export that this is. -/
namespace CallGraph.CommandLine

inductive SinkChoice
  | documents
  | server
  | database
  deriving DecidableEq, Repr

def SinkChoice.ofWord? : String → Option SinkChoice
  | "json" => some documents
  | "neo4j" => some server
  | "sqlite" => some database
  | _ => none

structure Options where
  input? : Option String
  output? : Option String
  mainClass? : Option String
  archiveFilters : List String
  edgeFilters : List String
  namespaceFilters : List String
  sink : SinkChoice
  classGraph : Bool
  serverAddress : String
  serverUser : String
  serverPassword : String
  database? : Option String
  engine : String
  capture? : Option String
  verbose : Bool
  deriving DecidableEq, Repr

/-- Why options do not make an export. -/
inductive OptionsFault
  | noInput
  | noOutput
  | noDatabase
  | settings (cause : ExportError)
  deriving DecidableEq, Repr

def OptionsFault.chain : OptionsFault → List String
  | noInput => ["--input and --main-class are required unless --call-graph is given"]
  | noOutput => ["--output is required for the json sink"]
  | noDatabase => ["--output or --sqlite-db is required for the sqlite sink"]
  | settings cause => cause.chain

namespace Options

def default : Options :=
  ⟨none, none, none, [], [], [], .documents, false, Name.serverAddress.default,
    Name.serverUser.default, Name.serverPassword.default, none, Name.engine.default, none, false⟩

def databaseName : String := "callgraph.sqlite"

def destination (o : Options) : Except OptionsFault Destination :=
  match o.sink with
  | .documents =>
    match o.output? with
    | some folder => .ok (.documents folder)
    | none => .error .noOutput
  | .server => .ok (.server o.serverAddress o.serverUser o.serverPassword o.classGraph)
  | .database =>
    match o.database?, o.output? with
    | some path, _ => .ok (.database path o.classGraph)
    | none, some folder => .ok (.database (Path.join folder databaseName) o.classGraph)
    | none, none => .error .noDatabase

/-- What the analyzer is told; archives are looked for if there is an input, even for a capture. -/
def settings (o : Options) (d : Disk) : Except OptionsFault Settings :=
  match o.input?, o.mainClass? with
  | some folder, some mainClass =>
    (Settings.discover d folder o.archiveFilters mainClass).mapError .settings
  | input?, mainClass? =>
    match o.capture? with
    | none => .error .noInput
    | some _ =>
      .ok { Settings.default with inputFolder := input?.getD "", mainClass := mainClass?.getD "" }

def filter (o : Options) : Filter :=
  ⟨o.namespaceFilters, o.edgeFilters⟩

/-- The export that the options ask for; a fault of the settings comes before one of the destination. -/
def toExport (o : Options) (d : Disk) : Except OptionsFault Export :=
  match o.settings d with
  | .error fault => .error fault
  | .ok settings =>
    match o.destination with
    | .error fault => .error fault
    | .ok destination => .ok ⟨settings, o.filter, destination⟩

def source (o : Options) : Engine :=
  match o.capture? with
  | some path => .replay path
  | none => .analyzer o.engine

end Options
end CallGraph.CommandLine
