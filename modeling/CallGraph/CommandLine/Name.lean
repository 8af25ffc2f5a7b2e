/-! The options of the command line and how each is written. -/
namespace CallGraph.CommandLine

inductive Name
  | input
  | output
  | mainClass
  | archiveFilter
  | edgeFilter
  | namespaceFilter
  | sink
  | classGraph
  | serverAddress
  | serverUser
  | serverPassword
  | database
  | engine
  | capture
  | verbose
  | help
  | version
  deriving DecidableEq, Repr

/-- What a value of an option may be. -/
inductive ValueRule
  | anyText
  | nonEmpty
  | oneOf (choices : List (String × String))
  deriving DecidableEq, Repr

/-- The value that an option takes: its placeholder, its rule, and what stands for a missing one. -/
structure Value where
  placeholder : String
  rule : ValueRule
  default? : Option String
  deriving DecidableEq, Repr

/-- How an option is written and explained. -/
structure Declaration where
  letter? : Option Char
  word : String
  value? : Option Value
  help : String
  deriving DecidableEq, Repr

/-- The destinations that can be chosen, with their explanations. -/
def sinkChoices : List (String × String) :=
  [("json", "mapping.json + edges.json in the output folder"), ("neo4j", "Neo4j over Bolt"),
    ("sqlite", "Embedded SQLite property graph")]

private def textValue (placeholder : String) (default? : Option String) : Option Value :=
  some ⟨placeholder, .anyText, default?⟩

/-- A value that names a file, a folder or a program. -/
private def pathValue (placeholder : String) (default? : Option String) : Option Value :=
  some ⟨placeholder, .nonEmpty, default?⟩

namespace Name

def all : List Name :=
  [input, output, mainClass, archiveFilter, edgeFilter, namespaceFilter, sink, classGraph,
    serverAddress, serverUser, serverPassword, database, engine, capture, verbose, help, version]

/-- How an option is written and explained. -/
def declaration : Name → Declaration
  | input =>
    ⟨'i', "input", pathValue "INPUT_FOLDER" none,
      "Input folder containing .jar files being analyzed"⟩
  | output =>
    ⟨'o', "output", pathValue "OUTPUT_FOLDER" none,
      "Output folder to which the graph .jsons will be emitted. Required for the json sink, and for " ++
        "sqlite without --sqlite-db; unused by neo4j"⟩
  | mainClass =>
    ⟨'m', "main-class", textValue "MAIN_CLASS" none,
      "Identifier of the main class containing the program's entry point"⟩
  | archiveFilter =>
    ⟨none, "jar-filter", textValue "JAR_FILTER" none,
      "A string that must appear in a jar filename for it to be analyzed. Repeatable; if none is " ++
        "given every jar in the input folder is included"⟩
  | edgeFilter =>
    ⟨none, "edge-filter", textValue "EDGE_FILTER" none,
      "A string that must appear in both an edge's source and target identifier (`Class.method`). " ++
        "Repeatable; if none is given every edge is included"⟩
  | namespaceFilter =>
    ⟨none, "namespace-filter", textValue "NAMESPACE_FILTER" none,
      "A string that must appear in the declaring type of both endpoints. Repeatable"⟩
  | sink => ⟨none, "sink", some ⟨"SINK", .oneOf sinkChoices, "json"⟩, ""⟩
  | classGraph =>
    ⟨none, "class-graph", none, "Also derive the class-level DEPENDS_ON graph (database sinks)"⟩
  | serverAddress => ⟨none, "neo4j-uri", textValue "NEO4J_URI" "bolt://localhost:7687", ""⟩
  | serverUser => ⟨none, "neo4j-user", textValue "NEO4J_USER" "neo4j", ""⟩
  | serverPassword => ⟨none, "neo4j-password", textValue "NEO4J_PASSWORD" "12345", ""⟩
  | database =>
    ⟨none, "sqlite-db", pathValue "SQLITE_DB" none,
      "SQLite database file (default: <output>/callgraph.sqlite)"⟩
  | engine =>
    ⟨none, "engine", pathValue "ENGINE" "callgraph-engine",
      "Analyzer executable producing the call graph as JSON lines"⟩
  | capture =>
    ⟨none, "call-graph", pathValue "CALL_GRAPH" none,
      "Export a previously captured call graph instead of running the analyzer"⟩
  | verbose => ⟨'v', "verbose", none, "Debug logging"⟩
  | help => ⟨'h', "help", none, "Print help"⟩
  | version => ⟨'V', "version", none, "Print version"⟩

def isRepeatable : Name → Bool
  | archiveFilter | edgeFilter | namespaceFilter => true
  | _ => false

def default (n : Name) : String :=
  (n.declaration.value?.bind (·.default?)).getD ""

def ofWord? (word : String) : Option Name :=
  all.find? fun n => n.declaration.word == word

def ofLetter? (letter : Char) : Option Name :=
  all.find? fun n => n.declaration.letter? == some letter

/-- An option as messages name it. -/
def title (n : Name) : String :=
  "--" ++ n.declaration.word ++
    match n.declaration.value? with
    | none => ""
    | some value => " <" ++ value.placeholder ++ ">"

end Name
end CallGraph.CommandLine
