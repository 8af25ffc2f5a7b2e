import CallGraph.CommandLine.Run

/-!
The program. It looks at the places on disk that the options name, runs, and puts back what has changed.
Links are seen through. Graph servers, database files and analyzers are out of its reach.
-/
namespace CallGraph.Main

open CommandLine

/-- What stands at a path, as far as it can be told. -/
def nodeAt? (path : String) : IO (Option Node) := do
  try
    match (← ((← IO.currentDir) / path).metadata).type with
    | .dir => return some .folder
    | .file => return some (.file (.bytes (← IO.FS.readBinFile path)) false)
    | _ => return none
  catch _ => return none

def namesIn (path : String) : IO (List String) := do
  try return ((← ((← IO.currentDir) / path).readDir).map (·.fileName)).toList
  catch _ => return []

def locationOf (working : Location) (path : String) : Location :=
  (Disk.pathNames path).foldl
    (fun loc name => if name = "." then loc else if name = ".." then loc.dropLast else loc ++ [name])
    (if Disk.isAbsolute path then [] else working)

/-- Adds what stands at a location and at the folders above it. -/
def look (d : Disk) (loc : Location) : IO Disk :=
  (List.range (loc.length + 1)).foldlM (fun d n => do
    match d.node? (loc.take n) with
    | some _ => return d
    | none =>
      match ← nodeAt? (Path.ofLocation (loc.take n)) with
      | some node => return d.put (loc.take n) node
      | none => return d) d

/-- The locations that the options lead to. -/
def places (working : Location) (o : Options) : IO (List Location) := do
  let at' := locationOf working
  let outputs := o.output?.toList.flatMap fun folder =>
    [Documents.mappingName, Documents.edgesName, Options.databaseName].map (at' folder ++ [·])
  let inputs ← o.input?.toList.mapM fun folder => do
    return at' folder :: (← namesIn folder).map (at' folder ++ [·])
  return inputs.flatten ++ outputs ++ (o.capture?.toList ++ o.database?.toList).map at'

/-- The part of the disk that the options lead to. -/
def load (o : Options) : IO Disk := do
  let working := locationOf [] (← IO.currentDir).toString
  (← places working o).foldlM look (← look ⟨[], working⟩ working)

/-- Puts one entry back if it has changed. -/
def putBack (before : Disk) (loc : Location) (node : Node) : IO Unit :=
  let path := Path.ofLocation loc
  match node, before.node? loc with
  | .folder, none => IO.FS.createDirAll path
  | .file (.bytes data) _, some (.file (.bytes old) _) =>
    if data.data == old.data then pure () else IO.FS.writeBinFile path data
  | .file (.bytes data) _, _ => IO.FS.writeBinFile path data
  | .file (.database _) _, _ => throw (IO.userError ("cannot write the database file " ++ path))
  | _, _ => pure ()

/-- A server that cannot be reached and programs that cannot be started. -/
def worldOn (disk : Disk) : World :=
  let server : Remote.Server := ⟨some .networkUnreachable, 260, fun _ _ => .success, []⟩
  ⟨disk, server, fun _ _ _ => .error (.other "programs cannot be started from here")⟩

def run (arguments : List String) : IO UInt32 := do
  let before ← match Options.ofArguments arguments with
    | .ok o => load o
    | .error _ => pure ⟨[], []⟩
  let ending := execute arguments (← IO.getEnv "RUST_LOG") (worldOn before)
  ending.world.disk.nodes.forM fun (loc, node) => putBack before loc node
  ending.complaints.forM IO.eprintln
  IO.print ending.output
  return ending.code.toUInt32

end CallGraph.Main

def main (arguments : List String) : IO UInt32 :=
  CallGraph.Main.run arguments
