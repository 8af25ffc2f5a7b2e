import CallGraph.Disk.Files
import CallGraph.Filter

/-! What an analyzer is told, and the archives it is given. -/
namespace CallGraph

structure Settings where
  /-- The folder that the archives are in. -/
  inputFolder : String
  archives : List String
  mainClass : String
  /-- The namespaces to leave out. -/
  excludes : List String
  appMode : Bool
  wholeProgram : Bool
  prependClasspath : Bool
  allowPhantomRefs : Bool
  noBodiesForExcluded : Bool
  deriving DecidableEq, Repr

namespace Settings

/-- The namespaces that are left out unless others are named. -/
def defaultExcludes : List String :=
  ["java.*", "org.slf4j.*", "com.sun.*", "com.google.*"]

/-- No input, the usual namespaces left out, and every switch on. -/
def default : Settings :=
  ⟨"", [], "", defaultExcludes, true, true, true, true, true⟩

/-- What the name of an archive ends in, in any letter case. -/
def archiveEnding : List Char := ".jar".toList

/-- Whether a file name is one of an archive and contains one of the filters, if there are any. -/
def selects (filters : List String) (name : String) : Bool :=
  archiveEnding.isSuffixOf (name.toList.map Char.toLower) &&
    (filters.isEmpty || filters.any fun f => occursIn f.toList name.toList)

/-- The absolute paths of the selected archives in a folder, in ascending order. -/
def selectedArchives (d : Disk) (folder : String) (filters names : List String) : List String :=
  let selected := names.filter fun name => selects filters name && d.isFile (Path.join folder name)
  let paths := selected.map fun name => Path.absolute (Path.ofLocation d.working) (Path.join folder name)
  paths.mergeSort Path.le

/-- The settings for the selected archives in a folder, of which there must be one at least. -/
def discover (d : Disk) (folder : String) (filters : List String) (mainClass : String) :
    Except ExportError Settings :=
  match d.entries folder with
  | .error e => .error (.configuration (.inputUnreadable folder e))
  | .ok names =>
    let archives := selectedArchives d folder filters names
    if archives.isEmpty then .error (.configuration (.noArchives folder))
    else .ok { default with inputFolder := folder, archives, mainClass }

/-- The switches that can be on, with their names. -/
def switches (s : Settings) : List (Bool × String) :=
  [(s.appMode, "--app"), (s.wholeProgram, "--whole-program"),
    (s.prependClasspath, "--prepend-classpath"), (s.allowPhantomRefs, "--allow-phantom-refs"),
    (s.noBodiesForExcluded, "--no-bodies-for-excluded")]

/-- The command line that tells an analyzer its settings. -/
def arguments (s : Settings) : List String :=
  ["--classpath", s.inputFolder] ++ s.archives.flatMap (fun a => ["--process-dir", a]) ++
    ["--main-class", s.mainClass] ++ s.excludes.flatMap (fun e => ["--exclude", e]) ++
    (s.switches.filter (·.1)).map (·.2)

end Settings
end CallGraph
