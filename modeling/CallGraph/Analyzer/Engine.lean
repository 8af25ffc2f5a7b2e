import CallGraph.Analyzer.Settings
import CallGraph.Capture.Stream
import CallGraph.Pipeline
import CallGraph.Text.Quoted
import CallGraph.World

/-! Where a call graph comes from: memory, a captured file, a running analyzer, or any other engine. -/
namespace CallGraph

inductive Engine
  | memory (edges : List Edge) (methodCount : Nat)
  | replay (path : String)
  | analyzer (program : String)
  | broken (cause : EngineError)
  /-- An engine of any other kind, with what it tells and how it builds the call graph. -/
  | other (notes : List Note) (build : Disk → Settings → Except ExportError Source)

/-- The output of an analyzer while it is read; its status is known once the output has ended. -/
structure LiveStream where
  stream : Capture.Stream
  status? : Option ExitStatus
  deriving DecidableEq, Repr

namespace LiveStream

/-- The next edge or fault; after the last one, a bad exit status is one more fault, once. -/
def next (s : LiveStream) : Option (Except EngineError Edge) × LiveStream :=
  match s.stream.next with
  | (some item, stream) => (some item, { s with stream })
  | (none, stream) =>
    let item? := match s.status? with
      | none => none
      | some status => if status.isSuccess then none else some (.error (.exited status))
    (item?, ⟨stream, none⟩)

/-- Everything an analyzer's output yields. -/
def items (s : LiveStream) : List (Except EngineError Edge) :=
  (drain next s (s.stream.steps + 1)).1

end LiveStream

namespace Source

def ofEdges (edges : List Edge) (methodCount : Nat) : Source :=
  ⟨edges.length, methodCount, edges.map .ok⟩

/-- An opened capture and the items it yields. -/
def ofItems (header : Capture.Header) (items : List (Except EngineError Edge)) : Source :=
  ⟨header.edges.toNat, header.methods.toNat, items.map (·.mapError .engine)⟩

def ofCapture (bytes : List UInt8) : Except ExportError Source :=
  match Capture.Stream.openBytes bytes with
  | .error e => .error (.engine e)
  | .ok s => .ok (ofItems s.header s.items)

def ofExecution (p : Execution) : Except ExportError Source :=
  match Capture.Stream.openBytes p.output with
  | .error e => .error (.engine e)
  | .ok s => .ok (ofItems s.header (LiveStream.items ⟨s, some p.status⟩))

end Source

namespace Engine

def openReplay (d : Disk) (path : String) : Except ExportError Source :=
  match d.read path with
  | .ok (.bytes data) => Source.ofCapture data.data.toList
  | .ok (.database _) => .error (.engine (.unreadableHeader .notUtf8))
  | .error .isFolder => .error (.engine (.unreadableHeader .isFolder))
  | .error e => .error (.configuration (.captureUnreadable path e))

def openAnalyzer {ν : Type} (w : World ν) (program : String) (settings : Settings) : Except ExportError Source :=
  match w.start w.disk program settings.arguments with
  | .error e => .error (.engine (.notStarted program e))
  | .ok process => Source.ofExecution process

/-- What is told before the call graph is opened. -/
def notes (settings : Settings) : Engine → List Note
  | replay path => [⟨.info, .replay, "Reading call graph dump from " ++ path⟩]
  | analyzer program =>
    [⟨.info, .analyzer,
        "Loading necessary classes, input jars are: " ++ Text.quotedList settings.archives⟩,
      ⟨.debug, .analyzer, "Spawning " ++ program ++ " " ++ Text.quotedList settings.arguments⟩]
  | other notes _ => notes
  | _ => []

def source {ν : Type} (w : World ν) (settings : Settings) : Engine → Except ExportError Source
  | memory edges methodCount => .ok (Source.ofEdges edges methodCount)
  | replay path => openReplay w.disk path
  | analyzer program => openAnalyzer w program settings
  | broken cause => .error (.engine cause)
  | other _ build => build w.disk settings

end Engine
end CallGraph
