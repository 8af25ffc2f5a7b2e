import CallGraph.Disk.Files
import CallGraph.Remote.Server

/-! What an export acts on: the disk, graph servers, and programs that can be started. -/
namespace CallGraph

/-- What a program writes before it ends, and how it ends. -/
structure Execution where
  output : List UInt8
  status : ExitStatus
  deriving DecidableEq, Repr

/-- Disk, servers and programs; a program that cannot be started has no process. Servers are reached
through a client library with state `ν`. -/
structure World (ν : Type := Remote.Server) where
  disk : Disk
  server : ν
  start : (disk : Disk) → (program : String) → (arguments : List String) → Except IoError Execution

namespace World

variable {ν : Type}

def withDisk (w : World ν) (disk : Disk) : World ν :=
  { w with disk }

def withServer (w : World ν) (server : ν) : World ν :=
  { w with server }

end World
end CallGraph
