import CallGraph.Disk.Files

/-! Writing through a buffer: bytes reach the file when they no longer fit, or on request. -/
namespace CallGraph.Disk

/-- A handle and the bytes held back from it. -/
structure Writer where
  handle : Handle
  buffer : ByteArray

namespace Writer

/-- So many bytes are held back at most. -/
def capacity : Nat := 8192

def start (handle : Handle) : Writer :=
  ⟨handle, .empty⟩

/-- Hands on what is held back; after a failure it is held back still. -/
def flush : Action (Writer × Disk) IoError Unit := fun (w, d) =>
  if w.buffer.isEmpty then (.ok (), w, d)
  else
    match Disk.write w.handle w.buffer d with
    | (.error e, d) => (.error e, w, d)
    | (.ok handle, d) => (.ok (), ⟨handle, .empty⟩, d)

/-- Takes bytes that fit: they are held back, unless they fill a buffer on their own. -/
def take (bytes : ByteArray) : Action (Writer × Disk) IoError Unit := fun (w, d) =>
  if bytes.size < capacity then (.ok (), { w with buffer := w.buffer ++ bytes }, d)
  else
    match Disk.write w.handle bytes d with
    | (.error e, d) => (.error e, w, d)
    | (.ok handle, d) => (.ok (), { w with handle }, d)

/-- Writes bytes, after a flush if they do not fit beside what is held back. -/
def put (bytes : ByteArray) : Action (Writer × Disk) IoError Unit := fun (w, d) =>
  if capacity < w.buffer.size + bytes.size then
    flush.andThen (fun _ => take bytes) (w, d)
  else take bytes (w, d)

end Writer
end CallGraph.Disk
