import CallGraph.Capture.Record
import CallGraph.Error
import CallGraph.Text.Blank
import CallGraph.Yield

/-!
A captured call graph, read line by line. The first line that is not blank is the header and each later
one is an edge; the stream ends at its first fault.
-/
namespace CallGraph.Capture

/-- The bytes up to and including the first line feed, and those after it. -/
def takeLine (bytes : List UInt8) : List UInt8 × List UInt8 :=
  let line := bytes.takeWhile (· ≠ 10)
  match bytes.dropWhile (· ≠ 10) with
  | [] => (line, [])
  | feed :: rest => (line ++ [feed], rest)

theorem takeLine_length (b : UInt8) (rest : List UInt8) :
    (takeLine (b :: rest)).2.length < (b :: rest).length := by
  have h := (List.dropWhile_sublist (l := b :: rest) (· ≠ 10)).length_le
  unfold takeLine
  split
  · simp
  · next _ _ e =>
    rw [e] at h
    simp only [List.length_cons] at h ⊢
    omega

/-- The characters of a line without white space around them, if its bytes are valid UTF-8. -/
def lineText? (line : List UInt8) : Option (List Char) :=
  (String.fromUTF8? ⟨line.toArray⟩).map fun s => Text.trim s.toList

inductive NextLine
  | finished
  | undecodable (linesBefore : Nat) (rest : List UInt8)
  | text (number : Nat) (text : List Char) (rest : List UInt8)
  deriving DecidableEq, Repr

/-- Passes over blank lines; `count` lines have been read before. -/
def nextLine (count : Nat) : List UInt8 → NextLine
  | [] => .finished
  | b :: rest =>
    let split := takeLine (b :: rest)
    match lineText? split.1 with
    | none => .undecodable count split.2
    | some [] => nextLine (count + 1) split.2
    | some text => .text (count + 1) text split.2
termination_by bytes => bytes.length
decreasing_by exact takeLine_length b rest

/-- An opened capture: its header, the bytes not read yet and the number of lines read. -/
structure Stream where
  header : Header
  unread : List UInt8
  lines : Nat
  ended : Bool
  deriving DecidableEq, Repr

namespace Stream

/-- Reads the header. -/
def openBytes (bytes : List UInt8) : Except EngineError Stream :=
  match nextLine 0 bytes with
  | .finished => .error .noHeader
  | .undecodable _ _ => .error (.unreadableHeader .notUtf8)
  | .text number text rest =>
    match Json.parse Header.schema.read text with
    | .error fault => .error (.invalidHeader number fault)
    | .ok header => .ok ⟨header, rest, number, false⟩

/-- The next edge or fault; nothing once the stream has ended. -/
def next (s : Stream) : Option (Except EngineError Edge) × Stream :=
  if s.ended then (none, s)
  else
    match nextLine s.lines s.unread with
    | .finished => (none, { s with unread := [], ended := true })
    | .undecodable count rest =>
      (some (.error (.unreadableAfter count .notUtf8)),
        { s with unread := rest, lines := count, ended := true })
    | .text number text rest =>
      match Json.parse edgeSchema.read text with
      | .error fault =>
        (some (.error (.invalidEdge number fault)),
          { s with unread := rest, lines := number, ended := true })
      | .ok edge => (some (.ok edge), { s with unread := rest, lines := number })

/-- Steps enough to reach the end: each edge takes a byte at least, and one fault may follow. -/
def steps (s : Stream) : Nat :=
  s.unread.length + 2

def items (s : Stream) : List (Except EngineError Edge) :=
  (drain next s s.steps).1

end Stream
end CallGraph.Capture
