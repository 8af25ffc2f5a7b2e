/-! JSON values and their compact written form, as the pieces in which it is handed on. -/
namespace CallGraph.Json

/-- A JSON value; a number is kept as it is written. -/
inductive Value
  | null
  | bool (b : Bool)
  | number (literal : String)
  | text (s : String)
  | array (items : List Value)
  | object (members : List (String × Value))
  deriving Repr

/-- The digits of a number below 256 in base sixteen. -/
def hexPair (n : Nat) : List Char :=
  [Nat.digitChar (n / 16), Nat.digitChar (n % 16)]

/-- The escape of a character that cannot stand for itself within quotes. -/
def escape? (c : Char) : Option String :=
  if c = '"' then some "\\\""
  else if c = '\\' then some "\\\\"
  else if c = '\x08' then some "\\b"
  else if c = '\t' then some "\\t"
  else if c = '\n' then some "\\n"
  else if c = '\x0c' then some "\\f"
  else if c = '\r' then some "\\r"
  else if c.toNat < 32 then some (String.ofList ("\\u00".toList ++ hexPair c.toNat))
  else none

/-- A run of characters collected backwards, as a piece unless it is empty. -/
def runPiece (run : List Char) : List String :=
  if run.isEmpty then [] else [String.ofList run.reverse]

/-- Runs of plain characters and single escapes, in order. -/
def escapedRuns (run : List Char) : List Char → List String
  | [] => runPiece run
  | c :: rest =>
    match escape? c with
    | none => escapedRuns (c :: run) rest
    | some escape => runPiece run ++ escape :: escapedRuns [] rest

def textPieces (s : String) : List String :=
  "\"" :: escapedRuns [] s.toList ++ ["\""]

mutual

/-- The pieces of a value's written form, in order. -/
def Value.pieces : Value → List String
  | .null => ["null"]
  | .bool b => [if b then "true" else "false"]
  | .number literal => [literal]
  | .text s => textPieces s
  | .array items => "[" :: itemPieces items ++ ["]"]
  | .object members => "\x7b" :: memberPieces members ++ ["\x7d"]

def itemPieces : List Value → List String
  | [] => []
  | [value] => value.pieces
  | value :: next :: rest => value.pieces ++ "," :: itemPieces (next :: rest)

def memberPieces : List (String × Value) → List String
  | [] => []
  | [(key, value)] => textPieces key ++ ":" :: value.pieces
  | (key, value) :: next :: rest =>
    textPieces key ++ ":" :: value.pieces ++ "," :: memberPieces (next :: rest)

end

def Value.render (v : Value) : String :=
  String.join v.pieces

end CallGraph.Json
