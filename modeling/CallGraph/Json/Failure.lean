import CallGraph.Number.Shortest
import CallGraph.Text.Quoted

/-! Why and where a text is not the JSON value that is expected. -/
namespace CallGraph.Json

/-- A value of another shape than the expected one. -/
inductive Found
  | null
  | bool (b : Bool)
  | integer (n : Int)
  | real (negative : Bool) (magnitude : Binary64)
  | text (s : String)
  | list
  | object
  deriving DecidableEq, Repr

def Found.describe : Found → String
  | .null => "null"
  | .bool b => "boolean `" ++ (if b then "true" else "false") ++ "`"
  | .integer n => "integer `" ++ toString n ++ "`"
  | .real negative magnitude =>
    "floating point `" ++ (if negative then "-" else "") ++ magnitude.text ++ "`"
  | .text s => "string " ++ Text.quoted s
  | .list => "sequence"
  | .object => "map"

inductive Cause
  | endInText
  | endInValue
  | endInList
  | endInObject
  | expectedColon
  | expectedListEnd
  | expectedObjectEnd
  | expectedValue
  | expectedWord
  | keyNotText
  | trailingComma
  | trailingCharacters
  | invalidNumber
  | numberOutOfRange
  | invalidEscape
  | controlCharacter
  | unfinishedPair
  | loneSurrogate
  | missingField (name : String)
  | duplicateField (name : String)
  | wrongLength (length : Nat) (expected : String)
  | wrongType (found : Found) (expected : String)
  | wrongValue (found : Found) (expected : String)
  deriving DecidableEq, Repr

def Cause.describe : Cause → String
  | .endInText => "EOF while parsing a string"
  | .endInValue => "EOF while parsing a value"
  | .endInList => "EOF while parsing a list"
  | .endInObject => "EOF while parsing an object"
  | .expectedColon => "expected `:`"
  | .expectedListEnd => "expected `,` or `]`"
  | .expectedObjectEnd => "expected `,` or `\x7d`"
  | .expectedValue => "expected value"
  | .expectedWord => "expected ident"
  | .keyNotText => "key must be a string"
  | .trailingComma => "trailing comma"
  | .trailingCharacters => "trailing characters"
  | .invalidNumber => "invalid number"
  | .numberOutOfRange => "number out of range"
  | .invalidEscape => "invalid escape"
  | .controlCharacter => "control character (\\u0000-\\u001F) found while parsing a string"
  | .unfinishedPair => "unexpected end of hex escape"
  | .loneSurrogate => "lone leading surrogate in hex escape"
  | .missingField name => "missing field `" ++ name ++ "`"
  | .duplicateField name => "duplicate field `" ++ name ++ "`"
  | .wrongLength length expected =>
    "invalid length " ++ toString length ++ ", expected " ++ expected
  | .wrongType found expected => "invalid type: " ++ found.describe ++ ", expected " ++ expected
  | .wrongValue found expected => "invalid value: " ++ found.describe ++ ", expected " ++ expected

/-- A cause and the number of bytes of the text that are left at it. -/
structure Failure where
  cause : Cause
  left : Nat
  deriving DecidableEq, Repr

def byteSize : List Char → Nat
  | [] => 0
  | c :: rest => c.utf8Size + byteSize rest

/-- A cause, the line it is on, counted from one, and the bytes of that line before it. -/
structure Fault where
  cause : Cause
  line : Nat
  column : Nat
  deriving DecidableEq, Repr

/-- The line and column reached after a number of bytes of a text. -/
def positionAfter (line column : Nat) : Nat → List Char → Nat × Nat
  | _, [] => (line, column)
  | bytes, c :: rest =>
    if bytes = 0 then (line, column)
    else if c = '\n' then positionAfter (line + 1) 0 (bytes - 1) rest
    else positionAfter line (column + min c.utf8Size bytes) (bytes - c.utf8Size) rest

/-- A failure placed within the whole text. -/
def Failure.within (f : Failure) (text : List Char) : Fault :=
  let (line, column) := positionAfter 1 0 (byteSize text - f.left) text
  ⟨f.cause, line, column⟩

def Fault.describe (f : Fault) : String :=
  f.cause.describe ++ " at line " ++ toString f.line ++ " column " ++ toString f.column

end CallGraph.Json
