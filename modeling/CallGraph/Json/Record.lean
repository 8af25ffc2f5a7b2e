import CallGraph.Json.Number
import CallGraph.Json.Skip

/-!
Reading values of an expected shape: texts, counts, optional values and records. A record is written as
an object with its fields in any order and other fields beside them, or as a list of its fields in order.
-/
namespace CallGraph.Json

/-- A value of whatever shape stands where another is expected. -/
def readFound : Reader Found
  | [] => failPast .expectedValue []
  | c :: rest =>
    if c = 'n' then (readWord "ull".toList rest).map fun r => (.null, r.2)
    else if c = 't' then (readWord "rue".toList rest).map fun r => (.bool true, r.2)
    else if c = 'f' then (readWord "alse".toList rest).map fun r => (.bool false, r.2)
    else if c = '-' then (readNumber true rest).map fun r => (r.1.found, r.2)
    else if c.isDigit then (readNumber false (c :: rest)).map fun r => (r.1.found, r.2)
    else if c = '"' then (readQuoted [] rest).map fun r => (.text (String.ofList r.1), r.2)
    else if c = '[' then .ok (.list, c :: rest)
    else if c = '\x7b' then .ok (.object, c :: rest)
    else failPast .expectedValue (c :: rest)

/-- The failure of a value that has another shape than the expected one. -/
def failShape {α : Type} (expected : String) (s : List Char) : Except Failure α :=
  match readFound s with
  | .error f => .error f
  | .ok (found, rest) => failAt (.wrongType found expected) rest

def readText : Reader String := fun s =>
  match skipBlank s with
  | [] => failPast .endInValue []
  | c :: rest =>
    if c = '"' then (readQuoted [] rest).map fun r => (String.ofList r.1, r.2)
    else failShape "a string" (c :: rest)

def readCount : Reader UInt64 := fun s =>
  let finish : Number × List Char → Except Failure (UInt64 × List Char)
    | (.natural n, rest) => .ok (UInt64.ofNat n, rest)
    | (.negative n, rest) => failAt (.wrongValue (.integer (-n)) "u64") rest
    | (.real negative magnitude, rest) => failAt (.wrongType (.real negative magnitude) "u64") rest
  match skipBlank s with
  | [] => failPast .endInValue []
  | c :: rest =>
    if c = '-' then (readNumber true rest).bind finish
    else if c.isDigit then (readNumber false (c :: rest)).bind finish
    else failShape "u64" (c :: rest)

def readPresent {α : Type} (read : Reader α) : Reader (Option α) := fun s =>
  (read s).map fun r => (some r.1, r.2)

/-- `null`, or a value of the given shape. -/
def readOptional {α : Type} (read : Reader α) : Reader (Option α) := fun s =>
  match skipBlank s with
  | 'n' :: rest => (readWord "ull".toList rest).map fun r => (none, r.2)
  | rest => readPresent read rest

/-- One field of a record whose values so far make up a draft. -/
structure Field (δ : Type) where
  name : String
  optional : Bool
  isSet : δ → Bool
  /-- Reads the field's value into the draft. -/
  read : δ → Reader δ

/-- The field whose value is kept in one place of the draft. -/
def Field.of {δ β : Type} (name : String) (optional : Bool) (get : δ → Option β)
    (set : δ → β → δ) (read : Reader β) : Field δ where
  name := name
  optional := optional
  isSet := fun draft => (get draft).isSome
  read := fun draft s => (read s).map fun r => (set draft r.1, r.2)

/-- How a record is named, which fields it has, and what it is made of. -/
structure Schema (δ α : Type) where
  name : String
  fields : List (Field δ)
  blank : δ
  build : δ → Option α

namespace Schema

variable {δ α : Type}

/-- The words for a record where another value stands. -/
def expected (schema : Schema δ α) : String :=
  "struct " ++ schema.name

/-- The words for a list that is too short for a record. -/
def expectedList (schema : Schema δ α) : String :=
  schema.expected ++ " with " ++ toString schema.fields.length ++ " elements"

/-- The record a complete draft makes, or the first field that is missing. -/
def finish (schema : Schema δ α) (draft : δ) : Except Cause α :=
  match schema.build draft with
  | some record => .ok record
  | none =>
    match schema.fields.find? fun f => !f.optional && !f.isSet draft with
    | some f => .error (.missingField f.name)
    | none => .error .endInObject

/-- Where an object's own faults are placed: past its closing bracket if that comes next. -/
def pastClose (close : Char) (s : List Char) : List Char :=
  match skipBlank s with
  | c :: rest => if c = close then rest else c :: rest
  | [] => []

def readColon (s : List Char) : Except Failure (List Char) :=
  match skipBlank s with
  | [] => failPast .endInObject []
  | c :: rest => if c = ':' then .ok rest else failPast .expectedColon (c :: rest)

/-- The opening quote of the next key, or nothing at the closing bracket. -/
def nextKey? (first : Bool) (s : List Char) : Except Failure (Option (List Char)) :=
  match skipBlank s with
  | [] => failPast .endInObject []
  | c :: rest =>
    if c = '\x7d' then .ok none
    else if first then
      if c = '"' then .ok (some rest) else failPast .keyNotText (c :: rest)
    else if c = ',' then
      match skipBlank rest with
      | [] => failPast .endInValue []
      | d :: rest =>
        if d = '"' then .ok (some rest)
        else if d = '\x7d' then failPast .trailingComma (d :: rest)
        else failPast .keyNotText (d :: rest)
    else failPast .expectedObjectEnd (c :: rest)

/-- One member after its key: a field is read into the draft, any other value is skipped. -/
def readMember (schema : Schema δ α) (key : String) (draft : δ) (s : List Char) :
    Except Failure (δ × List Char) :=
  match schema.fields.find? (·.name == key) with
  | some field =>
    if field.isSet draft then failAt (.duplicateField key) (pastClose '\x7d' s)
    else (readColon s).bind (field.read draft)
  | none => (readColon s).bind fun rest => (skipValue rest).map fun rest => (draft, rest)

/-- The members of an object up to its closing bracket, each taking a character at least. -/
def readMembers (schema : Schema δ α) (fuel : Nat) (first : Bool) (draft : δ) (s : List Char) :
    Except Failure (δ × List Char) :=
  match fuel with
  | 0 => failPast .endInObject s
  | fuel + 1 =>
    match nextKey? first s with
    | .error f => .error f
    | .ok none => .ok (draft, s)
    | .ok (some rest) =>
      match readQuoted [] rest with
      | .error f => .error f
      | .ok (key, rest) =>
        match schema.readMember (String.ofList key) draft rest with
        | .error f => .error f
        | .ok (draft, rest) => schema.readMembers fuel false draft rest

/-- An object after its opening bracket. -/
def readObject (schema : Schema δ α) : Reader α := fun s =>
  match schema.readMembers (s.length + 1) true schema.blank s with
  | .error f => .error f
  | .ok (draft, rest) =>
    let rest := pastClose '\x7d' rest
    match schema.finish draft with
    | .error cause => failAt cause rest
    | .ok record => .ok (record, rest)

/-- The start of the next item of a list, or nothing at the closing bracket. -/
def nextItem? (first : Bool) (s : List Char) : Except Failure (Option (List Char)) :=
  match skipBlank s with
  | [] => failPast .endInList []
  | c :: rest =>
    if c = ']' then .ok none
    else if first then .ok (some (c :: rest))
    else if c = ',' then
      match skipBlank rest with
      | [] => failPast .endInValue []
      | d :: rest => if d = ']' then failPast .trailingComma (d :: rest) else .ok (some (d :: rest))
    else failPast .expectedListEnd (c :: rest)

/-- The fields of a list in order; optional ones may be left out at its end. -/
def readItems (schema : Schema δ α) (position : Nat) (first : Bool) (draft : δ) (s : List Char) :
    List (Field δ) → Except Failure (δ × List Char)
  | [] => .ok (draft, s)
  | field :: fields =>
    match nextItem? first s with
    | .error f => .error f
    | .ok none =>
      if field.optional then schema.readItems (position + 1) first draft s fields
      else failAt (.wrongLength position schema.expectedList) (pastClose ']' s)
    | .ok (some item) =>
      match field.read draft item with
      | .error f => .error f
      | .ok (draft, rest) => schema.readItems (position + 1) false draft rest fields

def closeList (s : List Char) : Except Failure (List Char) :=
  match skipBlank s with
  | [] => failPast .endInList []
  | c :: rest =>
    if c = ']' then .ok rest
    else if c = ',' then
      match skipBlank rest with
      | ']' :: rest => failPast .trailingComma (']' :: rest)
      | rest => failPast .trailingCharacters rest
    else failPast .trailingCharacters (c :: rest)

/-- A list after its opening bracket. -/
def readList (schema : Schema δ α) : Reader α := fun s =>
  match schema.readItems 0 true schema.blank s schema.fields with
  | .error f => .error f
  | .ok (draft, rest) =>
    match closeList rest with
    | .error f => .error f
    | .ok rest =>
      match schema.finish draft with
      | .error cause => failAt cause rest
      | .ok record => .ok (record, rest)

def read (schema : Schema δ α) : Reader α := fun s =>
  match skipBlank s with
  | [] => failPast .endInValue []
  | c :: rest =>
    if c = '[' then schema.readList rest
    else if c = '\x7b' then schema.readObject rest
    else failShape schema.expected (c :: rest)

end Schema

/-- Reads a whole text, which may have blanks around its one value. -/
def parse {α : Type} (read : Reader α) (text : List Char) : Except Fault α :=
  match read text with
  | .error f => .error (f.within text)
  | .ok (value, rest) =>
    match skipBlank rest with
    | [] => .ok value
    | c :: rest =>
      let failure : Failure := ⟨.trailingCharacters, byteSize (c :: rest) - 1⟩
      .error (failure.within text)

end CallGraph.Json
