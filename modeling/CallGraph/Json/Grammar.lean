import CallGraph.Json.Reader
import CallGraph.Json.Value

/-! The one value that a strictly formed JSON text denotes. -/
namespace CallGraph.Json

/-- The digits at the start of a text, of which there must be one at least. -/
def digits? (s : List Char) : Option (List Char × List Char) :=
  match s.takeWhile Char.isDigit with
  | [] => none
  | digits => some (digits, s.dropWhile Char.isDigit)

/-- The digits before a point; only a lone zero may come first. -/
def wholePart? (s : List Char) : Option (List Char × List Char) :=
  match digits? s with
  | some ('0' :: _ :: _, _) => none
  | part? => part?

/-- A point and the digits after it, if a point follows. -/
def fractionPart? : List Char → Option (List Char × List Char)
  | '.' :: s => (digits? s).map fun (digits, rest) => ('.' :: digits, rest)
  | s => some ([], s)

/-- The sign that an exponent may have. -/
def signPart : List Char → List Char × List Char
  | '+' :: s => (['+'], s)
  | '-' :: s => (['-'], s)
  | s => ([], s)

def exponentPart? : List Char → Option (List Char × List Char)
  | [] => some ([], [])
  | c :: s =>
    if c = 'e' ∨ c = 'E' then
      let (sign, s) := signPart s
      (digits? s).map fun (digits, rest) => (c :: sign ++ digits, rest)
    else some ([], c :: s)

def numeral? (s : List Char) : Option (List Char × List Char) := do
  let (sign, s) := match s with
    | '-' :: s => (['-'], s)
    | s => ([], s)
  let (whole, s) ← wholePart? s
  let (fraction, s) ← fractionPart? s
  let (exponent, s) ← exponentPart? s
  return (sign ++ whole ++ fraction ++ exponent, s)

/-- The rest of a text after a word. -/
def word? (word s : List Char) : Option (List Char) :=
  if word.isPrefixOf s then some (s.drop word.length) else none

/-- A text after its opening quote. -/
def quoted? (s : List Char) : Option (String × List Char) :=
  match readQuoted [] s with
  | .error _ => none
  | .ok (text, rest) => some (String.ofList text, rest)

mutual

/-- The value at the start of a text; a step of `fuel` goes into each bracket and each item. -/
def value? (fuel : Nat) (s : List Char) : Option (Value × List Char) :=
  match fuel with
  | 0 => none
  | fuel + 1 =>
    match skipBlank s with
    | [] => none
    | c :: s =>
      if c = '"' then (quoted? s).map fun (text, rest) => (.text text, rest)
      else if c = '[' then
        match skipBlank s with
        | ']' :: rest => some (.array [], rest)
        | s => (items? fuel s).map fun (items, rest) => (.array items, rest)
      else if c = '\x7b' then
        match skipBlank s with
        | '\x7d' :: rest => some (.object [], rest)
        | s => (members? fuel s).map fun (members, rest) => (.object members, rest)
      else if c = 'n' then (word? "ull".toList s).map fun rest => (.null, rest)
      else if c = 't' then (word? "rue".toList s).map fun rest => (.bool true, rest)
      else if c = 'f' then (word? "alse".toList s).map fun rest => (.bool false, rest)
      else (numeral? (c :: s)).map fun (numeral, rest) => (.number (String.ofList numeral), rest)

def items? (fuel : Nat) (s : List Char) : Option (List Value × List Char) :=
  match fuel with
  | 0 => none
  | fuel + 1 =>
    match value? fuel s with
    | none => none
    | some (item, s) =>
      match skipBlank s with
      | ']' :: rest => some ([item], rest)
      | ',' :: s => (items? fuel s).map fun (items, rest) => (item :: items, rest)
      | _ => none

def members? (fuel : Nat) (s : List Char) : Option (List (String × Value) × List Char) :=
  match fuel with
  | 0 => none
  | fuel + 1 =>
    match skipBlank s with
    | '"' :: s =>
      match quoted? s with
      | none => none
      | some (key, s) =>
        match skipBlank s with
        | ':' :: s =>
          match value? fuel s with
          | none => none
          | some (value, s) =>
            match skipBlank s with
            | '\x7d' :: rest => some ([(key, value)], rest)
            | ',' :: s =>
              (members? fuel s).map fun (members, rest) => ((key, value) :: members, rest)
            | _ => none
        | _ => none
    | _ => none

end

/-- The value that a whole text denotes; each bracket and each item takes a character at least. -/
def Value.ofText? (text : List Char) : Option Value :=
  match value? (2 * text.length + 2) text with
  | none => none
  | some (value, rest) => if (skipBlank rest).isEmpty then some value else none

end CallGraph.Json
