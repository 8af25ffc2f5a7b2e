import CallGraph.Json.Reader
import CallGraph.Progress

/-! Numbers in JSON text: exact while they fit 64 bits, binary fractions otherwise. -/
namespace CallGraph.Json

inductive Number
  | natural (n : Nat)
  | negative (n : Nat)
  | real (negative : Bool) (magnitude : Binary64)
  deriving DecidableEq, Repr

/-- A number as a value of another shape. -/
def Number.found : Number → Found
  | .natural n => .integer n
  | .negative n => .integer (-n)
  | .real sign magnitude => .real sign magnitude

def digitValue (c : Char) : Nat :=
  c.toNat - '0'.toNat

/-- Appends digits to a significand as long as it stays within the largest count, and counts them. -/
def absorbDigits (significand : Nat) : List Char → Nat × Nat
  | [] => (significand, 0)
  | d :: digits =>
    let longer := significand * 10 + digitValue d
    if longer ≤ maxCount then
      let (final, taken) := absorbDigits longer digits
      (final, taken + 1)
    else (significand, 0)

/-- The magnitude of `significand * 10 ^ exponent`, which must be in range. -/
def finishReal (negative : Bool) (significand : Nat) (exponent : Int) (rest : List Char) :
    Except Failure (Number × List Char) :=
  match Binary64.ofParts? significand exponent with
  | some magnitude => .ok (.real negative magnitude, rest)
  | none => failAt .numberOutOfRange rest

/-- The largest exponent that is told from a larger one. -/
def maxExponent : Nat :=
  0x7FFFFFFF

/-- The value of an exponent's digits, or where it grows too large. -/
def exponentDigits (exponent : Nat) : List Char → Option Nat × List Char
  | [] => (some exponent, [])
  | c :: rest =>
    if c.isDigit then
      let longer := exponent * 10 + digitValue c
      if longer ≤ maxExponent then exponentDigits longer rest else (none, rest)
    else (some exponent, c :: rest)

/-- An exponent held within 32 bits. -/
def clampExponent (e : Int) : Int :=
  max (-(maxExponent : Int) - 1) (min e maxExponent)

/-- The part of a number after the letter of its exponent. -/
def readExponent (negative : Bool) (significand : Nat) (scale : Int) : Reader Number := fun s =>
  let (down, digits) := match s with
    | '+' :: rest => (false, rest)
    | '-' :: rest => (true, rest)
    | rest => (false, rest)
  match digits with
  | [] => failAt .endInValue []
  | c :: _ =>
    if c.isDigit then
      match exponentDigits 0 digits with
      | (some e, rest) =>
        finishReal negative significand (clampExponent (if down then scale - e else scale + e)) rest
      | (none, rest) =>
        if significand ≠ 0 ∧ !down then failAt .numberOutOfRange rest
        else .ok (.real negative .zero, rest.dropWhile Char.isDigit)
    else failPast .invalidNumber digits

def readScaled (negative : Bool) (significand : Nat) (scale : Int) : Reader Number := fun s =>
  match s with
  | c :: rest =>
    if c = 'e' ∨ c = 'E' then readExponent negative significand scale rest
    else finishReal negative significand scale s
  | [] => finishReal negative significand scale s

/-- The part of a number after its point. -/
def readFraction (negative : Bool) (significand : Nat) (scale : Int) : Reader Number := fun s =>
  let digits := s.takeWhile Char.isDigit
  let rest := s.dropWhile Char.isDigit
  if digits.isEmpty then
    if rest.isEmpty then failAt .endInValue [] else failPast .invalidNumber rest
  else
    let (longer, taken) := absorbDigits significand digits
    readScaled negative longer (scale - taken) rest

/-- A whole number; a negative one that does not fit 64 bits, or is zero, is a real. -/
def wholeNumber (negative : Bool) (n : Nat) (rest : List Char) :
    Except Failure (Number × List Char) :=
  if !negative then .ok (.natural n, rest)
  else if n = 0 ∨ 0x8000000000000000 < n then finishReal true n 0 rest
  else .ok (.negative n, rest)

/-- A number after its sign. -/
def readNumber (negative : Bool) : Reader Number := fun s =>
  let digits := s.takeWhile Char.isDigit
  let rest := s.dropWhile Char.isDigit
  match digits with
  | [] => if s.isEmpty then failAt .endInValue [] else failPast .invalidNumber s
  | first :: more =>
    if first = '0' ∧ !more.isEmpty then failPast .invalidNumber (more ++ rest)
    else
      let (significand, taken) := absorbDigits 0 digits
      let scale : Int := digits.length - taken
      match rest with
      | '.' :: rest' => readFraction negative significand scale rest'
      | _ =>
        if taken = digits.length ∧ rest.head? ≠ some 'e' ∧ rest.head? ≠ some 'E' then
          wholeNumber negative significand rest
        else readScaled negative significand scale rest

end CallGraph.Json
