import CallGraph.Json.Reader

/-! Passing over a value of any shape without keeping it. -/
namespace CallGraph.Json

/-- The part of a skipped escape after its backslash; surrogates need no partner. -/
def skipEscape : List Char → Except Failure (List Char)
  | [] => failAt .endInText []
  | c :: rest =>
    if (plainEscape? c).isSome then .ok rest
    else if c = 'u' then
      match readHex rest with
      | .error f => .error f
      | .ok (_, rest) => .ok rest
    else failPast .invalidEscape (c :: rest)

theorem skipEscape_length {s rest : List Char} (h : skipEscape s = .ok rest) :
    rest.length < s.length := by
  cases s with
  | nil => cases h
  | cons c s =>
    simp only [skipEscape] at h
    split at h
    · cases h
      exact Nat.lt_succ_self _
    · split at h
      · cases hex : readHex s with
        | error f => rw [hex] at h; cases h
        | ok r =>
          rw [hex] at h
          cases h
          exact Nat.lt_succ_of_lt (readHex_length hex)
      · cases h

def skipQuoted : List Char → Except Failure (List Char)
  | [] => failAt .endInText []
  | c :: rest =>
    if c = '"' then .ok rest
    else if c = '\\' then
      match h : skipEscape rest with
      | .error f => .error f
      | .ok rest' =>
        have := skipEscape_length h
        skipQuoted rest'
    else if c.toNat < 32 then failAt .controlCharacter (c :: rest)
    else skipQuoted rest
termination_by s => s.length

/-- A skipped exponent after its letter. -/
def skipExponent (s : List Char) : Except Failure (List Char) :=
  let digits := match s with
    | '+' :: rest => rest
    | '-' :: rest => rest
    | rest => rest
  match digits with
  | [] => failAt .invalidNumber []
  | c :: rest =>
    if c.isDigit then .ok (rest.dropWhile Char.isDigit) else failPast .invalidNumber digits

def skipScaled (s : List Char) : Except Failure (List Char) :=
  match s with
  | c :: rest => if c = 'e' ∨ c = 'E' then skipExponent rest else .ok s
  | [] => .ok s

/-- A skipped number after its sign. -/
def skipNumber (s : List Char) : Except Failure (List Char) :=
  match s with
  | [] => failAt .invalidNumber []
  | c :: rest =>
    if !c.isDigit then failPast .invalidNumber s
    else if c = '0' ∧ (rest.head?.any Char.isDigit) then failPast .invalidNumber rest
    else
      match rest.dropWhile Char.isDigit with
      | '.' :: fraction =>
        let after := fraction.dropWhile Char.isDigit
        if (fraction.takeWhile Char.isDigit).isEmpty then failPast .invalidNumber after
        else skipScaled after
      | after => skipScaled after

/-- A skipped value that is neither a list nor an object. -/
def skipScalar : List Char → Except Failure (List Char)
  | [] => failPast .endInValue []
  | c :: rest =>
    if c = 'n' then (readWord "ull".toList rest).map (·.2)
    else if c = 't' then (readWord "rue".toList rest).map (·.2)
    else if c = 'f' then (readWord "alse".toList rest).map (·.2)
    else if c = '-' then skipNumber rest
    else if c.isDigit then skipNumber (c :: rest)
    else if c = '"' then skipQuoted rest
    else failPast .expectedValue (c :: rest)

/-- A skipped key and its colon, from the first character that is not blank. -/
def skipKey (s : List Char) : Except Failure (List Char) :=
  match s with
  | [] => failPast .endInObject []
  | c :: rest =>
    if c ≠ '"' then failPast .keyNotText s
    else
      match skipQuoted rest with
      | .error f => .error f
      | .ok rest =>
        match skipBlank rest with
        | [] => failPast .endInObject []
        | d :: rest => if d = ':' then .ok rest else failPast .expectedColon (d :: rest)

/-- A list or an object that is still open. -/
inductive Frame
  | list
  | object
  deriving DecidableEq, Repr

namespace Frame

def closer : Frame → Char
  | list => ']'
  | object => '\x7d'

/-- The cause when the text ends within a frame. -/
def atEnd : Frame → Cause
  | list => .endInList
  | object => .endInObject

/-- The cause when an item of a frame is followed by neither a comma nor the closing bracket. -/
def atOther : Frame → Cause
  | list => .expectedListEnd
  | object => .expectedObjectEnd

end Frame

/-- How far a skipped value is: before a value, after an opening bracket, or after a value. -/
inductive SkipStage
  | value
  | opened
  | closed
  deriving DecidableEq, Repr

/-- Passes over what is open, each step taking at least one character or coming to a value. -/
def skipOpen (fuel : Nat) (frames : List Frame) (stage : SkipStage) (s : List Char) :
    Except Failure (List Char) :=
  match fuel, stage, frames with
  | 0, _, _ => failPast .endInValue s
  | fuel + 1, .value, frames =>
    match skipBlank s with
    | [] => failPast .endInValue []
    | c :: rest =>
      if c = '[' then skipOpen fuel (.list :: frames) .opened rest
      else if c = '\x7b' then skipOpen fuel (.object :: frames) .opened rest
      else
        match skipScalar (c :: rest) with
        | .error f => .error f
        | .ok rest => skipOpen fuel frames .closed rest
  | _ + 1, .closed, [] => .ok s
  | _ + 1, .opened, [] => .ok s
  | fuel + 1, stage, frame :: outer =>
    match skipBlank s with
    | [] => failPast frame.atEnd []
    | c :: rest =>
      if c = frame.closer then skipOpen fuel outer .closed rest
      else if stage = .closed ∧ c ≠ ',' then failPast frame.atOther (c :: rest)
      else
        let item := if stage = .closed then rest else c :: rest
        if frame = .list then skipOpen fuel (frame :: outer) .value item
        else
          match skipKey (skipBlank item) with
          | .error f => .error f
          | .ok rest => skipOpen fuel (frame :: outer) .value rest

/-- Passes over one value; every two steps take a character at least. -/
def skipValue (s : List Char) : Except Failure (List Char) :=
  skipOpen (2 * s.length + 2) [] .value s

end CallGraph.Json
