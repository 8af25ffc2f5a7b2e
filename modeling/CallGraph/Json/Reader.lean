import CallGraph.Json.Failure

/-! Readers of JSON text: blanks, words and quoted texts. -/
namespace CallGraph.Json

/-- Reads a value from the start of a text and returns what is left. -/
abbrev Reader (α : Type) := List Char → Except Failure (α × List Char)

def failAt {α : Type} (cause : Cause) (rest : List Char) : Except Failure α :=
  .error ⟨cause, byteSize rest⟩

/-- A failure one byte into the remaining text, or at its end if nothing is left. -/
def failPast {α : Type} (cause : Cause) (rest : List Char) : Except Failure α :=
  .error ⟨cause, byteSize rest - 1⟩

/-- Whether a character may stand between the parts of a JSON text. -/
def isBlank (c : Char) : Bool :=
  c = ' ' || c = '\n' || c = '\t' || c = '\r'

/-- The text from its first character that is not blank. -/
def skipBlank (s : List Char) : List Char :=
  s.dropWhile isBlank

/-- The rest of a word whose first letter has been read. -/
def readWord : (expected : List Char) → Reader Unit
  | [], s => .ok ((), s)
  | _ :: _, [] => failAt .endInValue []
  | e :: expected, c :: rest =>
    if c = e then readWord expected rest else failPast .expectedWord (c :: rest)

def hexDigit? (c : Char) : Option Nat :=
  if '0' ≤ c ∧ c ≤ '9' then some (c.toNat - '0'.toNat)
  else if 'a' ≤ c ∧ c ≤ 'f' then some (c.toNat - 'a'.toNat + 10)
  else if 'A' ≤ c ∧ c ≤ 'F' then some (c.toNat - 'A'.toNat + 10)
  else none

/-- The number that four digits in base sixteen stand for. -/
def hexValue? (digits : List Char) : Option Nat :=
  digits.foldl (fun n? c => do return (← n?) * 16 + (← hexDigit? c)) (some 0)

/-- Four digits in base sixteen, counted in bytes. -/
def readHex : Reader Nat := fun s =>
  match s with
  | a :: b :: c :: d :: rest =>
    match hexValue? [a, b, c, d] with
    | some n => .ok (n, rest)
    | none => .error ⟨.invalidEscape, byteSize s - 4⟩
  | _ => if byteSize s < 4 then failAt .endInText [] else .error ⟨.invalidEscape, byteSize s - 4⟩

def isHighSurrogate (n : Nat) : Bool :=
  0xD800 ≤ n && n ≤ 0xDBFF

def isLowSurrogate (n : Nat) : Bool :=
  0xDC00 ≤ n && n ≤ 0xDFFF

/-- The second half of a surrogate pair, as an escape of its own. -/
def readLowHalf (high : Nat) : Reader Char
  | [] => failAt .endInText []
  | [c] => if c = '\\' then failAt .endInText [] else failPast .unfinishedPair [c]
  | c :: d :: s =>
    if c ≠ '\\' then failPast .unfinishedPair (c :: d :: s)
    else if d ≠ 'u' then failPast .unfinishedPair (d :: s)
    else
      match readHex s with
      | .error f => .error f
      | .ok (low, rest) =>
        if isLowSurrogate low then
          .ok (Char.ofNat ((high - 0xD800) * 0x400 + (low - 0xDC00) + 0x10000), rest)
        else failAt .loneSurrogate rest

/-- The digits of a code point escape, and of a second one if the first starts a pair. -/
def readCodePoint : Reader Char := fun s => do
  let (n, rest) ← readHex s
  if isLowSurrogate n then failAt .loneSurrogate rest
  else if isHighSurrogate n then readLowHalf n rest
  else .ok (Char.ofNat n, rest)

/-- The character that a one-letter escape stands for. -/
def plainEscape? (c : Char) : Option Char :=
  if c = '"' then some '"'
  else if c = '\\' then some '\\'
  else if c = '/' then some '/'
  else if c = 'b' then some '\x08'
  else if c = 'f' then some '\x0c'
  else if c = 'n' then some '\n'
  else if c = 'r' then some '\r'
  else if c = 't' then some '\t'
  else none

/-- The part of an escape that follows its backslash. -/
def readEscape : Reader Char
  | [] => failAt .endInText []
  | c :: rest =>
    match plainEscape? c with
    | some plain => .ok (plain, rest)
    | none => if c = 'u' then readCodePoint rest else failPast .invalidEscape (c :: rest)

theorem readHex_length {s rest : List Char} {n : Nat} (h : readHex s = .ok (n, rest)) :
    rest.length < s.length := by
  unfold readHex at h
  split at h
  · split at h
    · cases h
      simp only [List.length_cons]
      omega
    · cases h
  · split at h <;> cases h

theorem readLowHalf_length {s rest : List Char} {high : Nat} {c : Char}
    (h : readLowHalf high s = .ok (c, rest)) : rest.length < s.length := by
  match s with
  | [] => cases h
  | [_] => simp only [readLowHalf] at h; split at h <;> cases h
  | _ :: _ :: s =>
    simp only [readLowHalf] at h
    split at h
    · cases h
    · split at h
      · cases h
      · cases hex : readHex s with
        | error e => rw [hex] at h; cases h
        | ok r =>
          rw [hex] at h
          have := readHex_length hex
          simp only at h
          split at h
          · simp only [Except.ok.injEq, Prod.mk.injEq] at h
            obtain ⟨-, rfl⟩ := h
            simp only [List.length_cons]
            omega
          · cases h

theorem readCodePoint_length {s rest : List Char} {c : Char}
    (h : readCodePoint s = .ok (c, rest)) : rest.length < s.length := by
  unfold readCodePoint at h
  cases hex : readHex s with
  | error e => rw [hex] at h; cases h
  | ok r =>
    rw [hex] at h
    have := readHex_length hex
    simp only [bind, Except.bind] at h
    split at h
    · cases h
    · split at h
      · exact Nat.lt_trans (readLowHalf_length h) this
      · cases h
        exact this

theorem readEscape_length {s rest : List Char} {c : Char} (h : readEscape s = .ok (c, rest)) :
    rest.length < s.length := by
  cases s with
  | nil => cases h
  | cons d s =>
    simp only [readEscape] at h
    split at h
    · cases h
      exact Nat.lt_succ_self _
    · split at h
      · exact Nat.lt_succ_of_lt (readCodePoint_length h)
      · cases h

/-- A quoted text after its opening quote; `read` holds the characters so far, backwards. -/
def readQuoted (read : List Char) : Reader (List Char)
  | [] => failAt .endInText []
  | c :: rest =>
    if c = '"' then .ok (read.reverse, rest)
    else if c = '\\' then
      match h : readEscape rest with
      | .error f => .error f
      | .ok (e, rest') =>
        have := readEscape_length h
        readQuoted (e :: read) rest'
    else if c.toNat < 32 then failPast .controlCharacter (c :: rest)
    else readQuoted (c :: read) rest
termination_by s => s.length

end CallGraph.Json
