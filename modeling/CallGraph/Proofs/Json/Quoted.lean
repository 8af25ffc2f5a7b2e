import CallGraph.Json.Reader
import CallGraph.Json.Value
import Mathlib.Tactic.Common

/-! Reading a quoted text undoes the escapes with which it is written. -/
namespace CallGraph.Json

def chars (pieces : List String) : List Char :=
  pieces.flatMap String.toList

@[simp] theorem chars_nil : chars [] = [] :=
  rfl

@[simp] theorem chars_cons (piece : String) (pieces : List String) :
    chars (piece :: pieces) = piece.toList ++ chars pieces :=
  rfl

@[simp] theorem chars_append (pieces more : List String) :
    chars (pieces ++ more) = chars pieces ++ chars more :=
  List.flatMap_append

theorem toList_render (v : Value) : v.render.toList = chars v.pieces :=
  String.toList_join

/-- A character as it stands within quotes. -/
def written (c : Char) : List Char :=
  ((escape? c).map String.toList).getD [c]

private theorem chars_runPiece (run : List Char) : chars (runPiece run) = run.reverse := by
  cases run with
  | nil => rfl
  | cons c run => simp [runPiece, chars]

theorem chars_escapedRuns (run text : List Char) :
    chars (escapedRuns run text) = run.reverse ++ text.flatMap written := by
  induction text generalizing run with
  | nil => simp [escapedRuns, chars_runPiece]
  | cons c text ih =>
    cases he : escape? c with
    | none => simp [escapedRuns, he, ih, written]
    | some escape => simp [escapedRuns, he, ih, written, chars_runPiece]

theorem chars_textPieces (s : String) :
    chars (textPieces s) = '"' :: (s.toList.flatMap written ++ ['"']) := by
  simp [textPieces, chars_escapedRuns]

/-- The four digits of a control character stand for its number. -/
private theorem hexValue?_control :
    ∀ n < 32, hexValue? ('0' :: '0' :: hexPair n) = some n := by
  decide

private theorem readEscape_control {c : Char} (h : c.toNat < 32) (rest : List Char) :
    readEscape ('u' :: '0' :: '0' :: (hexPair c.toNat ++ rest)) = .ok (c, rest) := by
  have hv := hexValue?_control c.toNat h
  have hlow : isLowSurrogate c.toNat = false := by
    simp [isLowSurrogate]
    omega
  have hhigh : isHighSurrogate c.toNat = false := by
    simp [isHighSurrogate]
    omega
  simp only [hexPair] at hv
  simp [readEscape, plainEscape?, readCodePoint, readHex, hexPair, hv, hlow, hhigh, bind,
    Except.bind]

theorem readQuoted_escape {read rest rest' : List Char} {c : Char}
    (h : readEscape rest = .ok (c, rest')) :
    readQuoted read ('\\' :: rest) = readQuoted (c :: read) rest' := by
  rw [readQuoted]
  simp only [Char.reduceEq, if_false, if_true]
  split
  · rename_i f hf
    rw [h] at hf
    cases hf
  · rename_i e later he
    rw [h] at he
    cases he
    rfl

theorem readQuoted_written (read : List Char) (c : Char) (rest : List Char) :
    readQuoted read (written c ++ rest) = readQuoted (c :: read) rest := by
  unfold written escape?
  split_ifs with hquote hslash hb ht hn hf hr hcontrol
  iterate 7
    · subst c
      exact readQuoted_escape rfl
  · simpa using readQuoted_escape (readEscape_control hcontrol rest)
  · simp [readQuoted, hquote, hslash, hcontrol]

/-- A text is read back from its quoted form, whatever follows. -/
theorem readQuoted_flatMap (read text rest : List Char) :
    readQuoted read (text.flatMap written ++ '"' :: rest) = .ok (read.reverse ++ text, rest) := by
  induction text generalizing read with
  | nil => simp [readQuoted]
  | cons c text ih =>
    rw [List.flatMap_cons, List.append_assoc, readQuoted_written, ih]
    simp

end CallGraph.Json
