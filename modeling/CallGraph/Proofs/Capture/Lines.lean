import CallGraph.Capture.Stream
import Mathlib.Algebra.BigOperators.Group.List.Basic
import Mathlib.Data.List.SplitBy
import Mathlib.Data.List.TakeWhile
import Mathlib.Tactic.Common

/-! A stream of bytes as numbered lines, and a reader that passes over the blank ones. -/
namespace CallGraph.Capture

def splitLines (bytes : List UInt8) : List (List UInt8) :=
  bytes.splitBy fun b _ => b ≠ 10

variable {line bytes rest : List UInt8}

private theorem isChain_of_notMem (hline : 10 ∉ line) :
    line.IsChain fun b _ => decide (b ≠ 10) := by
  apply List.Pairwise.isChain
  apply List.pairwise_of_forall_mem_list
  intro b hb _ _
  simpa using fun heq : b = 10 => hline (heq ▸ hb)

theorem splitLines_of_last (hne : line ≠ []) (hline : 10 ∉ line) : splitLines line = [line] :=
  List.splitBy_of_isChain hne (isChain_of_notMem hline)

theorem splitLines_of_ended (hline : 10 ∉ line) (rest : List UInt8) :
    splitLines (line ++ 10 :: rest) = (line ++ [10]) :: splitLines rest := by
  have hchain : (line ++ [10]).IsChain fun b _ => decide (b ≠ 10) := by
    refine List.isChain_append.mpr ⟨isChain_of_notMem hline, List.isChain_singleton _, ?_⟩
    intro b hb _ _
    simpa using fun heq : b = 10 => hline (heq ▸ List.mem_of_getLast? hb)
  have hwhole : line ++ 10 :: rest = (line ++ [10]) ++ rest := by simp
  rw [splitLines, hwhole, List.splitBy_append (by simp), List.splitBy_of_isChain (by simp) hchain]
  rfl

theorem length_splitLines_le (bytes : List UInt8) : (splitLines bytes).length ≤ bytes.length := by
  have hnonempty : ∀ line ∈ splitLines bytes, 1 ≤ line.length := fun line hline =>
    List.length_pos_iff.mpr (List.ne_nil_of_mem_splitBy hline)
  have hsum := List.length_le_sum_of_one_le ((splitLines bytes).map List.length) (by simpa using hnonempty)
  rw [List.length_map, ← List.length_flatten, splitLines, List.flatten_splitBy] at hsum
  exact hsum

/-- The line that is taken from a stream is the first of its lines. -/
theorem splitLines_cons (b : UInt8) (bytes : List UInt8) :
    splitLines (b :: bytes) = (takeLine (b :: bytes)).1 :: splitLines (takeLine (b :: bytes)).2 := by
  have hsplit := List.takeWhile_append_dropWhile (p := (· ≠ 10)) (l := b :: bytes)
  have hline : (10 : UInt8) ∉ (b :: bytes).takeWhile (· ≠ 10) := by
    intro hmem
    simpa using List.mem_takeWhile_imp hmem
  unfold takeLine
  cases hrest : (b :: bytes).dropWhile (· ≠ 10) with
  | nil =>
    rw [hrest, List.append_nil] at hsplit
    rw [hsplit] at hline ⊢
    exact splitLines_of_last (List.cons_ne_nil b bytes) hline
  | cons feed rest =>
    have hfeed : feed = 10 := by
      have hhead := List.head?_dropWhile_not (· ≠ 10) (b :: bytes)
      rw [hrest] at hhead
      simpa using hhead
    subst hfeed
    rw [hrest] at hsplit
    conv_lhs => rw [← hsplit]
    exact splitLines_of_ended hline rest

/-- A line that is not blank: its number, and its text if its bytes are valid. -/
structure Entry where
  number : ℕ
  text? : Option (List Char)

/-- The lines that are not blank, where `count` lines stand before the first one. -/
def entries (count : ℕ) (lines : List (List UInt8)) : List Entry :=
  (lines.mapIdx fun i line => ⟨count + i + 1, lineText? line⟩).filter (·.text? ≠ some [])

theorem entries_cons (count : ℕ) (line : List UInt8) (lines : List (List UInt8)) :
    entries count (line :: lines) =
      (if lineText? line = some [] then [] else [⟨count + 1, lineText? line⟩]) ++
        entries (count + 1) lines := by
  have hnumber (i : ℕ) : count + (i + 1) + 1 = count + 1 + i + 1 := by omega
  unfold entries
  rw [List.mapIdx_cons, List.filter_cons]
  simp only [Nat.add_zero, hnumber]
  by_cases hblank : lineText? line = some [] <;> simp [hblank]

theorem length_entries_le (count : ℕ) (lines : List (List UInt8)) :
    (entries count lines).length ≤ lines.length := by
  simpa [entries] using List.length_filter_le (·.text? ≠ some [])
    (lines.mapIdx fun i line => (⟨count + i + 1, lineText? line⟩ : Entry))

def NextLine.entries : NextLine → List Entry
  | .finished => []
  | .undecodable before rest => ⟨before + 1, none⟩ :: Capture.entries (before + 1) (splitLines rest)
  | .text number chars rest => ⟨number, some chars⟩ :: Capture.entries number (splitLines rest)

/-- The next line is the first that is not blank. -/
theorem entries_nextLine (count : ℕ) (bytes : List UInt8) :
    (nextLine count bytes).entries = entries count (splitLines bytes) := by
  fun_induction nextLine count bytes with
  | case1 => simp [NextLine.entries, splitLines, entries]
  | case2 count b rest split hnone =>
    rw [splitLines_cons, entries_cons, if_neg (by simp [split, hnone])]
    simp [NextLine.entries, split, hnone]
  | case3 count b rest split hblank ih =>
    rw [splitLines_cons, entries_cons, if_pos hblank, ih]
    rfl
  | case4 count b rest split text hne htext =>
    rw [splitLines_cons, entries_cons, if_neg (by simpa [split, htext] using hne)]
    simp [NextLine.entries, split, htext]

end CallGraph.Capture
