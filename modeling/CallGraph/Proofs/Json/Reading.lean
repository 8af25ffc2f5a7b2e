import CallGraph.Json.Record
import CallGraph.Proofs.Json.RoundTrip

/-! Readers take texts and counts back from their written form, with blanks before it. -/
namespace CallGraph.Json

def Gap (s : List Char) : Prop :=
  ∀ c ∈ s, isBlank c

/-- The text does not begin with a character that could carry on a number. -/
def Stops (s : List Char) : Prop :=
  ∀ c ∈ s.head?, c.isDigit = false ∧ c ≠ '.' ∧ c ≠ 'e' ∧ c ≠ 'E'

/-- A reader takes a text from the start of another, with any blanks before it, as a value. -/
def Reads {α : Type} (read : Reader α) (text : List Char) (value : α) : Prop :=
  ∀ gap rest, Gap gap → Stops rest → read (gap ++ text ++ rest) = .ok (value, rest)

theorem gap_nil : Gap [] := by
  simp [Gap]

theorem skipBlank_gap {gap : List Char} {c : Char} (hgap : Gap gap) (hc : isBlank c = false)
    (rest : List Char) : skipBlank (gap ++ c :: rest) = c :: rest := by
  rw [skipBlank, List.dropWhile_append_of_pos hgap]
  exact skipBlank_cons hc rest

theorem stops_cons {c : Char} (rest : List Char)
    (h : c.isDigit = false ∧ c ≠ '.' ∧ c ≠ 'e' ∧ c ≠ 'E') : Stops (c :: rest) := by
  intro d hd
  obtain rfl : c = d := by simpa using hd
  exact h

theorem stops_gap {gap : List Char} {c : Char} (hgap : Gap gap) (rest : List Char)
    (h : c.isDigit = false ∧ c ≠ '.' ∧ c ≠ 'e' ∧ c ≠ 'E') : Stops (gap ++ c :: rest) := by
  cases gap with
  | nil => exact stops_cons rest h
  | cons blank gap =>
    have hblank : isBlank blank := hgap blank List.mem_cons_self
    simp only [isBlank, Bool.or_eq_true, decide_eq_true_eq] at hblank
    apply stops_cons
    rcases hblank with ((rfl | rfl) | rfl) | rfl <;> decide

theorem parse_of_reads {α : Type} {read : Reader α} {text : List Char} {value : α}
    (h : Reads read text value) : parse read text = .ok value := by
  have hread := h [] [] gap_nil (by simp [Stops])
  rw [List.nil_append, List.append_nil] at hread
  simp [parse, hread, skipBlank]

theorem reads_text (s : String) : Reads readText (chars (textPieces s)) s := by
  intro gap rest hgap _
  have htext : gap ++ chars (textPieces s) ++ rest =
      gap ++ '"' :: (s.toList.flatMap written ++ '"' :: rest) := by
    simp [chars_textPieces]
  rw [htext, readText, skipBlank_gap hgap rfl]
  simp [readQuoted_flatMap, Except.map]

/-- What is not `null` is read as a value that is there. -/
theorem Reads.optional {α : Type} {read : Reader α} {text : List Char} {value : α}
    (h : Reads read text value) {c : Char} {more : List Char} (htext : text = c :: more)
    (hblank : isBlank c = false) (hnull : c ≠ 'n') : Reads (readOptional read) text (some value) := by
  intro gap rest hgap hrest
  have hread := h [] rest gap_nil hrest
  subst htext
  rw [List.append_assoc, List.cons_append, readOptional, skipBlank_gap hgap hblank]
  split
  · rename_i heq
    exact absurd (List.cons.inj heq).1 hnull
  · simp only [List.nil_append, List.cons_append] at hread
    simp [readPresent, hread, Except.map]

section Count

theorem absorbDigits_eq {significand : ℕ} {digits : List Char}
    (h : Nat.ofDigitChars 10 digits significand ≤ maxCount) :
    absorbDigits significand digits = (Nat.ofDigitChars 10 digits significand, digits.length) := by
  induction digits generalizing significand with
  | nil => rfl
  | cons d digits ih =>
    have hvalue : 10 * significand + (d.toNat - '0'.toNat) = significand * 10 + digitValue d := by
      rw [digitValue, Nat.mul_comm]
    rw [Nat.ofDigitChars_cons, hvalue] at h ⊢
    have hle : significand * 10 + digitValue d ≤ maxCount := by
      rw [Nat.ofDigitChars_eq_ofDigitChars_zero] at h
      have hpow : 1 ≤ 10 ^ digits.length := Nat.one_le_pow _ _ (by decide)
      have hmul := Nat.le_mul_of_pos_left (significand * 10 + digitValue d) hpow
      omega
    simp [absorbDigits, hle, ih h]

/-- Only zero itself is written with a zero in front. -/
theorem toDigits_head {n : ℕ} {first : Char} {more : List Char}
    (h : Nat.toDigits 10 n = first :: more) (hfirst : first = '0') : more = [] := by
  subst hfirst
  induction n using Nat.strongRecOn generalizing more with
  | ind n ih =>
    by_cases hn : n < 10
    · rw [Nat.toDigits_of_lt_base hn] at h
      exact (List.cons.inj h).2.symm
    · rw [Nat.toDigits_of_base_le (by decide) (by omega)] at h
      obtain ⟨d, front, hfront⟩ := List.exists_cons_of_ne_nil (Nat.toDigits_ne_nil (n := n / 10) (b := 10))
      rw [hfront, List.cons_append] at h
      obtain ⟨rfl, -⟩ := List.cons.inj h
      have hzero : front = [] := ih (n / 10) (by omega) hfront
      subst hzero
      -- A quotient that is written as a lone zero is zero, which a number from ten on has not.
      have hvalue := Nat.ofDigitChars_ten_toDigits (n := n / 10)
      rw [hfront] at hvalue
      have : n / 10 = 0 := by rw [← hvalue]; rfl
      omega

theorem readNumber_toDigits {n : ℕ} (hn : n ≤ maxCount) {rest : List Char} (hrest : Stops rest) :
    readNumber false (Nat.toDigits 10 n ++ rest) = .ok (.natural n, rest) := by
  have hdigits : ∀ c ∈ Nat.toDigits 10 n, c.isDigit := fun c hc =>
    Nat.isDigit_of_mem_toDigits (by decide) (by decide) hc
  have hrestDigit : ∀ c ∈ rest.head?, c.isDigit = false := fun c hc => (hrest c hc).1
  have htake : (Nat.toDigits 10 n ++ rest).takeWhile Char.isDigit = Nat.toDigits 10 n := by
    rw [List.takeWhile_append_of_pos hdigits]
    cases rest with
    | nil => simp
    | cons c rest => simp [hrestDigit c rfl]
  have hdrop : (Nat.toDigits 10 n ++ rest).dropWhile Char.isDigit = rest := by
    rw [List.dropWhile_append_of_pos hdigits]
    cases rest with
    | nil => simp
    | cons c rest => simp [hrestDigit c rfl]
  have habsorb : absorbDigits 0 (Nat.toDigits 10 n) = (n, (Nat.toDigits 10 n).length) := by
    rw [absorbDigits_eq] <;> rw [Nat.ofDigitChars_ten_toDigits]
    exact hn
  obtain ⟨first, more, hcons⟩ := List.exists_cons_of_ne_nil (Nat.toDigits_ne_nil (n := n) (b := 10))
  have hlone : ¬(first = '0' ∧ (!more.isEmpty) = true) := by
    rintro ⟨hzero, hmore⟩
    rw [toDigits_head hcons hzero] at hmore
    cases hmore
  unfold readNumber
  rw [htake, hdrop]
  rw [hcons] at habsorb ⊢
  simp only [if_neg hlone, habsorb]
  split
  · rename_i rest' _
    exact absurd rfl (hrest '.' rfl).2.1
  · have hexponent : rest.head? ≠ some 'e' ∧ rest.head? ≠ some 'E' :=
      ⟨fun he => (hrest 'e' he).2.2.1 rfl, fun he => (hrest 'E' he).2.2.2 rfl⟩
    rw [if_pos ⟨trivial, hexponent⟩]
    rfl

theorem reads_count (n : UInt64) : Reads readCount (toString n).toList n := by
  intro gap rest hgap hrest
  have hn : n.toNat ≤ maxCount := Nat.le_sub_one_of_lt n.toNat_lt
  have htext : (toString n).toList = Nat.toDigits 10 n.toNat := Nat.toList_repr
  obtain ⟨first, more, hcons⟩ :=
    List.exists_cons_of_ne_nil (Nat.toDigits_ne_nil (n := n.toNat) (b := 10))
  have hfirst : first.isDigit := by
    have hmem : first ∈ Nat.toDigits 10 n.toNat := by rw [hcons]; exact List.mem_cons_self
    exact Nat.isDigit_of_mem_toDigits (by decide) (by decide) hmem
  have hblank : isBlank first = false := by
    rw [Bool.eq_false_iff]
    intro h
    simp only [isBlank, Bool.or_eq_true, decide_eq_true_eq] at h
    rcases h with ((rfl | rfl) | rfl) | rfl <;> cases hfirst
  have hsign : first ≠ '-' := by
    rintro rfl
    cases hfirst
  have hnumber := readNumber_toDigits hn hrest
  rw [htext, List.append_assoc, readCount]
  rw [hcons, List.cons_append] at hnumber ⊢
  rw [skipBlank_gap hgap hblank]
  simp [hsign, hfirst, hnumber, Except.bind]

end Count

/-- What is read into a field's place in a draft. -/
theorem Reads.field {δ β : Type} {read : Reader β} {text : List Char} {value : β}
    (h : Reads read text value) {name : String} {optional : Bool} {get : δ → Option β}
    {set : δ → β → δ} {draft : δ} :
    Reads ((Field.of name optional get set read).read draft) text (set draft value) := by
  intro gap rest hgap hrest
  simp only [Field.of, h gap rest hgap hrest, Except.map]

end CallGraph.Json
