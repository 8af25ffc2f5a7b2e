import CallGraph.Proofs.Json.Quoted
import Mathlib.Tactic.Common

/-!
The ways in which a text can be spelled within quotes: characters as they stand, one-letter escapes, code
points in base sixteen, and pairs of surrogates. A reader takes exactly these.
-/
namespace CallGraph.Json

inductive HexDigits : List Char → ℕ → Prop
  | four {a b c d n} (hvalue : hexValue? [a, b, c, d] = some n) : HexDigits [a, b, c, d] n

/-- An escape behind its backslash and the character it stands for. -/
inductive Escapes : List Char → Char → Prop
  | letter {e c} (hplain : plainEscape? e = some c) : Escapes [e] c
  | code {digits n} (hdigits : HexDigits digits n) (hlow : isLowSurrogate n = false)
    (hhigh : isHighSurrogate n = false) : Escapes ('u' :: digits) (Char.ofNat n)
  | pair {digits digits' high low} (hdigits : HexDigits digits high) (hhigh : isHighSurrogate high)
    (hdigits' : HexDigits digits' low) (hlow : isLowSurrogate low) :
    Escapes ('u' :: (digits ++ '\\' :: 'u' :: digits'))
      (Char.ofNat ((high - 0xD800) * 0x400 + (low - 0xDC00) + 0x10000))

inductive Spells : List Char → List Char → Prop
  | nil : Spells [] []
  | plain {c body text} (hquote : c ≠ '"') (hslash : c ≠ '\\') (hcontrol : ¬c.toNat < 32)
    (hrest : Spells body text) : Spells (c :: body) (c :: text)
  | escape {w c body text} (hescape : Escapes w c) (hrest : Spells body text) :
    Spells ('\\' :: (w ++ body)) (c :: text)

theorem readHex_of_digits {digits : List Char} {n : ℕ} (h : HexDigits digits n) (rest : List Char) :
    readHex (digits ++ rest) = .ok (n, rest) := by
  obtain ⟨hvalue⟩ := h
  simp [readHex, hvalue]

theorem exists_digits_of_readHex {s rest : List Char} {n : ℕ} (h : readHex s = .ok (n, rest)) :
    ∃ digits, HexDigits digits n ∧ s = digits ++ rest := by
  unfold readHex at h
  split at h
  · split at h
    · rename_i hvalue
      obtain ⟨rfl, rfl⟩ := Prod.mk.inj (Except.ok.inj h)
      exact ⟨_, .four hvalue, rfl⟩
    · cases h
  · split at h <;> cases h

theorem exists_digits_of_readLowHalf {s rest : List Char} {high : ℕ} {c : Char}
    (h : readLowHalf high s = .ok (c, rest)) :
    ∃ digits low, HexDigits digits low ∧ isLowSurrogate low ∧ s = '\\' :: 'u' :: (digits ++ rest) ∧
      c = Char.ofNat ((high - 0xD800) * 0x400 + (low - 0xDC00) + 0x10000) := by
  unfold readLowHalf at h
  split at h
  · cases h
  · split at h <;> cases h
  · rename_i slash u s
    split_ifs at h with hslash hu
    · cases h
    · cases h
    obtain rfl := not_not.mp hslash
    obtain rfl := not_not.mp hu
    split at h
    · cases h
    · rename_i low rest' hhex
      split_ifs at h with hlow
      · obtain ⟨rfl, rfl⟩ := Prod.mk.inj (Except.ok.inj h)
        obtain ⟨digits, hdigits, rfl⟩ := exists_digits_of_readHex hhex
        exact ⟨digits, low, hdigits, hlow, rfl, rfl⟩
      · cases h

theorem isLowSurrogate_of_isHighSurrogate {n : ℕ} (h : isHighSurrogate n) : isLowSurrogate n = false := by
  simp only [isHighSurrogate, isLowSurrogate, Bool.and_eq_true, Bool.and_eq_false_iff,
    decide_eq_true_eq, decide_eq_false_iff_not] at h ⊢
  omega

/-- An escape is read as the character it stands for, whatever follows. -/
theorem readEscape_of_escapes {w : List Char} {c : Char} (h : Escapes w c) (rest : List Char) :
    readEscape (w ++ rest) = .ok (c, rest) := by
  cases h with
  | letter hplain => simp [readEscape, hplain]
  | code hdigits hlow hhigh =>
    simp [readEscape, plainEscape?, readCodePoint, readHex_of_digits hdigits, hlow, hhigh, bind,
      Except.bind]
  | pair hdigits hhigh hdigits' hlow' =>
    have hlow : isLowSurrogate _ = false := isLowSurrogate_of_isHighSurrogate hhigh
    simp [readEscape, plainEscape?, readCodePoint, readHex_of_digits hdigits, hlow, hhigh, bind,
      Except.bind, readLowHalf, readHex_of_digits hdigits', hlow']

theorem exists_escapes_of_readEscape {s rest : List Char} {c : Char}
    (h : readEscape s = .ok (c, rest)) : ∃ w, Escapes w c ∧ s = w ++ rest := by
  unfold readEscape at h
  split at h
  · cases h
  · rename_i e s
    split at h
    · rename_i hplain
      obtain ⟨rfl, rfl⟩ := Prod.mk.inj (Except.ok.inj h)
      exact ⟨[e], .letter hplain, rfl⟩
    · split_ifs at h with hu
      swap
      · cases h
      subst hu
      unfold readCodePoint at h
      cases hhex : readHex s with
      | error f => rw [hhex] at h; cases h
      | ok r =>
        obtain ⟨n, after⟩ := r
        obtain ⟨digits, hdigits, rfl⟩ := exists_digits_of_readHex hhex
        simp only [hhex, bind, Except.bind] at h
        split_ifs at h with hlow hhigh
        · cases h
        · obtain ⟨digits', low, hdigits', hlow', rfl, hc⟩ := exists_digits_of_readLowHalf h
          rw [hc]
          exact ⟨_, .pair hdigits hhigh hdigits' hlow', by simp⟩
        · obtain ⟨rfl, rfl⟩ := Prod.mk.inj (Except.ok.inj h)
          exact ⟨_, .code hdigits (by simpa using hlow) (by simpa using hhigh), rfl⟩

/-- A spelled text is read up to the quote behind it. -/
theorem readQuoted_of_spells {body text : List Char} (h : Spells body text) (read rest : List Char) :
    readQuoted read (body ++ '"' :: rest) = .ok (read.reverse ++ text, rest) := by
  induction h generalizing read with
  | nil => simp [readQuoted]
  | plain hquote hslash hcontrol _ ih =>
    simp [readQuoted, hquote, hslash, hcontrol, ih]
  | @escape w c body text hescape _ ih =>
    rw [List.cons_append, List.append_assoc, readQuoted_escape (readEscape_of_escapes hescape _), ih]
    simp

theorem exists_spells_of_readQuoted {read s chars rest : List Char}
    (h : readQuoted read s = .ok (chars, rest)) :
    ∃ body text, Spells body text ∧ s = body ++ '"' :: rest ∧ chars = read.reverse ++ text := by
  fun_induction readQuoted read s with
  | case1 => cases h
  | case2 read rest' =>
    obtain ⟨rfl, rfl⟩ := Prod.mk.inj (Except.ok.inj h)
    exact ⟨[], [], .nil, rfl, by simp⟩
  | case3 => cases h
  | case4 read s e after hescape _ _ ih =>
    obtain ⟨w, hw, rfl⟩ := exists_escapes_of_readEscape hescape
    obtain ⟨body, text, hspells, rfl, rfl⟩ := ih h
    exact ⟨'\\' :: (w ++ body), e :: text, .escape hw hspells, by simp, by simp⟩
  | case5 => cases h
  | case6 read c s hquote hslash hcontrol ih =>
    obtain ⟨body, text, hspells, rfl, rfl⟩ := ih h
    exact ⟨c :: body, c :: text, .plain hquote hslash hcontrol hspells, rfl, by simp⟩

/-- The characters within quotes stand for a text just if they spell it. -/
theorem readQuoted_eq_ok_iff {s chars rest : List Char} :
    readQuoted [] s = .ok (chars, rest) ↔ ∃ body, Spells body chars ∧ s = body ++ '"' :: rest := by
  constructor
  · intro h
    obtain ⟨body, text, hspells, rfl, rfl⟩ := exists_spells_of_readQuoted h
    exact ⟨body, hspells, rfl⟩
  · rintro ⟨body, hspells, rfl⟩
    exact readQuoted_of_spells hspells [] rest

/-- A text is spelled as it is written. -/
theorem spells_written (text : List Char) : Spells (text.flatMap written) text := by
  obtain ⟨body, hspells, hbody⟩ := readQuoted_eq_ok_iff.mp (readQuoted_flatMap [] text [])
  rw [List.append_cancel_right_eq] at hbody
  rwa [hbody]

end CallGraph.Json
