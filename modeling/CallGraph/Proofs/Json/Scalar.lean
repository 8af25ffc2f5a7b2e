import CallGraph.Proofs.Json.Numeral
import CallGraph.Proofs.Json.Spelling

/-!
The forms of words, numbers and quoted texts that are passed over. Surrogates need no partner there.
-/
namespace CallGraph.Json

/-- What may stand within quotes that are passed over. -/
inductive Enclosed : List Char → Prop
  | nil : Enclosed []
  | plain {c body} (hquote : c ≠ '"') (hslash : c ≠ '\\') (hcontrol : ¬c.toNat < 32)
    (hrest : Enclosed body) : Enclosed (c :: body)
  | letter {e body} (hplain : (plainEscape? e).isSome) (hrest : Enclosed body) :
    Enclosed ('\\' :: e :: body)
  | code {digits n body} (hdigits : HexDigits digits n) (hrest : Enclosed body) :
    Enclosed ('\\' :: 'u' :: (digits ++ body))

theorem Enclosed.of_escapes {w body : List Char} {c : Char} (h : Escapes w c) (hbody : Enclosed body) :
    Enclosed ('\\' :: (w ++ body)) := by
  cases h with
  | letter hplain => exact .letter (by simp [hplain]) hbody
  | code hdigits => exact .code hdigits hbody
  | pair hdigits _ hdigits' =>
    -- Each half of a pair stands as an escape of its own.
    rw [List.cons_append, List.append_assoc]
    exact .code hdigits (.code hdigits' hbody)

theorem Spells.enclosed {body text : List Char} (h : Spells body text) : Enclosed body := by
  induction h with
  | nil => exact .nil
  | plain hquote hslash hcontrol _ ih => exact .plain hquote hslash hcontrol ih
  | escape hescape _ ih => exact .of_escapes hescape ih

theorem skipQuoted_escape {rest rest' : List Char} (h : skipEscape rest = .ok rest') :
    skipQuoted ('\\' :: rest) = skipQuoted rest' := by
  rw [skipQuoted]
  simp only [Char.reduceEq, if_false, if_true]
  split
  · rename_i f hf
    rw [h] at hf
    cases hf
  · rename_i later he
    rw [h] at he
    cases he
    rfl

theorem skipQuoted_append {body : List Char} (h : Enclosed body) (rest : List Char) :
    skipQuoted (body ++ '"' :: rest) = .ok rest := by
  induction h with
  | nil => simp [skipQuoted]
  | plain hquote hslash hcontrol _ ih => simp [skipQuoted, hquote, hslash, hcontrol, ih]
  | @letter e body hplain _ ih =>
    have hescape : skipEscape (e :: (body ++ '"' :: rest)) = .ok (body ++ '"' :: rest) := by
      simp [skipEscape, hplain]
    exact (skipQuoted_escape hescape).trans ih
  | code hdigits _ ih =>
    rw [List.cons_append, List.cons_append, List.append_assoc, skipQuoted_escape, ih]
    simp [skipEscape, plainEscape?, readHex_of_digits hdigits]

theorem exists_enclosed_of_skipQuoted {s rest : List Char} (h : skipQuoted s = .ok rest) :
    ∃ body, Enclosed body ∧ s = body ++ '"' :: rest := by
  fun_induction skipQuoted s with
  | case1 => cases h
  | case2 s => exact ⟨[], .nil, by rw [Except.ok.inj h]; rfl⟩
  | case3 => cases h
  | case4 s after hescape _ _ ih =>
    obtain ⟨body, hbody, rfl⟩ := ih h
    unfold skipEscape at hescape
    split at hescape
    · cases hescape
    · split_ifs at hescape with hplain hu
      · obtain rfl := Except.ok.inj hescape
        exact ⟨_, .letter hplain hbody, rfl⟩
      · split at hescape
        · cases hescape
        · rename_i n after' hhex
          obtain rfl := Except.ok.inj hescape
          obtain ⟨digits, hdigits, rfl⟩ := exists_digits_of_readHex hhex
          exact ⟨_, .code hdigits hbody, by simp [hu]⟩
      · cases hescape
  | case5 => cases h
  | case6 c s hquote hslash hcontrol ih =>
    obtain ⟨body, hbody, rfl⟩ := ih h
    exact ⟨c :: body, .plain hquote hslash hcontrol hbody, rfl⟩

inductive Scalar : List Char → Prop
  | word {word : String} (h : word = "null" ∨ word = "true" ∨ word = "false") : Scalar word.toList
  | negative {text} (h : Magnitude text) : Scalar ('-' :: text)
  | natural {text} (h : Magnitude text) : Scalar text
  | quoted {body} (h : Enclosed body) : Scalar ('"' :: (body ++ ['"']))

theorem exists_of_readWord {word s rest : List Char} (h : (readWord word s).map (·.2) = .ok rest) :
    s = word ++ rest := by
  induction word generalizing s with
  | nil => exact Except.ok.inj h
  | cons e word ih =>
    cases s with
    | nil => cases h
    | cons c s =>
      unfold readWord at h
      split_ifs at h with hc
      · rw [hc, ih h]
        rfl
      · cases h

theorem readWord_append (word rest : List Char) : readWord word (word ++ rest) = .ok ((), rest) := by
  induction word with
  | nil => rfl
  | cons e word ih => simp [readWord, ih]

theorem exists_scalar_of_skipScalar {s rest : List Char} (h : skipScalar s = .ok rest) :
    ∃ text, Scalar text ∧ s = text ++ rest := by
  unfold skipScalar at h
  split at h
  · cases h
  · rename_i c more
    split_ifs at h with hn ht hf hminus hdigit hquote
    · rw [hn, exists_of_readWord h]
      exact ⟨_, .word (.inl rfl), rfl⟩
    · rw [ht, exists_of_readWord h]
      exact ⟨_, .word (.inr (.inl rfl)), rfl⟩
    · rw [hf, exists_of_readWord h]
      exact ⟨_, .word (.inr (.inr rfl)), rfl⟩
    · obtain ⟨text, htext, rfl⟩ := exists_magnitude_of_skipNumber h
      exact ⟨_, .negative htext, by rw [hminus]; rfl⟩
    · obtain ⟨text, htext, hs⟩ := exists_magnitude_of_skipNumber h
      exact ⟨_, .natural htext, hs⟩
    · obtain ⟨body, hbody, rfl⟩ := exists_enclosed_of_skipQuoted h
      exact ⟨_, .quoted hbody, by simp [hquote]⟩
    · cases h

theorem Magnitude.head {text : List Char} (h : Magnitude text) :
    ∃ c more, text = c :: more ∧ c.isDigit := by
  have hdigits {digits : List Char} (h : Digits digits) (tail : List Char) :
      ∃ c more, digits ++ tail = c :: more ∧ c.isDigit := by
    obtain ⟨c, more, rfl⟩ := List.exists_cons_of_ne_nil h.ne_nil
    exact ⟨c, more ++ tail, rfl, h.all c List.mem_cons_self⟩
  cases h with
  | whole h => exact hdigits h _
  | fraction h => exact hdigits h _

theorem skipScalar_append {text rest : List Char} (h : Scalar text) (hrest : Stops rest) :
    skipScalar (text ++ rest) = .ok rest := by
  cases h with
  | word h => rcases h with rfl | rfl | rfl <;> simp [skipScalar, readWord, Except.map]
  | negative h => simpa [skipScalar] using skipNumber_append h hrest
  | natural h =>
    have hskip := skipNumber_append h hrest
    obtain ⟨c, more, rfl, hc⟩ := h.head
    have hne (d : Char) (hd : d.isDigit = false) : c ≠ d := by
      rintro rfl
      rw [hc] at hd
      cases hd
    simpa [skipScalar, hne 'n' rfl, hne 't' rfl, hne 'f' rfl, hne '-' rfl, hc] using hskip
  | quoted h => simpa [skipScalar] using skipQuoted_append h rest

/-- The first character of a value: no blank, and no bracket that closes. -/
def Begins (text : List Char) : Prop :=
  ∃ c more, text = c :: more ∧ isBlank c = false ∧ c ≠ ']' ∧ c ≠ '\x7d'

theorem isBlank_of_isDigit {c : Char} (h : c.isDigit) : isBlank c = false := by
  rw [Bool.eq_false_iff]
  intro hblank
  simp only [isBlank, Bool.or_eq_true, decide_eq_true_eq] at hblank
  rcases hblank with ((rfl | rfl) | rfl) | rfl <;> cases h

theorem Scalar.head {text : List Char} (h : Scalar text) :
    ∃ c more, text = c :: more ∧ isBlank c = false ∧ c ≠ ']' ∧ c ≠ '\x7d' ∧ c ≠ '[' ∧ c ≠ '\x7b' := by
  cases h with
  | natural h =>
    obtain ⟨c, more, rfl, hc⟩ := h.head
    have hne (d : Char) (hd : d.isDigit = false) : c ≠ d := by
      rintro rfl
      rw [hc] at hd
      cases hd
    exact ⟨c, more, rfl, isBlank_of_isDigit hc, hne _ rfl, hne _ rfl, hne _ rfl, hne _ rfl⟩
  | word h => rcases h with rfl | rfl | rfl <;> exact ⟨_, _, rfl, by decide⟩
  | _ => exact ⟨_, _, rfl, by decide⟩

end CallGraph.Json
