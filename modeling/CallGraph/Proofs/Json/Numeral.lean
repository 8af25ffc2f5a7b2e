import CallGraph.Proofs.Json.Reading
import Mathlib.Data.List.TakeWhile

/-! The forms of a number that is passed over, and the place where it ends. -/
namespace CallGraph.Json

structure Digits (digits : List Char) : Prop where
  ne_nil : digits ≠ []
  all : ∀ c ∈ digits, c.isDigit

inductive Scale : List Char → Prop
  | none : Scale []
  | exponent {letter sign digits} (hletter : letter = 'e' ∨ letter = 'E')
    (hsign : sign = [] ∨ sign = ['+'] ∨ sign = ['-']) (hdigits : Digits digits) :
    Scale (letter :: (sign ++ digits))

/-- A number without its sign. Only a lone zero may come first. -/
inductive Magnitude : List Char → Prop
  | whole {digits scale} (hdigits : Digits digits) (hzero : digits.head? = some '0' → digits = ['0'])
    (hscale : Scale scale) : Magnitude (digits ++ scale)
  | fraction {digits decimals scale} (hdigits : Digits digits)
    (hzero : digits.head? = some '0' → digits = ['0']) (hdecimals : Digits decimals)
    (hscale : Scale scale) : Magnitude (digits ++ '.' :: (decimals ++ scale))

def Undigited (s : List Char) : Prop :=
  ∀ c ∈ s.head?, c.isDigit = false

theorem Stops.undigited {s : List Char} (h : Stops s) : Undigited s :=
  fun c hc => (h c hc).1

theorem dropWhile_digits {digits s : List Char} (hdigits : ∀ c ∈ digits, c.isDigit) (hs : Undigited s) :
    (digits ++ s).dropWhile Char.isDigit = s := by
  rw [List.dropWhile_append_of_pos hdigits]
  cases s with
  | nil => rfl
  | cons c s => simp [hs c rfl]

theorem takeWhile_digits {digits s : List Char} (hdigits : ∀ c ∈ digits, c.isDigit) (hs : Undigited s) :
    (digits ++ s).takeWhile Char.isDigit = digits := by
  rw [List.takeWhile_append_of_pos hdigits]
  cases s with
  | nil => simp
  | cons c s => simp [hs c rfl]

/-- The digits at the start of a text and what follows them. -/
theorem exists_digits (s : List Char) :
    ∃ digits rest, (∀ c ∈ digits, c.isDigit) ∧ Undigited rest ∧ s = digits ++ rest := by
  refine ⟨s.takeWhile Char.isDigit, s.dropWhile Char.isDigit, fun c hc => List.mem_takeWhile_imp hc, ?_,
    List.takeWhile_append_dropWhile.symm⟩
  intro c hc
  have hhead := List.head?_dropWhile_not Char.isDigit s
  rwa [Option.mem_def.mp hc] at hhead

/-- Digits that a text begins with are dropped together with those behind them. -/
theorem exists_digits_of_dropWhile {c : Char} {s rest : List Char} (hc : c.isDigit)
    (h : s.dropWhile Char.isDigit = rest) : ∃ digits, Digits (c :: digits) ∧ s = digits ++ rest := by
  obtain ⟨digits, after, hdigits, hafter, rfl⟩ := exists_digits s
  rw [dropWhile_digits hdigits hafter] at h
  subst h
  exact ⟨digits, ⟨List.cons_ne_nil c digits, by simpa using ⟨hc, hdigits⟩⟩, rfl⟩

theorem exists_of_skipExponent {s rest : List Char} (h : skipExponent s = .ok rest) :
    ∃ sign digits, (sign = [] ∨ sign = ['+'] ∨ sign = ['-']) ∧ Digits digits ∧
      s = sign ++ digits ++ rest := by
  unfold skipExponent at h
  extract_lets unsigned at h
  obtain ⟨sign, hsign, hs⟩ : ∃ sign, (sign = [] ∨ sign = ['+'] ∨ sign = ['-']) ∧ s = sign ++ unsigned := by
    unfold unsigned
    split
    · exact ⟨['+'], by simp, rfl⟩
    · exact ⟨['-'], by simp, rfl⟩
    · exact ⟨[], by simp, rfl⟩
  clear_value unsigned
  split at h
  · cases h
  · split_ifs at h with hc
    · obtain ⟨digits, hdigits, rfl⟩ := exists_digits_of_dropWhile hc (Except.ok.inj h)
      exact ⟨sign, _ :: digits, hsign, hdigits, by simp [hs]⟩
    · cases h

theorem skipExponent_append {sign digits rest : List Char}
    (hsign : sign = [] ∨ sign = ['+'] ∨ sign = ['-']) (hdigits : Digits digits) (hrest : Stops rest) :
    skipExponent (sign ++ digits ++ rest) = .ok rest := by
  obtain ⟨c, more, rfl⟩ := List.exists_cons_of_ne_nil hdigits.ne_nil
  have hc : c.isDigit := hdigits.all c List.mem_cons_self
  have hmore : (more ++ rest).dropWhile Char.isDigit = rest :=
    dropWhile_digits (fun d hd => hdigits.all d (List.mem_cons_of_mem _ hd)) hrest.undigited
  rcases hsign with rfl | rfl | rfl
  · have hplus : c ≠ '+' := by rintro rfl; cases hc
    have hminus : c ≠ '-' := by rintro rfl; cases hc
    simp [skipExponent, hplus, hminus, hc, hmore]
  · simp [skipExponent, hc, hmore]
  · simp [skipExponent, hc, hmore]

theorem exists_scale_of_skipScaled {s rest : List Char} (h : skipScaled s = .ok rest) :
    ∃ scale, Scale scale ∧ s = scale ++ rest := by
  unfold skipScaled at h
  split at h
  · split_ifs at h with hletter
    · obtain ⟨sign, digits, hsign, hdigits, rfl⟩ := exists_of_skipExponent h
      exact ⟨_, .exponent hletter hsign hdigits, by simp⟩
    · exact ⟨[], .none, Except.ok.inj h⟩
  · exact ⟨[], .none, Except.ok.inj h⟩

theorem skipScaled_append {scale rest : List Char} (h : Scale scale) (hrest : Stops rest) :
    skipScaled (scale ++ rest) = .ok rest := by
  cases h with
  | none =>
    cases rest with
    | nil => rfl
    | cons c rest =>
      have hc := hrest c rfl
      simp [skipScaled, hc]
  | exponent hletter hsign hdigits =>
    rw [List.cons_append, skipScaled, if_pos hletter]
    exact skipExponent_append hsign hdigits hrest

theorem exists_magnitude_of_skipNumber {s rest : List Char} (h : skipNumber s = .ok rest) :
    ∃ text, Magnitude text ∧ s = text ++ rest := by
  unfold skipNumber at h
  split at h
  · cases h
  · rename_i c more
    split_ifs at h with hc hlone
    · cases h
    · cases h
    have hc : c.isDigit := by simpa using hc
    obtain ⟨digits, hdigits, hmore⟩ := exists_digits_of_dropWhile hc (s := more) rfl
    have hzero : (c :: digits).head? = some '0' → c :: digits = ['0'] := by
      intro hhead
      obtain rfl : c = '0' := by simpa using hhead
      cases digits with
      | nil => rfl
      | cons d digits =>
        rw [hmore] at hlone
        exact absurd ⟨rfl, by simpa using hdigits.all d (by simp)⟩ hlone
    split at h
    · rename_i fraction hafter
      extract_lets after at h
      split_ifs at h with hempty
      · cases h
      obtain ⟨scale, hscale, hrest⟩ := exists_scale_of_skipScaled h
      obtain ⟨decimals, others, hdecimals, hothers, rfl⟩ := exists_digits fraction
      have hafter' : after = others := dropWhile_digits hdecimals hothers
      rw [takeWhile_digits hdecimals hothers] at hempty
      refine ⟨_, .fraction hdigits hzero ⟨by simpa using hempty, hdecimals⟩ hscale, ?_⟩
      rw [hmore, hafter, ← hafter', hrest]
      simp
    · obtain ⟨scale, hscale, hrest⟩ := exists_scale_of_skipScaled h
      exact ⟨_, .whole hdigits hzero hscale, by rw [hmore, hrest]; simp⟩

/-- Neither a digit nor a point begins the end of a number. -/
theorem Scale.head {scale rest : List Char} (h : Scale scale) (hrest : Stops rest) :
    ∀ c ∈ (scale ++ rest).head?, c.isDigit = false ∧ c ≠ '.' := by
  intro c hc
  cases h with
  | none =>
    obtain ⟨hdigit, hpoint, -⟩ := hrest c hc
    exact ⟨hdigit, hpoint⟩
  | exponent hletter =>
    obtain rfl := Option.some.inj hc
    rcases hletter with rfl | rfl <;> decide

theorem skipNumber_digits {digits : List Char} (hdigits : Digits digits)
    (hzero : digits.head? = some '0' → digits = ['0']) (tail : List Char) :
    Undigited tail → skipNumber (digits ++ tail) =
      match tail with
      | '.' :: fraction =>
        if (fraction.takeWhile Char.isDigit).isEmpty then
          failPast .invalidNumber (fraction.dropWhile Char.isDigit)
        else skipScaled (fraction.dropWhile Char.isDigit)
      | after => skipScaled after := by
  intro htail
  obtain ⟨c, more, rfl⟩ := List.exists_cons_of_ne_nil hdigits.ne_nil
  have hc : c.isDigit := hdigits.all c List.mem_cons_self
  have hmore : (more ++ tail).dropWhile Char.isDigit = tail :=
    dropWhile_digits (fun d hd => hdigits.all d (List.mem_cons_of_mem _ hd)) htail
  have hlone : ¬(c = '0' ∧ (more ++ tail).head?.any Char.isDigit) := by
    rintro ⟨rfl, hnext⟩
    obtain rfl : more = [] := by simpa using hzero rfl
    cases tail with
    | nil => cases hnext
    | cons d tail => simp [htail d rfl] at hnext
  rw [List.cons_append, skipNumber, if_neg (by simp [hc]), if_neg hlone]
  generalize (more ++ tail).dropWhile Char.isDigit = after at hmore
  subst hmore
  rfl

theorem skipNumber_append {text rest : List Char} (h : Magnitude text) (hrest : Stops rest) :
    skipNumber (text ++ rest) = .ok rest := by
  cases h with
  | @whole digits scale hdigits hzero hscale =>
    have hhead := hscale.head hrest
    rw [List.append_assoc, skipNumber_digits hdigits hzero _ fun c hc => (hhead c hc).1]
    split
    · rename_i heq
      exact absurd rfl (hhead '.' (by rw [heq]; rfl)).2
    · exact skipScaled_append hscale hrest
  | @fraction digits decimals scale hdigits hzero hdecimals hscale =>
    have hundigited : Undigited (scale ++ rest) := fun c hc => (hscale.head hrest c hc).1
    have hne : decimals.isEmpty = false := by simpa using hdecimals.ne_nil
    rw [List.append_assoc, List.cons_append, List.append_assoc, skipNumber_digits hdigits hzero]
    · simp only [takeWhile_digits hdecimals.all hundigited, dropWhile_digits hdecimals.all hundigited, hne]
      exact skipScaled_append hscale hrest
    · rintro c ⟨⟩
      rfl

end CallGraph.Json
