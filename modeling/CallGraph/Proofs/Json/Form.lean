import CallGraph.Proofs.Json.Scalar

/-!
The grammar of JSON texts, in which blanks may stand between the parts. What is passed over as a value is
exactly what has a form, and where it ends does not depend on what it stands in.
-/
namespace CallGraph.Json

def Frame.opener : Frame → Char
  | list => '['
  | object => '\x7b'

/-- A place in a text: where a value stands, or within a bracket behind its opening or behind an item. -/
inductive Place
  | value
  | within (frame : Frame) (first : Bool)

inductive Separator : Bool → List Char → Prop
  | first : Separator true []
  | later {gap} (hgap : Gap gap) : Separator false (gap ++ [','])

/-- What stands in front of an item's value: nothing in a list, and a key in an object. -/
inductive Label : Frame → List Char → Prop
  | list : Label .list []
  | object {gap body gap'} (hgap : Gap gap) (hbody : Enclosed body) (hgap' : Gap gap') :
    Label .object (gap ++ '"' :: (body ++ '"' :: (gap' ++ [':'])))

/-- A value, or the rest of a bracket up to where it closes. -/
inductive Form : Place → List Char → Prop
  | scalar {text} (h : Scalar text) : Form .value text
  | bracket {frame inside} (h : Form (.within frame true) inside) : Form .value (frame.opener :: inside)
  | close {frame first gap} (hgap : Gap gap) : Form (.within frame first) (gap ++ [frame.closer])
  | item {frame first separator label gap value more} (hseparator : Separator first separator)
    (hlabel : Label frame label) (hgap : Gap gap) (hvalue : Form .value value)
    (hmore : Form (.within frame false) more) :
    Form (.within frame first) (separator ++ label ++ gap ++ value ++ more)

theorem Form.begins {text : List Char} (h : Form .value text) : Begins text := by
  cases h with
  | scalar h =>
    obtain ⟨c, more, rfl, hblank, hlist, hobject, -⟩ := h.head
    exact ⟨c, more, rfl, hblank, hlist, hobject⟩
  | @bracket frame inside =>
    exact ⟨frame.opener, inside, rfl, by cases frame <;> decide⟩

/-- The rest of a bracket behind an item carries on no number. -/
theorem Form.stops {frame : Frame} {text : List Char} (h : Form (.within frame false) text)
    (rest : List Char) : Stops (text ++ rest) := by
  cases h with
  | close hgap =>
    rw [List.append_assoc]
    exact stops_gap hgap rest (by cases frame <;> decide)
  | item hseparator =>
    cases hseparator with
    | later hgap =>
      simp only [List.append_assoc]
      exact stops_gap hgap _ (by decide)

section Skipping

variable {n : ℕ} {frames outer : List Frame} {stage : SkipStage} {frame : Frame} {s gap rest : List Char}

def SkipStage.behind (first : Bool) : SkipStage :=
  if first then .opened else .closed

theorem skipOpen_bracket (hgap : Gap gap) (rest : List Char) :
    skipOpen (n + 1) frames .value (gap ++ frame.opener :: rest) =
      skipOpen n (frame :: frames) .opened rest := by
  cases frame <;> simp [skipOpen, skipBlank_gap hgap, Frame.opener, isBlank]

theorem skipOpen_scalar {text : List Char} (hgap : Gap gap) (htext : Scalar text) (hrest : Stops rest) :
    skipOpen (n + 1) frames .value (gap ++ text ++ rest) = skipOpen n frames .closed rest := by
  have hskip := skipScalar_append htext hrest
  obtain ⟨c, more, rfl, hblank, -, -, hlist, hobject⟩ := htext.head
  rw [List.append_assoc, List.cons_append] at *
  simp [skipOpen, skipBlank_gap hgap hblank, hlist, hobject, hskip]

theorem skipOpen_close {first : Bool} (hgap : Gap gap) (rest : List Char) :
    skipOpen (n + 1) (frame :: outer) (.behind first) (gap ++ frame.closer :: rest) =
      skipOpen n outer .closed rest := by
  have hblank : isBlank frame.closer = false := by cases frame <;> rfl
  cases first <;> simp [skipOpen, SkipStage.behind, skipBlank_gap hgap hblank]

theorem skipKey_append {body gap' : List Char} (hbody : Enclosed body) (hgap' : Gap gap')
    (rest : List Char) : skipKey ('"' :: (body ++ '"' :: (gap' ++ ':' :: rest))) = .ok rest := by
  simp [skipKey, skipQuoted_append hbody, skipBlank_gap hgap', isBlank]

/-- An item is passed over from its value on, once what stands in front of it has been. -/
theorem skipOpen_item (n : ℕ) (outer : List Frame) {first : Bool}
    {separator label gap value : List Char} (hseparator : Separator first separator)
    (hlabel : Label frame label) (hgap : Gap gap) (hvalue : Begins value) (rest : List Char) :
    ∃ gap', Gap gap' ∧
      skipOpen (n + 1) (frame :: outer) (.behind first) (separator ++ label ++ gap ++ value ++ rest) =
        skipOpen n (frame :: outer) .value (gap' ++ value ++ rest) := by
  obtain ⟨c, more, rfl, hblank, hlist, -⟩ := hvalue
  cases hlabel with
  | list =>
    cases hseparator with
    | first =>
      refine ⟨[], gap_nil, ?_⟩
      simp [skipOpen, SkipStage.behind, skipBlank_gap hgap hblank, Frame.closer, hlist]
    | later hbefore =>
      refine ⟨gap, hgap, ?_⟩
      simp [skipOpen, SkipStage.behind, skipBlank_gap hbefore, Frame.closer, isBlank]
  | object hbefore' hbody hgap' =>
    refine ⟨gap, hgap, ?_⟩
    have hkey := skipKey_append hbody hgap' (gap ++ c :: (more ++ rest))
    cases hseparator with
    | first =>
      have hquote : isBlank '"' = false := rfl
      simp [skipOpen, SkipStage.behind, skipBlank_gap hbefore', skipBlank_cons, Frame.closer, hquote, hkey]
    | later hbefore =>
      simp [skipOpen, SkipStage.behind, skipBlank_gap hbefore, skipBlank_gap hbefore', Frame.closer, isBlank,
        hkey]

/-- What is done within a bracket: it is closed, or an item is passed over up to its value. -/
theorem skipOpen_behind (first : Bool) (s : List Char) :
    skipOpen (n + 1) (frame :: outer) (.behind first) s =
      match skipBlank s with
      | [] => failPast frame.atEnd []
      | c :: rest =>
        if c = frame.closer then skipOpen n outer .closed rest
        else if first = false ∧ c ≠ ',' then failPast frame.atOther (c :: rest)
        else if frame = .list then
          skipOpen n (frame :: outer) .value (if first then c :: rest else rest)
        else
          match skipKey (skipBlank (if first then c :: rest else rest)) with
          | .error f => .error f
          | .ok rest => skipOpen n (frame :: outer) .value rest := by
  cases first with
  | true =>
    change skipOpen (n + 1) (frame :: outer) .opened s = _
    rw [skipOpen]
    · cases skipBlank s with
      | nil => rfl
      | cons c rest => cases hkey : skipKey (skipBlank (c :: rest)) <;> simp [hkey]
    · simp
  | false =>
    change skipOpen (n + 1) (frame :: outer) .closed s = _
    rw [skipOpen]
    · cases skipBlank s with
      | nil => rfl
      | cons c rest => cases hkey : skipKey (skipBlank rest) <;> simp [hkey]
    · simp

def Settled (n : ℕ) (rest : List Char) : Prop :=
  ∀ frames stage s, skipOpen n frames stage s = .ok rest → skipOpen (n + 1) frames stage s = .ok rest

theorem Settled.behind (hsettled : Settled n rest) (first : Bool)
    (h : skipOpen (n + 1) (frame :: outer) (.behind first) s = .ok rest) :
    skipOpen (n + 2) (frame :: outer) (.behind first) s = .ok rest := by
  rw [skipOpen_behind] at h ⊢
  split at h
  · cases h
  · generalize (if first = true then _ else _ : List Char) = item at h ⊢
    split_ifs at h ⊢
    · exact hsettled _ _ _ h
    · cases h
    · exact hsettled _ _ _ h
    · split at h
      · cases h
      · exact hsettled _ _ _ h

theorem Settled.value (hsettled : Settled n rest) (h : skipOpen (n + 1) frames .value s = .ok rest) :
    skipOpen (n + 2) frames .value s = .ok rest := by
  rw [skipOpen] at h ⊢
  split at h
  · cases h
  · split_ifs at h ⊢
    · exact hsettled _ _ _ h
    · exact hsettled _ _ _ h
    · split at h
      · cases h
      · exact hsettled _ _ _ h

theorem settled (n : ℕ) (rest : List Char) : Settled n rest := by
  induction n with
  | zero =>
    intro frames stage s h
    simp [skipOpen, failPast] at h
  | succ n ih =>
    intro frames stage s h
    cases stage with
    | value => exact ih.value h
    | opened =>
      cases frames with
      | nil => exact h
      | cons frame outer => exact ih.behind true h
    | closed =>
      cases frames with
      | nil => exact h
      | cons frame outer => exact ih.behind false h

theorem skipOpen_mono {m : ℕ} (hle : n ≤ m) (h : skipOpen n frames stage s = .ok rest) :
    skipOpen m frames stage s = .ok rest := by
  induction hle with
  | refl => exact h
  | step _ ih => exact settled _ rest _ _ _ ih

/-- A text at some place is passed over, whatever brackets are open around it; each character of it allows
for two steps, and so does the opening of a bracket for one more. -/
def Place.Passes : Place → List Char → Prop
  | .value, text => ∀ {fuel frames gap rest r}, Gap gap → Stops rest →
    skipOpen fuel frames .closed rest = .ok r →
      skipOpen (2 * text.length + fuel) frames .value (gap ++ text ++ rest) = .ok r
  | .within frame first, text => ∀ {fuel outer rest r}, skipOpen fuel outer .closed rest = .ok r →
      skipOpen (2 * text.length + first.toNat + fuel) (frame :: outer) (.behind first) (text ++ rest) =
        .ok r

theorem Form.passes {place : Place} {text : List Char} (h : Form place text) : place.Passes text := by
  induction h with
  | @scalar text h =>
    intro fuel frames gap rest r hgap hrest hr
    have hpos : 0 < text.length := by
      obtain ⟨c, more, rfl, -⟩ := h.head
      exact Nat.succ_pos _
    obtain ⟨n, hn⟩ : ∃ n, 2 * text.length + fuel = n + 1 := ⟨2 * text.length + fuel - 1, by omega⟩
    rw [hn, skipOpen_scalar hgap h hrest]
    exact skipOpen_mono (by omega) hr
  | @bracket frame inside _ ih =>
    intro fuel frames gap rest r hgap _ hr
    have hn : 2 * (frame.opener :: inside).length + fuel = 2 * inside.length + true.toNat + fuel + 1 := by
      simp only [List.length_cons, Bool.toNat_true]
      omega
    rw [hn, List.append_assoc, List.cons_append, skipOpen_bracket hgap]
    exact ih hr
  | @close frame first gap hgap =>
    intro fuel outer rest r hr
    obtain ⟨n, hn⟩ : ∃ n, 2 * (gap ++ [frame.closer]).length + first.toNat + fuel = n + 1 :=
      ⟨2 * gap.length + 1 + first.toNat + fuel, by
        simp only [List.length_append, List.length_singleton]
        omega⟩
    rw [hn, List.append_assoc, List.singleton_append, skipOpen_close hgap]
    refine skipOpen_mono ?_ hr
    simp only [List.length_append, List.length_singleton] at hn
    omega
  | @item frame first separator label gap value more hseparator hlabel hgap hvalue hmore ihvalue ihmore =>
    intro fuel outer rest r hr
    -- A separator pays for the step that passes over it, and the opening of a bracket for the first item.
    have hpaid : 1 ≤ 2 * separator.length + first.toNat := by
      cases hseparator with
      | first => simp
      | later => simp; omega
    have hlength : (separator ++ label ++ gap ++ value ++ more).length =
        separator.length + label.length + gap.length + value.length + more.length := by
      simp [Nat.add_assoc]
    have htext : separator ++ label ++ gap ++ value ++ more ++ rest =
        separator ++ label ++ gap ++ value ++ (more ++ rest) := List.append_assoc ..
    obtain ⟨n, hn⟩ : ∃ n, 2 * (separator ++ label ++ gap ++ value ++ more).length + first.toNat + fuel =
        n + 1 := ⟨_, (Nat.sub_add_cancel (by omega)).symm⟩
    obtain ⟨gap', hgap', hitem⟩ :=
      skipOpen_item n outer hseparator hlabel hgap hvalue.begins (more ++ rest)
    rw [hn, htext, hitem]
    refine skipOpen_mono ?_ (ihvalue hgap' (hmore.stops rest) (ihmore hr))
    rw [Bool.toNat_false]
    omega

/-- A value that has a form is passed over wherever it stands. -/
theorem skipValue_of_form {text gap rest : List Char} (h : Form .value text) (hgap : Gap gap)
    (hrest : Stops rest) : skipValue (gap ++ text ++ rest) = .ok rest := by
  have hdone : skipOpen 1 [] .closed rest = .ok rest := rfl
  refine skipOpen_mono ?_ (h.passes hgap hrest hdone)
  simp only [List.length_append]
  omega

/-- What a stack of open brackets still demands of a text. -/
def Closes : List Frame → List Char → Prop
  | [], text => text = []
  | frame :: outer, text =>
    ∃ inside more, Form (.within frame false) inside ∧ Closes outer more ∧ text = inside ++ more

theorem exists_of_skipBlank {s : List Char} {c : Char} {rest : List Char} (h : skipBlank s = c :: rest) :
    ∃ gap, Gap gap ∧ isBlank c = false ∧ s = gap ++ c :: rest := by
  refine ⟨s.takeWhile isBlank, fun d hd => List.mem_takeWhile_imp hd, ?_, ?_⟩
  · have hhead := List.head?_dropWhile_not isBlank s
    rw [show s.dropWhile isBlank = c :: rest from h] at hhead
    exact hhead
  · rw [← h]
    exact List.takeWhile_append_dropWhile.symm

theorem exists_label_of_skipKey {s rest : List Char} (h : skipKey s = .ok rest) :
    ∃ body gap, Enclosed body ∧ Gap gap ∧ s = '"' :: (body ++ '"' :: (gap ++ ':' :: rest)) := by
  unfold skipKey at h
  split at h
  · cases h
  · split_ifs at h with hquote
    · cases h
    obtain rfl := not_not.mp hquote
    split at h
    · cases h
    · rename_i after hskip
      obtain ⟨body, hbody, rfl⟩ := exists_enclosed_of_skipQuoted hskip
      split at h
      · cases h
      · rename_i hblank
        split_ifs at h with hcolon
        · obtain ⟨gap, hgap, -, rfl⟩ := exists_of_skipBlank hblank
          exact ⟨body, gap, hbody, hgap, by rw [hcolon, Except.ok.inj h]⟩
        · cases h

theorem gap_append {gap gap' : List Char} (hgap : Gap gap) (hgap' : Gap gap') : Gap (gap ++ gap') := by
  simpa [Gap, or_imp, forall_and] using ⟨hgap, hgap'⟩

/-- An item within a bracket starts behind a separator. -/
theorem exists_separator {first : Bool} {c : Char} (hgap : Gap gap) (hcomma : ¬(first = false ∧ c ≠ ','))
    (after : List Char) : ∃ separator gap', Separator first separator ∧ Gap gap' ∧
      gap ++ c :: after = separator ++ (gap' ++ if first then c :: after else after) := by
  cases first with
  | true => exact ⟨[], gap, .first, hgap, rfl⟩
  | false =>
    obtain rfl : c = ',' := by simpa using hcomma
    exact ⟨_, [], .later hgap, gap_nil, by simp⟩

/-- What is passed over in some steps up to a rest has the form of a value, and closes the open brackets. -/
def Values (n : ℕ) (rest : List Char) : Prop :=
  ∀ frames s, skipOpen n frames .value s = .ok rest → ∃ gap value more, Gap gap ∧ Form .value value ∧
    Closes frames more ∧ s = gap ++ value ++ (more ++ rest)

def Insides (n : ℕ) (rest : List Char) : Prop :=
  ∀ first frame outer s, skipOpen n (frame :: outer) (.behind first) s = .ok rest →
    ∃ inside more, Form (.within frame first) inside ∧ Closes outer more ∧ s = inside ++ (more ++ rest)

theorem Insides.exists_closes {frames : List Frame} {s : List Char} (hinsides : Insides n rest)
    (h : skipOpen n frames .closed s = .ok rest) : ∃ more, Closes frames more ∧ s = more ++ rest := by
  cases frames with
  | nil =>
    cases n with
    | zero => simp [skipOpen, failPast] at h
    | succ n => exact ⟨[], rfl, Except.ok.inj h⟩
  | cons frame outer =>
    obtain ⟨inside, more, hinside, hmore, rfl⟩ := hinsides false _ _ _ h
    exact ⟨_, ⟨inside, more, hinside, hmore, rfl⟩, by simp⟩

theorem Insides.values (hinsides : Insides n rest) : Values (n + 1) rest := by
  intro frames s h
  rw [skipOpen] at h
  split at h
  · cases h
  · rename_i hblank
    obtain ⟨gap, hgap, -, rfl⟩ := exists_of_skipBlank hblank
    split_ifs at h with hlist hobject
    · obtain ⟨inside, more, hinside, hmore, rfl⟩ := hinsides true _ _ _ h
      exact ⟨gap, _, more, hgap, .bracket hinside, hmore, by simp [hlist, Frame.opener]⟩
    · obtain ⟨inside, more, hinside, hmore, rfl⟩ := hinsides true _ _ _ h
      exact ⟨gap, _, more, hgap, .bracket hinside, hmore, by simp [hobject, Frame.opener]⟩
    · split at h
      · cases h
      · rename_i after hskip
        obtain ⟨text, htext, hs⟩ := exists_scalar_of_skipScalar hskip
        obtain ⟨more, hmore, rfl⟩ := hinsides.exists_closes h
        exact ⟨gap, text, more, hgap, .scalar htext, hmore, by rw [hs]; simp⟩

theorem insides_succ (hvalues : Values n rest) (hinsides : Insides n rest) : Insides (n + 1) rest := by
  intro first frame outer s h
  rw [skipOpen_behind] at h
  split at h
  · cases h
  · rename_i c after hblank
    obtain ⟨gap, hgap, -, rfl⟩ := exists_of_skipBlank hblank
    generalize hstart : (if first = true then c :: after else after) = item at h
    split_ifs at h with hclose hcomma hlist
    · obtain ⟨more, hmore, rfl⟩ := hinsides.exists_closes h
      exact ⟨_, more, .close hgap, hmore, by simp [hclose]⟩
    · cases h
    · obtain ⟨separator, gap', hseparator, hgap', hitem⟩ := exists_separator hgap hcomma after
      obtain ⟨gap'', value, _, hgap'', hvalue, ⟨inside, more, hinside, hmore, rfl⟩, rfl⟩ := hvalues _ _ h
      subst hlist
      refine ⟨_, more, .item hseparator .list (gap_append hgap' hgap'') hvalue hinside, hmore, ?_⟩
      rw [hitem, hstart]
      simp
    · obtain ⟨separator, gap', hseparator, hgap', hitem⟩ := exists_separator hgap hcomma after
      obtain rfl : frame = .object := by
        cases frame with
        | list => exact absurd rfl hlist
        | object => rfl
      split at h
      · cases h
      · rename_i hkey
        obtain ⟨body, gap₁, hbody, hgap₁, hquote⟩ := exists_label_of_skipKey hkey
        obtain ⟨gap₀, hgap₀, -, rfl⟩ := exists_of_skipBlank hquote
        obtain ⟨gap₂, value, _, hgap₂, hvalue, ⟨inside, more, hinside, hmore, rfl⟩, rfl⟩ := hvalues _ _ h
        refine ⟨_, more, .item hseparator (.object (gap_append hgap' hgap₀) hbody hgap₁) hgap₂ hvalue
          hinside, hmore, ?_⟩
        rw [hitem, hstart]
        simp

theorem values_and_insides (n : ℕ) (rest : List Char) : Values n rest ∧ Insides n rest := by
  induction n with
  | zero => simp [Values, Insides, skipOpen, failPast]
  | succ n ih =>
    obtain ⟨hvalues, hinsides⟩ := ih
    exact ⟨hinsides.values, insides_succ hvalues hinsides⟩

/-- What is passed over as a value is one. -/
theorem exists_form_of_skipValue (h : skipValue s = .ok rest) :
    ∃ gap value, Gap gap ∧ Form .value value ∧ s = gap ++ value ++ rest := by
  obtain ⟨gap, value, more, hgap, hvalue, rfl, hs⟩ := (values_and_insides _ rest).1 _ _ h
  exact ⟨gap, value, hgap, hvalue, hs⟩

end Skipping
end CallGraph.Json
