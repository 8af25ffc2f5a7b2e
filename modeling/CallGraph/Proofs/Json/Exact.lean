import CallGraph.Proofs.Json.Outline

/-!
Readers that take from the start of a text exactly one value. Which texts are taken as quoted ones, and
which as values that may be absent, is said here in full.
-/
namespace CallGraph.Json

variable {α β : Type} {read : Reader α} {text gap rest : List Char}

/-- A text is a value, and is read as a certain one wherever it stands. -/
structure Accepts (read : Reader α) (text : List Char) (value : α) : Prop where
  form : Form .value text
  reads : Reads read text value

/-- What is taken from the start of a text is, behind blanks, accepted as a whole. -/
structure Exact (read : Reader α) : Prop where
  exists_text : ∀ {s value rest}, read s = .ok (value, rest) →
    ∃ gap text, Gap gap ∧ Accepts read text value ∧ s = gap ++ text ++ rest

theorem Gap.stops (hgap : Gap gap) : Stops gap := by
  cases gap with
  | nil => simp [Stops]
  | cons blank gap =>
    -- Only the first character counts.
    have hblank : Gap [blank] := fun c hc => hgap c (List.mem_cons.mpr (.inl (List.mem_singleton.mp hc)))
    exact fun c hc => stops_gap (c := ',') hblank [] (by decide) c hc

theorem Outline.unique_within {frame frame' : Frame} {parts parts' : List Part}
    {gap gap' body gap₁ gap₁' body₁ : List Char} (hbody : Outline frame parts body) (hgap : Gap gap)
    (hgap' : Gap gap') (hbody₁ : Outline frame' parts' body₁) (hgap₁ : Gap gap₁) (hgap₁' : Gap gap₁')
    (htext : gap ++ body ++ gap' = gap₁ ++ body₁ ++ gap₁') : frame = frame' ∧ parts = parts' := by
  obtain ⟨rfl, -⟩ := hbody.form.unique hbody₁.form hgap hgap₁ hgap'.stops hgap₁'.stops htext
  exact hbody.unique hbody₁

theorem Begins.gap_eq_nil (hgap : Gap gap) (h : Begins (gap ++ text)) : gap = [] := by
  cases gap with
  | nil => rfl
  | cons blank gap =>
    obtain ⟨c, more, heq, hc, -⟩ := h
    obtain ⟨rfl, -⟩ := List.cons.inj heq
    rw [hgap blank List.mem_cons_self] at hc
    cases hc

/-- What has a property behind blanks has it as a whole if it begins with none. -/
theorem Begins.whole {P : List Char → Prop} (h : Begins text)
    (hbody : ∃ gap body, Gap gap ∧ P body ∧ text = gap ++ body ++ []) : P text := by
  obtain ⟨gap, body, hgap, hbody, rfl⟩ := hbody
  rw [List.append_nil] at h ⊢
  obtain rfl := h.gap_eq_nil hgap
  exact hbody

/-- A whole text is parsed if it is accepted but for blanks around it. -/
theorem Exact.parse_iff (h : Exact read) {value : α} :
    parse read text = .ok value ↔ ∃ gap body gap', Gap gap ∧ Gap gap' ∧ Accepts read body value ∧
      text = gap ++ body ++ gap' := by
  constructor
  · intro hparse
    unfold parse at hparse
    split at hparse
    · cases hparse
    · rename_i hread
      split at hparse
      · rename_i hblank
        obtain rfl := Except.ok.inj hparse
        obtain ⟨gap, body, hgap, hbody, htext⟩ := h.exists_text hread
        exact ⟨gap, body, _, hgap, List.dropWhile_eq_nil_iff.mp hblank, hbody, htext⟩
      · cases hparse
  · rintro ⟨gap, body, gap', hgap, hgap', hbody, rfl⟩
    rw [parse, hbody.reads gap gap' hgap hgap'.stops]
    simp only [show skipBlank gap' = [] from List.dropWhile_eq_nil_iff.mpr hgap']

theorem Accepts.read_eq {value : α} (h : Accepts read text value) : read text = .ok (value, []) := by
  simpa using h.reads [] [] gap_nil (by simp [Stops])

theorem exists_of_map {x : Except Failure α} {f : α → β} {b : β} (h : x.map f = .ok b) :
    ∃ a, x = .ok a ∧ f a = b := by
  cases x with
  | error => cases h
  | ok a => exact ⟨a, rfl, Except.ok.inj h⟩

theorem exists_of_bind {x : Except Failure α} {f : α → Except Failure β} {b : β}
    (h : x.bind f = .ok b) : ∃ a, x = .ok a ∧ f a = .ok b := by
  cases x with
  | error => cases h
  | ok a => exact ⟨a, rfl, h⟩

theorem Reads.map {value : α} (h : Reads read text value) (f : α → β) :
    Reads (fun s => (read s).map fun r => (f r.1, r.2)) text (f value) := by
  intro gap rest hgap hrest
  simp only [h gap rest hgap hrest, Except.map]

theorem Exact.map (h : Exact read) (f : α → β) :
    Exact fun s => (read s).map fun r => (f r.1, r.2) := by
  refine ⟨fun hmapped => ?_⟩
  obtain ⟨⟨value, rest⟩, hread, ⟨⟩⟩ := exists_of_map hmapped
  obtain ⟨gap, text, hgap, haccepts, rfl⟩ := h.exists_text hread
  exact ⟨gap, text, hgap, ⟨haccepts.form, haccepts.reads.map f⟩, rfl⟩

theorem Exact.field {δ : Type} (h : Exact read) {name : String} {optional : Bool} {get : δ → Option α}
    {set : δ → α → δ} (draft : δ) : Exact ((Field.of name optional get set read).read draft) :=
  h.map (set draft)

inductive Spelled (s : String) : List Char → Prop
  | quoted {body} (hbody : Spells body s.toList) : Spelled s ('"' :: (body ++ ['"']))

theorem spelled_pieces (s : String) : Spelled s (chars (Value.text s).pieces) := by
  rw [Value.pieces, chars_textPieces]
  exact .quoted (spells_written s.toList)

theorem failShape_ne_ok (expected : String) (s : List Char) (r : α) : failShape expected s ≠ .ok r := by
  unfold failShape failAt
  split <;> simp

theorem Spelled.accepts {s : String} (h : Spelled s text) : Accepts readText text s := by
  obtain ⟨hbody⟩ := h
  refine ⟨.scalar (.quoted hbody.enclosed), fun gap rest hgap _ => ?_⟩
  rw [List.append_assoc, List.cons_append, List.append_assoc, readText, skipBlank_gap hgap rfl]
  simp [readQuoted_of_spells hbody, Except.map]

theorem form_text (s : String) : Form .value (chars (Value.text s).pieces) :=
  (spelled_pieces s).accepts.form

theorem form_null : Form .value (chars Value.null.pieces) :=
  .scalar (.word (.inl rfl))

theorem exists_spelled_of_readText {s : List Char} {value : String}
    (h : readText s = .ok (value, rest)) :
    ∃ gap text, Gap gap ∧ Spelled value text ∧ s = gap ++ text ++ rest := by
  unfold readText at h
  split at h
  · cases h
  · rename_i c more hblank
    obtain ⟨gap, hgap, -, rfl⟩ := exists_of_skipBlank hblank
    split_ifs at h with hquote
    · obtain ⟨⟨chars, rest⟩, hread, ⟨⟩⟩ := exists_of_map h
      obtain ⟨body, hbody, rfl⟩ := readQuoted_eq_ok_iff.mp hread
      exact ⟨gap, _, hgap, .quoted (by rwa [String.toList_ofList]), by simp [hquote]⟩
    · exact absurd h (failShape_ne_ok _ _ _)

theorem exact_text : Exact readText where
  exists_text h :=
    have ⟨gap, text, hgap, htext, hs⟩ := exists_spelled_of_readText h
    ⟨gap, text, hgap, htext.accepts, hs⟩

theorem accepts_text_iff {s : String} : Accepts readText text s ↔ Spelled s text := by
  refine ⟨fun h => ?_, Spelled.accepts⟩
  exact h.form.begins.whole (exists_spelled_of_readText h.read_eq)

theorem accepts_null : Accepts (readOptional read) "null".toList none := by
  refine ⟨.scalar (.word (.inl rfl)), fun gap rest hgap _ => ?_⟩
  have htext : gap ++ "null".toList ++ rest = gap ++ 'n' :: ("ull".toList ++ rest) := by simp
  rw [htext, readOptional, skipBlank_gap hgap rfl]
  simp only [readWord_append, Except.map]

/-- A value that may be absent is `null`, or it is one that is there. -/
theorem exists_of_readOptional (h : Exact read) {s : List Char} {value? : Option α}
    (hread : readOptional read s = .ok (value?, rest)) :
    ∃ gap text, Gap gap ∧ (Accepts (readOptional read) text value? ∧
      (value? = none ∧ text = "null".toList ∨ ∃ value, value? = some value ∧ Accepts read text value)) ∧
      s = gap ++ text ++ rest := by
  unfold readOptional at hread
  split at hread
  · rename_i more hblank
    obtain ⟨gap, hgap, -, rfl⟩ := exists_of_skipBlank hblank
    obtain ⟨⟨_, rest⟩, hword, ⟨⟩⟩ := exists_of_map hread
    have hmore : more = "ull".toList ++ rest := exists_of_readWord (by rw [hword]; rfl)
    exact ⟨gap, "null".toList, hgap, ⟨accepts_null, .inl ⟨rfl, rfl⟩⟩, by simp [hmore]⟩
  · rename_i rest' hnull
    unfold readPresent at hread
    obtain ⟨⟨value, rest⟩, hvalue, ⟨⟩⟩ := exists_of_map hread
    obtain ⟨front, hfront, hs⟩ : ∃ front, Gap front ∧ s = front ++ skipBlank s :=
      ⟨_, fun c hc => List.mem_takeWhile_imp hc, List.takeWhile_append_dropWhile.symm⟩
    obtain ⟨gap, text, hgap, htext, hskip⟩ := h.exists_text hvalue
    obtain ⟨c, more, rfl, hc, -⟩ := htext.form.begins
    rw [hskip, List.append_assoc, List.cons_append, ← List.append_assoc] at hs
    replace hgap : Gap (front ++ gap) := gap_append hfront hgap
    have hne : c ≠ 'n' := by
      rintro rfl
      exact hnull _ (by rw [hs, skipBlank_gap hgap hc])
    have haccepts : Accepts (readOptional read) (c :: more) (some value) :=
      ⟨htext.form, htext.reads.optional rfl hc hne⟩
    exact ⟨_, c :: more, hgap, ⟨haccepts, .inr ⟨value, rfl, htext⟩⟩, by rw [hs]; simp⟩

theorem Exact.optional (h : Exact read) : Exact (readOptional read) where
  exists_text hread :=
    have ⟨gap, text, hgap, ⟨htext, _⟩, hs⟩ := exists_of_readOptional h hread
    ⟨gap, text, hgap, htext, hs⟩

theorem eq_of_accepts_optional (h : Exact read) {value? : Option α}
    (haccepts : Accepts (readOptional read) text value?) :
    value? = none ∧ text = "null".toList ∨ ∃ value, value? = some value ∧ Accepts read text value :=
  (haccepts.form.begins.whole (exists_of_readOptional h haccepts.read_eq)).2

end CallGraph.Json
