import CallGraph.Proofs.Json.Exact

/-!
The texts that are read as records: objects whose members fill the fields, in any order and with other
members among them, and lists whose items fill the fields one by one.
-/
namespace CallGraph.Json.Schema

variable {δ α : Type}

/-- Members lead from one draft of a record to another. Each is a field that is still open and is read into
the draft, or it stands under another key and is passed over. -/
inductive Gathers (schema : Schema δ α) : δ → List Part → δ → Prop
  | nil (draft) : Gathers schema draft [] draft
  | field {draft later last key text parts field}
    (hfield : schema.fields.find? (·.name == key) = some field) (hopen : field.isSet draft = false)
    (hread : Reads (field.read draft) text later) (hrest : Gathers schema later parts last) :
    Gathers schema draft (⟨some key, text⟩ :: parts) last
  | other {draft last key text parts} (hother : schema.fields.find? (·.name == key) = none)
    (hform : Form .value text) (hrest : Gathers schema draft parts last) :
    Gathers schema draft (⟨some key, text⟩ :: parts) last

/-- Items lead from one draft of a record to another, a field each; optional fields may be left without an
item at the end. -/
inductive Aligns : δ → List (Field δ) → List Part → δ → Prop
  | nil (draft) : Aligns draft [] [] draft
  | omitted {draft field fields last} (hoptional : field.optional) (hrest : Aligns draft fields [] last) :
    Aligns draft (field :: fields) [] last
  | item {draft later last field fields text parts} (hbegins : Begins text)
    (hread : Reads (field.read draft) text later) (hrest : Aligns later fields parts last) :
    Aligns draft (field :: fields) (⟨none, text⟩ :: parts) last

inductive Written (schema : Schema δ α) (record : α) (text : List Char) : Prop
  | object {parts draft} (htext : Outline .object parts text)
    (hparts : schema.Gathers schema.blank parts draft) (hbuild : schema.build draft = some record)
  | list {parts draft} (htext : Outline .list parts text)
    (hparts : Aligns schema.blank schema.fields parts draft) (hbuild : schema.build draft = some record)

variable {schema : Schema δ α} {first : Bool} {draft last : δ} {parts : List Part}
  {separator gap rest : List Char}

section Object

theorem nextKey?_closer (hgap : Gap gap) (rest : List Char) :
    nextKey? first (gap ++ '\x7d' :: rest) = .ok none := by
  simp [nextKey?, skipBlank_gap hgap, isBlank]

theorem nextKey?_quote (hseparator : Separator first separator) (hgap : Gap gap) (rest : List Char) :
    nextKey? first (separator ++ (gap ++ '"' :: rest)) = .ok (some rest) := by
  cases hseparator with
  | first => simp [nextKey?, skipBlank_gap hgap, isBlank]
  | later hbefore => simp [nextKey?, skipBlank_gap hbefore, skipBlank_gap hgap, isBlank]

theorem readColon_gap (hgap : Gap gap) (rest : List Char) : readColon (gap ++ ':' :: rest) = .ok rest := by
  simp [readColon, skipBlank_gap hgap, isBlank]

/-- A member is read by its key, once what stands in front of that has been passed. -/
theorem readMembers_member (fuel : ℕ) {later : δ} {key : String} {heading value : List Char}
    (hseparator : Separator first separator) (hheading : Heading .object (some key) heading)
    (hmember : ∀ colon, readColon colon = .ok value → schema.readMember key draft colon = .ok (later, rest)) :
    schema.readMembers (fuel + 1) first draft (separator ++ (heading ++ value)) =
      schema.readMembers fuel false later rest := by
  cases hheading with
  | @object gap body gap' key hgap hbody hgap' =>
    have hkey := nextKey?_quote hseparator hgap (body ++ '"' :: (gap' ++ ':' :: value))
    simp only [List.append_assoc, List.cons_append, List.nil_append]
    rw [readMembers, hkey]
    simp only [readQuoted_of_spells hbody, List.reverse_nil, List.nil_append, String.ofList_toList,
      hmember _ (readColon_gap hgap' value)]

theorem readMembers_parts {fuel : ℕ} {inside : List Char} (h : schema.Gathers draft parts last)
    (hparts : Parts .object first parts inside) (hgap : Gap gap) (hfuel : parts.length < fuel) :
    schema.readMembers fuel first draft (inside ++ (gap ++ '\x7d' :: rest)) =
      .ok (last, gap ++ '\x7d' :: rest) := by
  induction h generalizing fuel first inside with
  | nil draft =>
    obtain ⟨fuel, rfl⟩ : ∃ n, fuel = n + 1 := ⟨fuel - 1, by omega⟩
    cases hparts
    rw [List.nil_append, readMembers, nextKey?_closer hgap]
  | @field draft later last key text parts field hfield hopen hread _ ih =>
    rw [List.length_cons] at hfuel
    obtain ⟨fuel, rfl⟩ : ∃ n, fuel = n + 1 := ⟨fuel - 1, by omega⟩
    cases hparts with
    | @cons _ separator _ heading before _ _ more hseparator hheading hbefore hmore =>
      have hstops : Stops (more ++ (gap ++ '\x7d' :: rest)) := hmore.stops (stops_closer .object hgap rest)
      have hvalue := hread before _ hbefore hstops
      rw [List.append_assoc] at hvalue
      simp only [List.append_assoc]
      rw [readMembers_member fuel hseparator hheading, ih hmore (by omega)]
      intro colon hcolon
      simp only [readMember, hfield, hopen, hcolon, Bool.false_eq_true, if_false, Except.bind, hvalue]
  | @other draft last key text parts hother hform _ ih =>
    rw [List.length_cons] at hfuel
    obtain ⟨fuel, rfl⟩ : ∃ n, fuel = n + 1 := ⟨fuel - 1, by omega⟩
    cases hparts with
    | @cons _ separator _ heading before _ _ more hseparator hheading hbefore hmore =>
      have hstops : Stops (more ++ (gap ++ '\x7d' :: rest)) := hmore.stops (stops_closer .object hgap rest)
      have hvalue := skipValue_of_form hform hbefore hstops
      rw [List.append_assoc] at hvalue
      simp only [List.append_assoc]
      rw [readMembers_member fuel hseparator hheading, ih hmore (by omega)]
      intro colon hcolon
      simp only [readMember, hother, hcolon, Except.bind, hvalue, Except.map]

theorem exists_closer_of_nextKey? {s : List Char} (h : nextKey? first s = .ok none) :
    ∃ gap more, Gap gap ∧ s = gap ++ '\x7d' :: more := by
  unfold nextKey? at h
  split at h
  · cases h
  · rename_i c more hblank
    obtain ⟨gap, hgap, -, rfl⟩ := exists_of_skipBlank hblank
    split_ifs at h with hcloser
    · exact ⟨gap, more, hgap, by rw [hcloser]⟩
    · cases h
    · cases h
    · split at h
      · cases h
      · split_ifs at h <;> cases h
    · cases h

theorem exists_quote_of_nextKey? {s : List Char} (h : nextKey? first s = .ok (some rest)) :
    ∃ separator gap, Separator first separator ∧ Gap gap ∧ s = separator ++ (gap ++ '"' :: rest) := by
  unfold nextKey? at h
  split at h
  · cases h
  · rename_i c more hblank
    obtain ⟨gap, hgap, -, rfl⟩ := exists_of_skipBlank hblank
    split_ifs at h with hcloser hfirst hquote hcomma
    · cases h
    · obtain rfl := Option.some.inj (Except.ok.inj h)
      subst hfirst hquote
      exact ⟨[], gap, .first, hgap, rfl⟩
    · cases h
    · split at h
      · cases h
      · rename_i d more' hblank'
        obtain ⟨gap', hgap', -, rfl⟩ := exists_of_skipBlank hblank'
        split_ifs at h with hquote
        · obtain rfl := Option.some.inj (Except.ok.inj h)
          obtain rfl : first = false := by simpa using hfirst
          exact ⟨gap ++ [','], gap', .later hgap, hgap', by simp [hcomma, hquote]⟩
        · cases h
        · cases h
    · cases h

theorem exists_gap_of_readColon {s : List Char} (h : readColon s = .ok rest) :
    ∃ gap, Gap gap ∧ s = gap ++ ':' :: rest := by
  unfold readColon at h
  split at h
  · cases h
  · rename_i c more hblank
    obtain ⟨gap, hgap, -, rfl⟩ := exists_of_skipBlank hblank
    split_ifs at h with hcolon
    · exact ⟨gap, hgap, by rw [hcolon, Except.ok.inj h]⟩
    · cases h

/-- What is read as a member behind its key is a value that some draft is gathered from. -/
theorem exists_value_of_readMember (hexact : ∀ field ∈ schema.fields, ∀ draft, Exact (field.read draft))
    {key : String} {later : δ} {s : List Char} (h : schema.readMember key draft s = .ok (later, rest)) :
    ∃ gap gap' text, Gap gap ∧ Gap gap' ∧ Form .value text ∧ s = gap ++ ':' :: (gap' ++ text ++ rest) ∧
      ∀ {parts last}, schema.Gathers later parts last →
        schema.Gathers draft (⟨some key, text⟩ :: parts) last := by
  unfold readMember at h
  split at h
  · rename_i field hfield
    split_ifs at h with hset
    · cases h
    · obtain ⟨value, hcolon, hvalue⟩ := exists_of_bind h
      obtain ⟨gap, hgap, rfl⟩ := exists_gap_of_readColon hcolon
      obtain ⟨gap', text, hgap', htext, rfl⟩ :=
        (hexact field (List.mem_of_find?_eq_some hfield) draft).exists_text hvalue
      exact ⟨gap, gap', text, hgap, hgap', htext.form, rfl, .field hfield (by simpa using hset) htext.reads⟩
  · rename_i hother
    obtain ⟨value, hcolon, hvalue⟩ := exists_of_bind h
    obtain ⟨gap, hgap, rfl⟩ := exists_gap_of_readColon hcolon
    obtain ⟨after, hskip, ⟨⟩⟩ := exists_of_map hvalue
    obtain ⟨gap', text, hgap', htext, rfl⟩ := exists_form_of_skipValue hskip
    exact ⟨gap, gap', text, hgap, hgap', htext, rfl, .other hother htext⟩

theorem exists_parts_of_readMembers (hexact : ∀ field ∈ schema.fields, ∀ draft, Exact (field.read draft))
    {fuel : ℕ} {s : List Char} (h : schema.readMembers fuel first draft s = .ok (last, rest)) :
    ∃ parts inside gap more, Parts .object first parts inside ∧ (∀ part ∈ parts, Form .value part.text) ∧
      schema.Gathers draft parts last ∧ Gap gap ∧ rest = gap ++ '\x7d' :: more ∧ s = inside ++ rest := by
  induction fuel generalizing first draft s with
  | zero => cases h
  | succ fuel ih =>
    unfold readMembers at h
    split at h
    · cases h
    · rename_i hnext
      obtain ⟨rfl, rfl⟩ := Prod.mk.inj (Except.ok.inj h)
      obtain ⟨gap, more, hgap, rfl⟩ := exists_closer_of_nextKey? hnext
      exact ⟨[], [], gap, more, .nil, by simp, .nil draft, hgap, rfl, rfl⟩
    · rename_i hnext
      obtain ⟨separator, before, hseparator, hbefore, rfl⟩ := exists_quote_of_nextKey? hnext
      split at h
      · cases h
      · rename_i key after hkey
        obtain ⟨body, hbody, rfl⟩ := readQuoted_eq_ok_iff.mp hkey
        split at h
        · cases h
        · rename_i later value hmember
          obtain ⟨gap, gap', text, hgap, hgap', htext, rfl, hgather⟩ :=
            exists_value_of_readMember hexact hmember
          obtain ⟨parts, inside, margin, more, hparts, hforms, hgathers, hmargin, hrest, rfl⟩ := ih h
          have hheading : Heading .object (some (String.ofList key))
              (before ++ '"' :: (body ++ '"' :: (gap ++ [':']))) :=
            .object hbefore (by rwa [String.toList_ofList]) hgap
          refine ⟨_, _, margin, more, .cons hseparator hheading hgap' hparts, ?_, hgather hgathers, hmargin,
            hrest, by simp⟩
          exact List.forall_mem_cons.mpr ⟨htext, hforms⟩

end Object
section List

theorem nextItem?_closer (hgap : Gap gap) (rest : List Char) :
    nextItem? first (gap ++ ']' :: rest) = .ok none := by
  simp [nextItem?, skipBlank_gap hgap, isBlank]

theorem nextItem?_text {text : List Char} (hseparator : Separator first separator) (hgap : Gap gap)
    (hbegins : Begins text) (rest : List Char) :
    nextItem? first (separator ++ (gap ++ (text ++ rest))) = .ok (some (text ++ rest)) := by
  obtain ⟨c, more, rfl, hblank, hlist, -⟩ := hbegins
  have hcomma : isBlank ',' = false := rfl
  cases hseparator with
  | first => simp [nextItem?, skipBlank_gap hgap hblank, hlist]
  | later hbefore =>
    simp [nextItem?, skipBlank_gap hbefore hcomma, skipBlank_gap hgap hblank, hlist]

theorem readItems_parts {fields : List (Field δ)} {inside : List Char} (h : Aligns draft fields parts last)
    (hparts : Parts .list first parts inside) (hgap : Gap gap) (position : ℕ) :
    schema.readItems position first draft (inside ++ (gap ++ ']' :: rest)) fields =
      .ok (last, gap ++ ']' :: rest) := by
  induction h generalizing first inside position with
  | nil draft =>
    cases hparts
    rfl
  | omitted hoptional _ ih =>
    cases hparts
    rw [readItems, List.nil_append, nextItem?_closer hgap]
    simp only [hoptional, if_true]
    exact ih .nil (position + 1)
  | @item draft later last field fields text parts hbegins hread _ ih =>
    cases hparts with
    | @cons _ separator _ heading before _ _ more hseparator hheading hbefore hmore =>
      cases hheading
      have hstops : Stops (more ++ (gap ++ ']' :: rest)) := hmore.stops (stops_closer .list hgap rest)
      have hvalue := hread [] _ gap_nil hstops
      simp only [List.nil_append] at hvalue
      simp only [List.append_assoc, List.append_nil]
      rw [readItems, nextItem?_text hseparator hbefore hbegins]
      simp only [hvalue]
      exact ih hmore (position + 1)

theorem closeList_gap (hgap : Gap gap) (rest : List Char) : closeList (gap ++ ']' :: rest) = .ok rest := by
  simp [closeList, skipBlank_gap hgap, isBlank]

theorem exists_separator_of_nextItem? {s item : List Char} (h : nextItem? first s = .ok (some item)) :
    ∃ separator gap, Separator first separator ∧ Gap gap ∧ s = separator ++ (gap ++ item) := by
  unfold nextItem? at h
  split at h
  · cases h
  · rename_i c more hblank
    obtain ⟨gap, hgap, -, rfl⟩ := exists_of_skipBlank hblank
    split_ifs at h with hcloser hfirst hcomma
    · cases h
    · obtain rfl := Option.some.inj (Except.ok.inj h)
      subst hfirst
      exact ⟨[], gap, .first, hgap, rfl⟩
    · split at h
      · cases h
      · rename_i d more' hblank'
        obtain ⟨gap', hgap', -, rfl⟩ := exists_of_skipBlank hblank'
        split_ifs at h with hcloser'
        · cases h
        · obtain rfl := Option.some.inj (Except.ok.inj h)
          obtain rfl : first = false := by simpa using hfirst
          exact ⟨gap ++ [','], gap', .later hgap, hgap', by simp [hcomma]⟩
    · cases h

theorem exists_gap_of_closeList {s : List Char} (h : closeList s = .ok rest) :
    ∃ gap, Gap gap ∧ s = gap ++ ']' :: rest := by
  unfold closeList at h
  split at h
  · cases h
  · rename_i c more hblank
    obtain ⟨gap, hgap, -, rfl⟩ := exists_of_skipBlank hblank
    split_ifs at h with hcloser
    · exact ⟨gap, hgap, by rw [hcloser, Except.ok.inj h]⟩
    · split at h <;> cases h
    · cases h

/-- Once a list is at its end, the fields that are left are optional. -/
theorem aligns_of_readItems_closer {fields : List (Field δ)} {position : ℕ} {s : List Char}
    (hcloser : nextItem? first s = .ok none)
    (h : schema.readItems position first draft s fields = .ok (last, rest)) :
    Aligns draft fields [] last ∧ s = rest := by
  induction fields generalizing position with
  | nil =>
    obtain ⟨rfl, rfl⟩ := Prod.mk.inj (Except.ok.inj h)
    exact ⟨.nil draft, rfl⟩
  | cons field fields ih =>
    rw [readItems, hcloser] at h
    split_ifs at h with hoptional
    · obtain ⟨haligns, hs⟩ := ih h
      exact ⟨.omitted hoptional haligns, hs⟩
    · cases h

theorem exists_parts_of_readItems {fields : List (Field δ)}
    (hexact : ∀ field ∈ fields, ∀ draft, Exact (field.read draft)) {position : ℕ} {s : List Char}
    (h : schema.readItems position first draft s fields = .ok (last, rest)) :
    ∃ parts inside, Parts .list first parts inside ∧ (∀ part ∈ parts, Form .value part.text) ∧
      Aligns draft fields parts last ∧ s = inside ++ rest := by
  induction fields generalizing first draft position s with
  | nil =>
    obtain ⟨rfl, rfl⟩ := Prod.mk.inj (Except.ok.inj h)
    exact ⟨[], [], .nil, by simp, .nil draft, rfl⟩
  | cons field fields ih =>
    have hitems := h
    rw [readItems] at h
    split at h
    · cases h
    · rename_i hnext
      obtain ⟨haligns, rfl⟩ := aligns_of_readItems_closer hnext hitems
      exact ⟨[], [], .nil, by simp, haligns, rfl⟩
    · rename_i item hnext
      obtain ⟨separator, before, hseparator, hbefore, rfl⟩ := exists_separator_of_nextItem? hnext
      split at h
      · cases h
      · rename_i later after hread
        obtain ⟨gap, text, hgap, htext, rfl⟩ :=
          (hexact field List.mem_cons_self draft).exists_text hread
        obtain ⟨parts, inside, hparts, hforms, haligns, rfl⟩ :=
          ih (fun f hf => hexact f (List.mem_cons_of_mem _ hf)) h
        refine ⟨_, _, .cons hseparator .list (gap_append hbefore hgap) hparts,
          List.forall_mem_cons.mpr ⟨htext.form, hforms⟩, .item htext.form.begins htext.reads haligns, ?_⟩
        simp

end List
section Read

theorem finish_eq_ok_iff {record : α} :
    schema.finish draft = .ok record ↔ schema.build draft = some record := by
  unfold finish
  split
  · rename_i record' hbuild
    rw [hbuild, Except.ok.injEq, Option.some.injEq]
  · rename_i hbuild
    split <;> simp [hbuild]

/-- A record is read from an object that its draft is gathered from. -/
theorem reads_object (draft : δ) {text : List Char} {record : α} (htext : Bracket .object parts text)
    (hparts : schema.Gathers schema.blank parts draft) (hbuild : schema.build draft = some record) :
    Reads schema.read text record := by
  cases htext with
  | @closed inside before hinside hbefore =>
    intro gap rest hgap _
    have htext : gap ++ Frame.object.opener :: (inside ++ before ++ [Frame.object.closer]) ++ rest =
        gap ++ '\x7b' :: (inside ++ (before ++ '\x7d' :: rest)) := by
      simp [Frame.opener, Frame.closer]
    have hfuel : parts.length < (inside ++ (before ++ '\x7d' :: rest)).length + 1 := by
      have hlength := hinside.length_le
      simp only [List.length_append, List.length_cons, Bool.toNat_true] at hlength ⊢
      omega
    have hclose : pastClose '\x7d' (before ++ '\x7d' :: rest) = rest := by
      rw [pastClose, skipBlank_gap hbefore rfl]
      rfl
    rw [htext, read, skipBlank_gap hgap rfl]
    simp only [Char.reduceEq, if_false, if_true, readObject, readMembers_parts hparts hinside hbefore hfuel,
      hclose, finish_eq_ok_iff.mpr hbuild]

/-- A record is read from a list whose items are aligned to its fields. -/
theorem reads_list (draft : δ) {text : List Char} {record : α} (htext : Bracket .list parts text)
    (hparts : Aligns schema.blank schema.fields parts draft) (hbuild : schema.build draft = some record) :
    Reads schema.read text record := by
  cases htext with
  | @closed inside before hinside hbefore =>
    intro gap rest hgap _
    have htext : gap ++ Frame.list.opener :: (inside ++ before ++ [Frame.list.closer]) ++ rest =
        gap ++ '[' :: (inside ++ (before ++ ']' :: rest)) := by
      simp [Frame.opener, Frame.closer]
    rw [htext, read, skipBlank_gap hgap rfl]
    simp only [if_true, readList, readItems_parts hparts hinside hbefore, closeList_gap hbefore,
      finish_eq_ok_iff.mpr hbuild]

theorem Written.accepts {record : α} {text : List Char} (h : schema.Written record text) :
    Accepts schema.read text record := by
  cases h with
  | object htext hparts hbuild => exact ⟨htext.form, reads_object _ htext.bracket hparts hbuild⟩
  | list htext hparts hbuild => exact ⟨htext.form, reads_list _ htext.bracket hparts hbuild⟩

theorem exists_written_of_readList (hexact : ∀ field ∈ schema.fields, ∀ draft, Exact (field.read draft))
    {s : List Char} {record : α} (h : schema.readList s = .ok (record, rest)) :
    ∃ body, schema.Written record ('[' :: body) ∧ s = body ++ rest := by
  unfold readList at h
  split at h
  · cases h
  · rename_i draft after hitems
    split at h
    · cases h
    · rename_i rest' hclose
      split at h
      · cases h
      · rename_i record' hfinish
        obtain ⟨rfl, rfl⟩ := Prod.mk.inj (Except.ok.inj h)
        obtain ⟨gap, hgap, rfl⟩ := exists_gap_of_closeList hclose
        obtain ⟨parts, inside, hparts, hforms, haligns, rfl⟩ := exists_parts_of_readItems hexact hitems
        have htext : Outline .list parts ('[' :: (inside ++ gap ++ [']'])) := ⟨.closed hparts hgap, hforms⟩
        exact ⟨_, .list htext haligns (finish_eq_ok_iff.mp hfinish), by simp⟩

theorem exists_written_of_readObject (hexact : ∀ field ∈ schema.fields, ∀ draft, Exact (field.read draft))
    {s : List Char} {record : α} (h : schema.readObject s = .ok (record, rest)) :
    ∃ body, schema.Written record ('\x7b' :: body) ∧ s = body ++ rest := by
  unfold readObject at h
  split at h
  · cases h
  · rename_i draft after hmembers
    split at h
    · cases h
    · rename_i record' hfinish
      obtain ⟨rfl, rfl⟩ := Prod.mk.inj (Except.ok.inj h)
      obtain ⟨parts, inside, gap, more, hparts, hforms, hgathers, hgap, rfl, rfl⟩ :=
        exists_parts_of_readMembers hexact hmembers
      have htext : Outline .object parts ('\x7b' :: (inside ++ gap ++ ['\x7d'])) :=
        ⟨.closed hparts hgap, hforms⟩
      refine ⟨_, .object htext hgathers (finish_eq_ok_iff.mp hfinish), ?_⟩
      simp [pastClose, skipBlank_gap hgap, isBlank]

theorem exists_written_of_read (hexact : ∀ field ∈ schema.fields, ∀ draft, Exact (field.read draft))
    {s : List Char} {record : α} (h : schema.read s = .ok (record, rest)) :
    ∃ gap text, Gap gap ∧ schema.Written record text ∧ s = gap ++ text ++ rest := by
  unfold read at h
  split at h
  · cases h
  · rename_i c more hblank
    obtain ⟨gap, hgap, -, rfl⟩ := exists_of_skipBlank hblank
    split_ifs at h with hlist hobject
    · obtain ⟨body, hwritten, rfl⟩ := exists_written_of_readList hexact h
      exact ⟨gap, _, hgap, hwritten, by simp [hlist]⟩
    · obtain ⟨body, hwritten, rfl⟩ := exists_written_of_readObject hexact h
      exact ⟨gap, _, hgap, hwritten, by simp [hobject]⟩
    · exact absurd h (failShape_ne_ok _ _ _)

theorem exact_read (hexact : ∀ field ∈ schema.fields, ∀ draft, Exact (field.read draft)) :
    Exact schema.read where
  exists_text h :=
    have ⟨gap, text, hgap, htext, hs⟩ := exists_written_of_read hexact h
    ⟨gap, text, hgap, htext.accepts, hs⟩

/-- A text is read as a record just if it is written as one. -/
theorem accepts_iff_written (hexact : ∀ field ∈ schema.fields, ∀ draft, Exact (field.read draft))
    {record : α} {text : List Char} : Accepts schema.read text record ↔ schema.Written record text := by
  refine ⟨fun h => ?_, Written.accepts⟩
  exact h.form.begins.whole (exists_written_of_read hexact h.read_eq)

end Read
end CallGraph.Json.Schema
