import CallGraph.Proofs.Json.Form

/-!
The parts of a list or an object: the items of the one and the members of the other. A text has its parts
in one way only.
-/
namespace CallGraph.Json

structure Part where
  key? : Option String
  text : List Char
  deriving DecidableEq, Repr

inductive Heading : Frame → Option String → List Char → Prop
  | list : Heading .list none []
  | object {gap body gap' key} (hgap : Gap gap) (hbody : Spells body key.toList) (hgap' : Gap gap') :
    Heading .object (some key) (gap ++ '"' :: (body ++ '"' :: (gap' ++ [':'])))

/-- Parts one behind another, whatever stands as their texts. -/
inductive Parts (frame : Frame) : Bool → List Part → List Char → Prop
  | nil {first} : Parts frame first [] []
  | cons {first separator key? heading gap text parts more} (hseparator : Separator first separator)
    (hheading : Heading frame key? heading) (hgap : Gap gap) (hmore : Parts frame false parts more) :
    Parts frame first (⟨key?, text⟩ :: parts) (separator ++ heading ++ gap ++ text ++ more)

inductive Bracket (frame : Frame) (parts : List Part) : List Char → Prop
  | closed {inside gap} (hparts : Parts frame true parts inside) (hgap : Gap gap) :
    Bracket frame parts (frame.opener :: (inside ++ gap ++ [frame.closer]))

/-- A list or an object with some parts that are values. -/
structure Outline (frame : Frame) (parts : List Part) (text : List Char) : Prop where
  bracket : Bracket frame parts text
  forms : ∀ part ∈ parts, Form .value part.text

variable {frame : Frame} {first : Bool} {parts parts' : List Part} {gap gap' rest rest' : List Char}

theorem Heading.label {key? : Option String} {heading : List Char} (h : Heading frame key? heading) :
    Label frame heading := by
  cases h with
  | list => exact .list
  | object hgap hbody hgap' => exact .object hgap hbody.enclosed hgap'

theorem Parts.stops {inside : List Char} (h : Parts frame false parts inside) (hrest : Stops rest) :
    Stops (inside ++ rest) := by
  cases h with
  | nil => exact hrest
  | cons hseparator =>
    cases hseparator with
    | later hgap =>
      simp only [List.append_assoc]
      exact stops_gap hgap _ (by decide)

/-- Each part takes a character at least: its separator, or the opening of the bracket. -/
theorem Parts.length_le {inside : List Char} (h : Parts frame first parts inside) :
    parts.length ≤ inside.length + first.toNat := by
  induction h with
  | nil => exact Nat.zero_le _
  | @cons first separator _ _ _ _ _ _ hseparator _ _ _ ih =>
    have hpaid : 1 ≤ separator.length + first.toNat := by
      cases hseparator with
      | first => simp
      | later => simp
    simp only [List.length_cons, List.length_append, Bool.toNat_false] at ih ⊢
    omega

theorem stops_closer (frame : Frame) (hgap : Gap gap) (rest : List Char) :
    Stops (gap ++ frame.closer :: rest) :=
  stops_gap hgap rest (by cases frame <;> decide)

theorem Parts.form {inside : List Char} (h : Parts frame first parts inside)
    (hforms : ∀ part ∈ parts, Form .value part.text) (hgap : Gap gap) :
    Form (.within frame first) (inside ++ gap ++ [frame.closer]) := by
  induction h with
  | nil => exact .close hgap
  | cons hseparator hheading hgap' _ ih =>
    rw [List.forall_mem_cons] at hforms
    have hitem := Form.item hseparator hheading.label hgap' hforms.1 (ih hforms.2)
    simpa only [List.append_assoc] using hitem

theorem Outline.form {text : List Char} (h : Outline frame parts text) : Form .value text := by
  obtain ⟨⟨hparts, hgap⟩, hforms⟩ := h
  exact .bracket (hparts.form hforms hgap)

section Unique

theorem eq_of_gap {c c' : Char} {s s' : List Char} (hgap : Gap gap) (hgap' : Gap gap')
    (hc : isBlank c = false) (hc' : isBlank c' = false) (h : gap ++ c :: s = gap' ++ c' :: s') :
    c = c' ∧ s = s' := by
  have hskip := congrArg skipBlank h
  rwa [skipBlank_gap hgap hc, skipBlank_gap hgap' hc', List.cons.injEq] at hskip

theorem Separator.unique {separator separator' s s' : List Char} (h : Separator first separator)
    (h' : Separator first separator') (heq : separator ++ s = separator' ++ s') : s = s' := by
  cases h with
  | first =>
    cases h'
    exact heq
  | later hgap =>
    cases h' with
    | later hgap' =>
      simp only [List.append_assoc, List.singleton_append] at heq
      exact (eq_of_gap hgap hgap' rfl rfl heq).2

theorem Heading.unique {key? key?' : Option String} {heading heading' s s' : List Char}
    (h : Heading frame key? heading) (h' : Heading frame key?' heading')
    (heq : heading ++ s = heading' ++ s') : key? = key?' ∧ s = s' := by
  cases h with
  | list =>
    cases h'
    exact ⟨rfl, heq⟩
  | object hgap hbody hafter =>
    cases h' with
    | object hgap' hbody' hafter' =>
      simp only [List.append_assoc, List.cons_append, List.nil_append] at heq
      obtain ⟨-, hquoted⟩ := eq_of_gap hgap hgap' rfl rfl heq
      have hread := congrArg (readQuoted []) hquoted
      rw [readQuoted_of_spells hbody, readQuoted_of_spells hbody', Except.ok.injEq, Prod.mk.injEq] at hread
      obtain ⟨hkey, hcolon⟩ := hread
      exact ⟨congrArg some (String.toList_injective hkey), (eq_of_gap hafter hafter' rfl rfl hcolon).2⟩

/-- A value ends where it is passed over. -/
theorem Form.unique {text text' : List Char} (h : Form .value text) (h' : Form .value text')
    (hgap : Gap gap) (hgap' : Gap gap') (hrest : Stops rest) (hrest' : Stops rest')
    (heq : gap ++ text ++ rest = gap' ++ text' ++ rest') : text = text' ∧ rest = rest' := by
  have hskip := congrArg skipValue heq
  rw [skipValue_of_form h hgap hrest, skipValue_of_form h' hgap' hrest', Except.ok.injEq] at hskip
  subst hskip
  rw [List.append_cancel_right_eq] at heq
  obtain ⟨c, more, rfl, hc, -⟩ := h.begins
  obtain ⟨c', more', rfl, hc', -⟩ := h'.begins
  obtain ⟨rfl, rfl⟩ := eq_of_gap hgap hgap' hc hc' heq
  exact ⟨rfl, rfl⟩

/-- A part does not start as a bracket closes. -/
theorem Heading.ne_closer {key? : Option String} {separator heading text s s' : List Char}
    (h : Heading frame key? heading) (hseparator : Separator first separator) (hgap : Gap gap)
    (hbegins : Begins text) (hgap' : Gap gap') :
    separator ++ heading ++ gap ++ text ++ s ≠ gap' ++ frame.closer :: s' := by
  intro heq
  obtain ⟨c, more, rfl, hblank, hlist, -⟩ := hbegins
  have hcloser : isBlank frame.closer = false := by cases frame <;> rfl
  cases hseparator with
  | later hbefore =>
    simp only [List.append_assoc, List.singleton_append] at heq
    obtain ⟨hcomma, -⟩ := eq_of_gap hbefore hgap' rfl hcloser heq
    cases frame <;> cases hcomma
  | first =>
    cases h with
    | list =>
      simp only [List.append_assoc, List.nil_append, List.cons_append] at heq
      exact hlist (eq_of_gap hgap hgap' hblank hcloser heq).1
    | object hbefore =>
      simp only [List.append_assoc, List.nil_append, List.cons_append] at heq
      obtain ⟨hquote, -⟩ := eq_of_gap hbefore hgap' rfl hcloser heq
      cases hquote

theorem Parts.unique {inside inside' : List Char} (h : Parts frame first parts inside)
    (hforms : ∀ part ∈ parts, Form .value part.text) (h' : Parts frame first parts' inside')
    (hforms' : ∀ part ∈ parts', Form .value part.text) (hgap : Gap gap) (hgap' : Gap gap')
    (heq : inside ++ (gap ++ frame.closer :: rest) = inside' ++ (gap' ++ frame.closer :: rest')) :
    parts = parts' := by
  induction h generalizing parts' inside' with
  | nil =>
    cases h' with
    | nil => rfl
    | cons hseparator hheading hbefore =>
      rw [List.forall_mem_cons] at hforms'
      simp only [List.append_assoc _ _ (gap' ++ _)] at heq
      exact absurd heq.symm (hheading.ne_closer hseparator hbefore hforms'.1.begins hgap)
  | cons hseparator hheading hbefore hmore ih =>
    rw [List.forall_mem_cons] at hforms
    cases h' with
    | nil =>
      simp only [List.append_assoc _ _ (gap ++ _)] at heq
      exact absurd heq (hheading.ne_closer hseparator hbefore hforms.1.begins hgap')
    | cons hseparator' hheading' hbefore' hmore' =>
      rw [List.forall_mem_cons] at hforms'
      simp only [List.append_assoc] at heq
      obtain ⟨rfl, hvalue⟩ := hheading.unique hheading' (hseparator.unique hseparator' heq)
      simp only [← List.append_assoc _ _ (_ ++ (_ ++ _))] at hvalue
      obtain ⟨rfl, hnext⟩ := hforms.1.unique hforms'.1 hbefore hbefore'
        (hmore.stops (stops_closer frame hgap rest)) (hmore'.stops (stops_closer frame hgap' rest')) hvalue
      rw [ih hforms.2 hmore' hforms'.2 hnext]

/-- A text is a list or an object with certain parts in one way at most. -/
theorem Outline.unique {frame' : Frame} {text : List Char} (h : Outline frame parts text)
    (h' : Outline frame' parts' text) : frame = frame' ∧ parts = parts' := by
  obtain ⟨hbracket, hforms⟩ := h
  obtain ⟨hbracket', hforms'⟩ := h'
  generalize htext : text = text' at hbracket'
  obtain ⟨hparts, hgap⟩ := hbracket
  obtain ⟨hparts', hgap'⟩ := hbracket'
  obtain ⟨hopener, hinside⟩ := List.cons.inj htext
  obtain rfl : frame = frame' := by cases frame <;> cases frame' <;> first | rfl | cases hopener
  simp only [List.append_assoc] at hinside
  exact ⟨rfl, hparts.unique hforms hparts' hforms' hgap hgap' hinside⟩

end Unique

section Members

/-- A member of an object as it is written: its key, the text of its value, and the blanks around
each of the two. -/
structure Member where
  key : String
  value : List Char
  beforeKey : List Char
  afterKey : List Char
  beforeValue : List Char
  afterValue : List Char
  deriving DecidableEq, Repr

namespace Member

def compact (key : String) (value : List Char) : Member :=
  ⟨key, value, [], [], [], []⟩

structure Spaced (m : Member) : Prop where
  beforeKey : Gap m.beforeKey
  afterKey : Gap m.afterKey
  beforeValue : Gap m.beforeValue
  afterValue : Gap m.afterValue

theorem spaced_compact (key : String) (value : List Char) : (compact key value).Spaced :=
  ⟨gap_nil, gap_nil, gap_nil, gap_nil⟩

/-- A member behind the opening quote of its key, up to the end of its value. -/
def unquoted (m : Member) : List Char :=
  m.key.toList.flatMap written ++ '"' :: (m.afterKey ++ ':' :: (m.beforeValue ++ m.value))

def text (m : Member) : List Char :=
  m.beforeKey ++ '"' :: (m.unquoted ++ m.afterValue)

end Member

def objectText (members : List Member) : List Char :=
  '\x7b' :: ([','].intercalate (members.map Member.text) ++ ['\x7d'])

theorem chars_separated (members : List (List String)) :
    chars (separated members) = [','].intercalate (members.map chars) := by
  induction members with
  | nil => rfl
  | cons member members ih =>
    cases members with
    | nil => simp [separated]
    | cons next rest =>
      simp only [separated, List.map_cons, List.intercalate_cons_cons] at ih ⊢
      simp [ih]

/-- The written form of an object has no blanks around its members. -/
theorem chars_object (members : List (String × Value)) :
    chars (Value.object members).pieces =
      objectText (members.map fun m => .compact m.1 (chars m.2.pieces)) := by
  have hmember (m : String × Value) :
      chars (memberPiece m) = (Member.compact m.1 (chars m.2.pieces)).text := by
    simp [memberPiece, chars_textPieces, Member.text, Member.unquoted, Member.compact]
  simp [Value.pieces, memberPieces_eq, chars_separated, objectText, hmember, Function.comp_def]

namespace Member

def part (m : Member) : Part :=
  ⟨some m.key, m.value⟩

theorem heading (m : Member) (hspaced : m.Spaced) :
    Heading .object (some m.key)
      (m.beforeKey ++ '"' :: (m.key.toList.flatMap written ++ '"' :: (m.afterKey ++ [':']))) :=
  .object hspaced.beforeKey (spells_written _) hspaced.afterKey

end Member

private theorem exists_parts_of_intercalate (m : Member) {members : List Member}
    (hspaced : ∀ member ∈ m :: members, member.Spaced) {separator : List Char}
    (hseparator : Separator first separator) :
    ∃ inside gap, Parts .object first ((m :: members).map Member.part) inside ∧ Gap gap ∧
      separator ++ [','].intercalate ((m :: members).map Member.text) = inside ++ gap := by
  induction members generalizing m first separator with
  | nil =>
    have hm := hspaced m List.mem_cons_self
    refine ⟨_, m.afterValue, .cons hseparator (m.heading hm) hm.beforeValue .nil, hm.afterValue, ?_⟩
    simp [Member.text, Member.unquoted]
  | cons next members ih =>
    obtain ⟨hm, hmore⟩ := List.forall_mem_cons.mp hspaced
    -- The blanks behind a value belong to the separator that follows it.
    obtain ⟨inside, gap, hparts, hgap, htext⟩ := ih next hmore (.later hm.afterValue)
    refine ⟨_, gap, .cons hseparator (m.heading hm) hm.beforeValue hparts, hgap, ?_⟩
    rw [List.map_cons, List.map_cons, List.intercalate_cons_cons, ← List.map_cons]
    simp [Member.text, Member.unquoted, ← htext]

theorem bracket_objectText {members : List Member} (hspaced : ∀ m ∈ members, m.Spaced) :
    Bracket .object (members.map Member.part) (objectText members) := by
  cases members with
  | nil => exact .closed .nil gap_nil
  | cons m members =>
    obtain ⟨inside, gap, hparts, hgap, htext⟩ := exists_parts_of_intercalate m hspaced .first
    rw [objectText, ← List.nil_append ([','].intercalate _), htext]
    exact .closed hparts hgap

/-- The written form of an object has its members as parts. -/
theorem bracket_object (members : List (String × Value)) :
    Bracket .object (members.map fun m => ⟨some m.1, chars m.2.pieces⟩)
      (chars (Value.object members).pieces) := by
  have hspaced : ∀ m ∈ members.map fun m => Member.compact m.1 (chars m.2.pieces), m.Spaced := by
    rw [List.forall_mem_map]
    exact fun m _ => Member.spaced_compact m.1 (chars m.2.pieces)
  simpa [chars_object, Member.part, Member.compact, Function.comp_def] using bracket_objectText hspaced

theorem outline_object {members : List (String × Value)}
    (hforms : ∀ m ∈ members, Form .value (chars m.2.pieces)) :
    Outline .object (members.map fun m => ⟨some m.1, chars m.2.pieces⟩)
      (chars (Value.object members).pieces) :=
  ⟨bracket_object members, List.forall_mem_map.mpr hforms⟩

end Members
end CallGraph.Json
