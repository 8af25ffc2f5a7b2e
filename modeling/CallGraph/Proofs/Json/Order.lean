import CallGraph.Proofs.Json.Record

/-!
The members of a record that is written as an object may come in any order, since each of its fields is
kept in a place of its own.
-/
namespace CallGraph.Json

section Field

variable {α β γ δ : Type}

theorem Reads.exists_of_map {read : Reader α} {f : α → β} {text : List Char} {b : β}
    (hf : Function.Injective f) (h : Reads (fun s => (read s).map fun r => (f r.1, r.2)) text b) :
    ∃ a, Reads read text a ∧ b = f a := by
  have hvalue {gap rest : List Char} (hgap : Gap gap) (hrest : Stops rest) :
      ∃ a, read (gap ++ text ++ rest) = .ok (a, rest) ∧ f a = b := by
    obtain ⟨⟨a, rest⟩, hread, ⟨⟩⟩ := CallGraph.Json.exists_of_map (h gap rest hgap hrest)
    exact ⟨a, hread, rfl⟩
  obtain ⟨a, -, rfl⟩ := hvalue gap_nil (Gap.stops gap_nil)
  refine ⟨a, fun gap rest hgap hrest => ?_, rfl⟩
  obtain ⟨a', hread, ha⟩ := hvalue hgap hrest
  rwa [← hf ha]

def Holds (get : δ → Option β) (set : δ → β → δ) : Prop :=
  ∀ draft value, get (set draft value) = some value

variable {name name' : String} {optional optional' : Bool} {get : δ → Option β} {set : δ → β → δ}
  {read : Reader β} {get' : δ → Option γ} {set' : δ → γ → δ} {read' : Reader γ}

theorem Holds.injective (h : Holds get set) (draft : δ) : Function.Injective (set draft) := by
  intro value value' heq
  have hvalue := h draft value
  rw [heq, h draft value'] at hvalue
  exact (Option.some.inj hvalue).symm

theorem Reads.exists_of_field (hholds : Holds get set) {draft later : δ} {text : List Char}
    (h : Reads ((Field.of name optional get set read).read draft) text later) :
    ∃ value, Reads read text value ∧ later = set draft value :=
  h.exists_of_map (hholds.injective draft)

theorem Field.isSet_of (hholds : Holds get set) {draft later : δ} {text : List Char}
    (h : Reads ((Field.of name optional get set read).read draft) text later) :
    (Field.of name optional get set read).isSet later := by
  obtain ⟨value, -, rfl⟩ := h.exists_of_field hholds
  simp [Field.of, hholds draft value]

structure Field.Apart (f g : Field δ) : Prop where
  isSet : ∀ {draft text later}, Reads (f.read draft) text later → g.isSet later = g.isSet draft
  swap : ∀ {draft text later text' last}, Reads (f.read draft) text later →
    Reads (g.read later) text' last →
      ∃ later', Reads (g.read draft) text' later' ∧ Reads (f.read later') text last

theorem Field.apart_of (hholds : Holds get set) (hholds' : Holds get' set')
    (hget : ∀ draft value, get' (set draft value) = get' draft)
    (hset : ∀ draft value value', set' (set draft value) value' = set (set' draft value') value) :
    Field.Apart (.of name optional get set read) (.of name' optional' get' set' read') where
  isSet h := by
    obtain ⟨value, -, rfl⟩ := h.exists_of_field hholds
    simp only [Field.of, hget]
  swap h h' := by
    obtain ⟨value, hread, rfl⟩ := h.exists_of_field hholds
    obtain ⟨value', hread', rfl⟩ := h'.exists_of_field hholds'
    rw [hset]
    exact ⟨_, hread'.field, hread.field⟩

end Field

namespace Schema

variable {α β δ : Type} {schema : Schema δ α} {draft last : δ} {parts parts' : List Part}

/-- Each field is set once it has been read, and is kept apart from the others. -/
structure Separate (schema : Schema δ α) : Prop where
  sets : ∀ field ∈ schema.fields, ∀ {draft text later},
    Reads (field.read draft) text later → field.isSet later
  apart : ∀ f ∈ schema.fields, ∀ g ∈ schema.fields, f.name ≠ g.name → f.Apart g

theorem name_of_find? {key : String} {field : Field δ}
    (h : schema.fields.find? (·.name == key) = some field) : field.name = key := by
  simpa using List.find?_some h

theorem Gathers.swap (hseparate : schema.Separate) {p q : Part}
    (h : schema.Gathers draft (p :: q :: parts) last) : schema.Gathers draft (q :: p :: parts) last := by
  cases h with
  | other hother hform hrest =>
    cases hrest with
    | other hother' hform' hrest => exact .other hother' hform' (.other hother hform hrest)
    | field hfield hopen hread hrest => exact .field hfield hopen hread (.other hother hform hrest)
  | @field _ later _ key text _ f hf hopen hread hrest =>
    cases hrest with
    | other hother hform hrest => exact .other hother hform (.field hf hopen hread hrest)
    | @field _ last' _ key' text' _ g hg hopen' hread' hrest =>
      have hmem := List.mem_of_find?_eq_some hf
      have hmem' := List.mem_of_find?_eq_some hg
      have hne : f.name ≠ g.name := by
        intro heq
        -- A field that has just been read is not open.
        rw [← name_of_find? hf, heq, name_of_find? hg, hg] at hf
        obtain rfl := Option.some.inj hf
        rw [hseparate.sets g hmem' hread] at hopen'
        cases hopen'
      have happart := hseparate.apart f hmem g hmem' hne
      obtain ⟨later', hearlier, hafter⟩ := happart.swap hread hread'
      have hsame := (hseparate.apart g hmem' f hmem hne.symm).isSet hearlier
      exact .field hg (happart.isSet hread ▸ hopen') hearlier (.field hf (hsame.trans hopen) hafter hrest)

theorem Gathers.perm (hseparate : schema.Separate) (hperm : parts.Perm parts')
    (h : schema.Gathers draft parts last) : schema.Gathers draft parts' last := by
  induction hperm generalizing draft with
  | nil => exact h
  | cons part _ ih =>
    cases h with
    | field hfield hopen hread hrest => exact .field hfield hopen hread (ih hrest)
    | other hother hform hrest => exact .other hother hform (ih hrest)
  | swap => exact h.swap hseparate
  | trans _ _ ih ih' => exact ih' (ih h)

/-- A field is set only by a member under its name. -/
theorem Gathers.isSet_eq (hseparate : schema.Separate) {field : Field δ} {key : String}
    (hfield : schema.fields.find? (·.name == key) = some field)
    (h : schema.Gathers draft parts last) (hnone : ∀ part ∈ parts, part.key? ≠ some key) :
    field.isSet last = field.isSet draft := by
  induction h with
  | nil => rfl
  | other _ _ _ ih => exact ih fun part hpart => hnone part (List.mem_cons_of_mem _ hpart)
  | @field draft later last key' text parts f hf _ hread _ ih =>
    have hne : f.name ≠ field.name := by
      rw [name_of_find? hf, name_of_find? hfield]
      exact fun heq => hnone _ List.mem_cons_self (congrArg some heq)
    have happart := hseparate.apart f (List.mem_of_find?_eq_some hf) field
      (List.mem_of_find?_eq_some hfield) hne
    rw [ih fun part hpart => hnone part (List.mem_cons_of_mem _ hpart), happart.isSet hread]

theorem Gathers.isSet_mono (hseparate : schema.Separate) {field : Field δ} {key : String}
    (hfield : schema.fields.find? (·.name == key) = some field)
    (h : schema.Gathers draft parts last) (hset : field.isSet draft) : field.isSet last := by
  induction h with
  | nil => exact hset
  | other _ _ _ ih => exact ih hset
  | @field draft later last key' text parts f hf hopen hread _ ih =>
    have hne : f.name ≠ field.name := by
      intro heq
      rw [← name_of_find? hf, heq, name_of_find? hfield, hfield] at hf
      obtain rfl := Option.some.inj hf
      rw [hset] at hopen
      cases hopen
    have happart := hseparate.apart f (List.mem_of_find?_eq_some hf) field
      (List.mem_of_find?_eq_some hfield) hne
    exact ih ((happart.isSet hread).trans hset)

/-- Where every field that is set in the end was set before, all members stand under other keys. -/
theorem Gathers.eq_of_isSet (hseparate : schema.Separate) (h : schema.Gathers draft parts last)
    (hset : ∀ field ∈ schema.fields, field.isSet last → field.isSet draft) :
    last = draft ∧ ∀ part ∈ parts, ∃ key, part.key? = some key ∧
      schema.fields.find? (·.name == key) = none := by
  induction h with
  | nil => exact ⟨rfl, by simp⟩
  | @other draft last key text parts hother _ _ ih =>
    obtain ⟨hlast, hparts⟩ := ih hset
    exact ⟨hlast, List.forall_mem_cons.mpr ⟨⟨key, rfl, hother⟩, hparts⟩⟩
  | @field draft later last key text parts field hfield hopen hread hrest _ =>
    have hmem := List.mem_of_find?_eq_some hfield
    rw [hset field hmem (hrest.isSet_mono hseparate hfield (hseparate.sets field hmem hread))] at hopen
    cases hopen

theorem gathers_of_others (draft : δ) (hparts : ∀ part ∈ parts, ∃ key, part.key? = some key ∧
      schema.fields.find? (·.name == key) = none) (hforms : ∀ part ∈ parts, Form .value part.text) :
    schema.Gathers draft parts draft := by
  induction parts with
  | nil => exact .nil draft
  | cons part parts ih =>
    rw [List.forall_mem_cons] at hparts hforms
    obtain ⟨⟨key, hkey, hother⟩, hparts⟩ := hparts
    obtain ⟨key?, text⟩ := part
    obtain rfl : key? = some key := hkey
    exact .other hother hforms.1 (ih hparts hforms.2)

variable {β : Type} {name : String} {optional : Bool} {get : δ → Option β} {set : δ → β → δ}
  {read : Reader β}

/-- A field that comes to be set can be read before all others. -/
theorem Gathers.exists_perm (hseparate : schema.Separate) (hholds : Holds get set)
    (hfield : schema.fields.find? (·.name == name) = some (.of name optional get set read))
    (h : schema.Gathers draft parts last) (hopen : get draft = none) (hset : (get last).isSome) :
    ∃ text value rest, parts.Perm (⟨some name, text⟩ :: rest) ∧ Reads read text value ∧
      schema.Gathers (set draft value) rest last := by
  obtain ⟨text, hmem⟩ : ∃ text, ⟨some name, text⟩ ∈ parts := by
    by_contra hnone
    have hsame := h.isSet_eq hseparate hfield fun part hpart hkey =>
      hnone ⟨part.text, by rwa [← hkey]⟩
    simp only [Field.of, hopen, Option.isSome_none] at hsame
    rw [hset] at hsame
    cases hsame
  have hperm := List.perm_cons_erase hmem
  have hfront := h.perm hseparate hperm
  cases hfront with
  | other hother =>
    rw [hfield] at hother
    cases hother
  | field hfield' _ hread hrest =>
    obtain rfl := Option.some.inj (hfield.symm.trans hfield')
    obtain ⟨value, hvalue, rfl⟩ := hread.exists_of_field hholds
    exact ⟨text, value, _, hperm, hvalue, hrest⟩

/-- A field that must not be left out of a list is read from its first item. -/
theorem Aligns.exists_item (hholds : Holds get set) {fields : List (Field δ)}
    (hforms : ∀ part ∈ parts, Form .value part.text)
    (h : Aligns draft (.of name false get set read :: fields) parts last) :
    ∃ text value rest, parts = ⟨none, text⟩ :: rest ∧ (∀ part ∈ rest, Form .value part.text) ∧
      Accepts read text value ∧ Aligns (set draft value) fields rest last := by
  cases h with
  | omitted hoptional => cases hoptional
  | item _ hread hrest =>
    obtain ⟨value, hvalue, rfl⟩ := hread.exists_of_field hholds
    obtain ⟨hform, hforms⟩ := List.forall_mem_cons.mp hforms
    exact ⟨_, value, _, rfl, hforms, ⟨hform, hvalue⟩, hrest⟩

theorem find?_eq_none_iff {key : String} :
    schema.fields.find? (·.name == key) = none ↔ key ∉ schema.fields.map Field.name := by
  simp

theorem Gathers.append {middle : δ} (h : schema.Gathers draft parts middle)
    (h' : schema.Gathers middle parts' last) : schema.Gathers draft (parts ++ parts') last := by
  induction h with
  | nil => exact h'
  | field hfield hopen hread _ ih => exact .field hfield hopen hread (ih h')
  | other hother hform _ ih => exact .other hother hform (ih h')

end Schema

/-- An object with certain members, in any order and among others that have none of some names. -/
inductive Comprises (names : List String) (members : List Part) (text : List Char) : Prop
  | object {parts others} (htext : Outline .object parts text) (hparts : parts.Perm (members ++ others))
    (hothers : ∀ part ∈ others, ∃ key, part.key? = some key ∧ key ∉ names)

theorem Comprises.perm {names : List String} {members members' : List Part} {text : List Char}
    (h : Comprises names members text) (hperm : members.Perm members') : Comprises names members' text := by
  obtain ⟨htext, hparts, hothers⟩ := h
  exact .object htext (hparts.trans (hperm.append_right _)) hothers

/-- A record is written as an object with the members that it is gathered from. -/
theorem Comprises.written {α δ : Type} {schema : Schema δ α} {names : List String} {members : List Part}
    {text : List Char} (h : Comprises names members text) (hseparate : schema.Separate)
    (hnames : schema.fields.map Field.name ⊆ names) {draft : δ}
    (hmembers : schema.Gathers schema.blank members draft) {record : α}
    (hbuild : schema.build draft = some record) : schema.Written record text := by
  obtain ⟨htext, hparts, hothers⟩ := h
  have hgathers := hmembers.append <| Schema.gathers_of_others draft
    (fun part hpart => by
      obtain ⟨key, hkey, hname⟩ := hothers part hpart
      exact ⟨key, hkey, Schema.find?_eq_none_iff.mpr fun hmem => hname (hnames hmem)⟩)
    (fun part hpart => htext.forms part (hparts.mem_iff.mpr (List.mem_append_right members hpart)))
  exact .object htext (hgathers.perm hseparate hparts.symm) hbuild

namespace Schema

variable {α β δ : Type} {schema : Schema δ α} {draft last : δ} {text : List Char} {taken : List Part}

/-- An object of which some members have been taken into a draft, and the others are still to be gathered. -/
inductive Partly (schema : Schema δ α) (text : List Char) (taken : List Part) (draft last : δ) : Prop
  | rest {parts rest} (htext : Outline .object parts text) (hparts : parts.Perm (taken ++ rest))
    (hrest : schema.Gathers draft rest last)

/-- The member of a field that comes to be set can be taken next. -/
theorem Partly.exists_member (hseparate : schema.Separate) {name : String} {optional : Bool}
    {get : δ → Option β} {set : δ → β → δ} {read : Reader β} (hholds : Holds get set)
    (hfield : schema.fields.find? (·.name == name) = some (.of name optional get set read))
    (h : schema.Partly text taken draft last) (hopen : get draft = none) (hset : (get last).isSome) :
    ∃ member value, Accepts read member value ∧
      schema.Partly text (taken ++ [⟨some name, member⟩]) (set draft value) last := by
  obtain ⟨htext, hparts, hrest⟩ := h
  obtain ⟨member, value, rest, hperm, hread, hrest⟩ := hrest.exists_perm hseparate hholds hfield hopen hset
  have htaken := hparts.trans (hperm.append_left taken)
  have hmem := htaken.mem_iff.mpr (List.mem_append_right taken List.mem_cons_self)
  rw [List.append_cons] at htaken
  exact ⟨member, value, ⟨htext.forms _ hmem, hread⟩, .rest htext htaken hrest⟩

/-- Where no other field comes to be set, the object comprises the members that have been taken. -/
theorem Partly.comprises (hseparate : schema.Separate) (h : schema.Partly text taken draft last)
    (hset : ∀ field ∈ schema.fields, field.isSet last → field.isSet draft) {names : List String}
    (hnames : names ⊆ schema.fields.map Field.name) : last = draft ∧ Comprises names taken text := by
  obtain ⟨htext, hparts, hrest⟩ := h
  obtain ⟨hlast, hothers⟩ := hrest.eq_of_isSet hseparate hset
  refine ⟨hlast, .object htext hparts fun part hpart => ?_⟩
  obtain ⟨key, hkey, hnone⟩ := hothers part hpart
  exact ⟨key, hkey, fun hmem => find?_eq_none_iff.mp hnone (hnames hmem)⟩

end Schema
end CallGraph.Json
