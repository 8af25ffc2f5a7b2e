import CallGraph.Method.Json
import CallGraph.Proofs.Json.Order

/-! The texts that stand for methods. -/
namespace CallGraph

open Json

namespace MethodDraft

theorem holds_owner : Holds owner? fun d v => { d with owner? := some v } := fun _ _ => rfl

theorem holds_name : Holds name? fun d v => { d with name? := some v } := fun _ _ => rfl

theorem holds_package : Holds package? fun d v => { d with package? := some v } := fun _ _ => rfl

theorem holds_signature : Holds signature? fun d v => { d with signature? := some v } := fun _ _ => rfl

def fields : List (Json.Field MethodDraft) :=
  [ownerField, nameField, packageField, optionalPackageField, signatureField]

theorem separate {schema : Schema MethodDraft Method} (hfields : schema.fields ⊆ fields) :
    schema.Separate where
  sets := by
    intro field hfield draft text later h
    have hmem := hfields hfield
    simp only [fields, List.mem_cons, List.not_mem_nil, or_false] at hmem
    rcases hmem with rfl | rfl | rfl | rfl | rfl
    · exact Field.isSet_of holds_owner h
    · exact Field.isSet_of holds_name h
    · exact Field.isSet_of holds_package h
    · exact Field.isSet_of holds_package h
    · exact Field.isSet_of holds_signature h
  apart := by
    intro f hf g hg hne
    have hmem := hfields hf
    have hmem' := hfields hg
    simp only [fields, List.mem_cons, List.not_mem_nil, or_false] at hmem hmem'
    rcases hmem with rfl | rfl | rfl | rfl | rfl <;> rcases hmem' with rfl | rfl | rfl | rfl | rfl <;>
      first
      | exact absurd rfl hne
      | exact Field.apart_of (fun _ _ => rfl) (fun _ _ => rfl) (fun _ _ => rfl) fun _ _ _ => rfl

theorem exact_field {field : Json.Field MethodDraft} (hfield : field ∈ fields) (draft : MethodDraft) :
    Exact (field.read draft) := by
  simp only [fields, List.mem_cons, List.not_mem_nil, or_false] at hfield
  rcases hfield with rfl | rfl | rfl | rfl | rfl
  · exact exact_text.field draft
  · exact exact_text.field draft
  · exact (exact_text.map some).field draft
  · exact exact_text.optional.field draft
  · exact exact_text.field draft

def whole (m : Method) : MethodDraft :=
  ⟨some m.owner, some m.name, some (some m.package), some m.signature⟩

theorem complete?_eq_some {draft : MethodDraft} {m : Method} :
    draft.complete? = some m ↔ draft = whole m := by
  obtain ⟨owner?, name?, package?, signature?⟩ := draft
  obtain ⟨owner, name, package, signature⟩ := m
  constructor
  · intro h
    simp only [complete?, Option.bind_eq_bind, Option.bind_eq_some_iff] at h
    obtain ⟨_, rfl, _, rfl, _, rfl, _, rfl, _, rfl, h⟩ := h
    cases h
    rfl
  · intro h
    rw [h]
    rfl

end MethodDraft

namespace Method

open MethodDraft

theorem fields_subset : schema.fields ⊆ fields := by
  simp [schema, fields]

theorem exact_read : Exact schema.read :=
  Schema.exact_read fun _ hfield => exact_field (fields_subset hfield)

/-- A method as an object with its members in any order and unknown ones among them, or as a list of its
texts. Each of the texts may be spelled in any way. -/
inductive Written (m : Method) (text : List Char) : Prop
  | object {owner name package signature} (howner : Spelled m.owner owner) (hname : Spelled m.name name)
    (hpackage : Spelled m.package package) (hsignature : Spelled m.signature signature)
    (htext : Comprises ["class", "name", "package", "sig"]
      [⟨some "class", owner⟩, ⟨some "name", name⟩, ⟨some "package", package⟩, ⟨some "sig", signature⟩] text)
  | list {owner name package signature} (howner : Spelled m.owner owner) (hname : Spelled m.name name)
    (hpackage : Spelled m.package package) (hsignature : Spelled m.signature signature)
    (htext : Outline .list [⟨none, owner⟩, ⟨none, name⟩, ⟨none, package⟩, ⟨none, signature⟩] text)

theorem Written.accepts {m : Method} {text : List Char} (h : m.Written text) :
    Accepts schema.read text m := by
  have hpresent {s : String} {text : List Char} (h : Spelled s text) :
      Reads (readPresent readText) text (some s) := h.accepts.reads.map some
  have hbuild : schema.build (whole m) = some m := rfl
  refine Schema.Written.accepts ?_
  cases h with
  | object howner hname hpackage hsignature htext =>
    refine htext.written (separate fields_subset) (by decide) ?_ hbuild
    refine .field rfl rfl howner.accepts.reads.field ?_
    refine .field rfl rfl hname.accepts.reads.field ?_
    refine .field rfl rfl (hpresent hpackage).field ?_
    exact .field rfl rfl hsignature.accepts.reads.field (.nil _)
  | list howner hname hpackage hsignature htext =>
    refine .list htext ?_ hbuild
    refine .item howner.accepts.form.begins howner.accepts.reads.field ?_
    refine .item hname.accepts.form.begins hname.accepts.reads.field ?_
    refine .item hpackage.accepts.form.begins (hpresent hpackage).field ?_
    exact .item hsignature.accepts.form.begins hsignature.accepts.reads.field (.nil _)

theorem spelled_of_present {s : String} {text : List Char}
    (h : Accepts (readPresent readText) text (some s)) : Spelled s text := by
  obtain ⟨value, hread, hvalue⟩ := h.reads.exists_of_map fun _ _ => Option.some.inj
  obtain rfl := Option.some.inj hvalue
  exact accepts_text_iff.mp ⟨h.form, hread⟩

theorem Written.of_object {m : Method} {parts : List Part} {text : List Char}
    (htext : Outline .object parts text) (hparts : schema.Gathers schema.blank parts (whole m)) :
    m.Written text := by
  have hseparate : schema.Separate := separate fields_subset
  have howner : schema.fields.find? (·.name == "class") = some ownerField := rfl
  have hname : schema.fields.find? (·.name == "name") = some nameField := rfl
  have hpackage : schema.fields.find? (·.name == "package") = some packageField := rfl
  have hsignature : schema.fields.find? (·.name == "sig") = some signatureField := rfl
  have h : schema.Partly text [] schema.blank (whole m) := .rest htext (.refl _) hparts
  obtain ⟨owner, _, howner, h⟩ := h.exists_member hseparate holds_owner howner rfl rfl
  obtain ⟨name, _, hname, h⟩ := h.exists_member hseparate holds_name hname rfl rfl
  obtain ⟨package, _, hpackage, h⟩ := h.exists_member hseparate holds_package hpackage rfl rfl
  obtain ⟨signature, _, hsignature, h⟩ := h.exists_member hseparate holds_signature hsignature rfl rfl
  have hset : ∀ field ∈ schema.fields, ∀ o n p s, field.isSet ⟨some o, some n, some p, some s⟩ := by
    simp [schema, ownerField, nameField, packageField, signatureField, Field.of]
  have hnames : ["class", "name", "package", "sig"] ⊆ schema.fields.map Field.name := by decide
  obtain ⟨hlast, hcomprises⟩ := h.comprises hseparate (fun field hfield _ => hset field hfield ..) hnames
  cases hlast
  exact .object (accepts_text_iff.mp howner) (accepts_text_iff.mp hname) (spelled_of_present hpackage)
    (accepts_text_iff.mp hsignature) hcomprises

theorem Written.of_list {m : Method} {parts : List Part} {text : List Char}
    (htext : Outline .list parts text) (hparts : Schema.Aligns schema.blank schema.fields parts (whole m)) :
    m.Written text := by
  obtain ⟨owner, _, _, rfl, hforms, howner, hparts⟩ := hparts.exists_item holds_owner htext.forms
  obtain ⟨name, _, _, rfl, hforms, hname, hparts⟩ := hparts.exists_item holds_name hforms
  obtain ⟨package, _, _, rfl, hforms, hpackage, hparts⟩ := hparts.exists_item holds_package hforms
  obtain ⟨signature, _, _, rfl, -, hsignature, hparts⟩ := hparts.exists_item holds_signature hforms
  cases hparts
  exact .list (accepts_text_iff.mp howner) (accepts_text_iff.mp hname) (spelled_of_present hpackage)
    (accepts_text_iff.mp hsignature) htext

/-- What is read as a method is written as one. -/
theorem written_iff {m : Method} {text : List Char} : Accepts schema.read text m ↔ m.Written text := by
  refine ⟨fun h => ?_, Written.accepts⟩
  have hexact : ∀ field ∈ schema.fields, ∀ draft, Exact (field.read draft) :=
    fun _ hfield => exact_field (fields_subset hfield)
  cases (Schema.accepts_iff_written hexact).mp h with
  | object htext hparts hbuild =>
    obtain rfl := complete?_eq_some.mp hbuild
    exact .of_object htext hparts
  | list htext hparts hbuild =>
    obtain rfl := complete?_eq_some.mp hbuild
    exact .of_list htext hparts

end Method
end CallGraph
