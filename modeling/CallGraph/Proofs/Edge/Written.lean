import CallGraph.Edge.Json
import CallGraph.Proofs.Json.Order

/-! The texts that stand for kinds and edges. -/
namespace CallGraph

open Json

namespace Kind

theorem exact_read : Exact read :=
  exact_text.map ofLabel

theorem accepts_iff {k : Kind} {text : List Char} :
    Accepts read text k ↔ ∃ label, Spelled label text ∧ k = ofLabel label := by
  constructor
  · intro h
    obtain ⟨⟨label, _⟩, hread, ⟨⟩⟩ := exists_of_map h.read_eq
    exact ⟨label, h.form.begins.whole (exists_spelled_of_readText hread), rfl⟩
  · rintro ⟨label, hspelled, rfl⟩
    exact ⟨hspelled.accepts.form, hspelled.accepts.reads.map ofLabel⟩

end Kind

namespace EdgeDraft

theorem holds_source : Holds source? fun d v => { d with source? := some v } := fun _ _ => rfl

theorem holds_target : Holds target? fun d v => { d with target? := some v } := fun _ _ => rfl

theorem holds_kind : Holds kind? fun d v => { d with kind? := some v } := fun _ _ => rfl

def whole (e : Edge) : EdgeDraft :=
  ⟨some e.source, some e.target, some e.kind⟩

theorem complete?_eq_some {draft : EdgeDraft} {e : Edge} :
    draft.complete? = some e ↔ draft = whole e := by
  obtain ⟨source?, target?, kind?⟩ := draft
  constructor
  · intro h
    simp only [complete?, Option.bind_eq_bind, Option.bind_eq_some_iff] at h
    obtain ⟨_, rfl, _, rfl, _, rfl, h⟩ := h
    cases h
    rfl
  · intro h
    rw [h]
    rfl

end EdgeDraft

namespace Edge

open EdgeDraft

variable {name : String} {method : Schema MethodDraft Method}

theorem separate_schema (name : String) (method : Schema MethodDraft Method) :
    (schemaOver name method).Separate where
  sets := by
    intro field hfield draft text later h
    simp only [schemaOver, List.mem_cons, List.not_mem_nil, or_false] at hfield
    rcases hfield with rfl | rfl | rfl
    · exact Field.isSet_of holds_source h
    · exact Field.isSet_of holds_target h
    · exact Field.isSet_of holds_kind h
  apart := by
    intro f hf g hg hne
    simp only [schemaOver, List.mem_cons, List.not_mem_nil, or_false] at hf hg
    rcases hf with rfl | rfl | rfl <;> rcases hg with rfl | rfl | rfl <;>
      first
      | exact absurd rfl hne
      | exact Field.apart_of (fun _ _ => rfl) (fun _ _ => rfl) (fun _ _ => rfl) fun _ _ _ => rfl

theorem exact_field (hmethod : Exact method.read) :
    ∀ field ∈ (schemaOver name method).fields, ∀ draft, Exact (field.read draft) := by
  intro field hfield draft
  simp only [schemaOver, List.mem_cons, List.not_mem_nil, or_false] at hfield
  rcases hfield with rfl | rfl | rfl
  · exact hmethod.field draft
  · exact hmethod.field draft
  · exact Kind.exact_read.field draft

/-- An edge as an object with its members in any order and unknown ones among them, or as a list of their
values, where the texts of methods are given. Its kind may be spelled as any label that stands for it. -/
inductive Written (method : Method → List Char → Prop) (e : Edge) (text : List Char) : Prop
  | object {source target kind label} (hsource : method e.source source) (htarget : method e.target target)
    (hkind : Spelled label kind) (hlabel : e.kind = .ofLabel label)
    (htext : Comprises ["src", "tgt", "kind"]
      [⟨some "src", source⟩, ⟨some "tgt", target⟩, ⟨some "kind", kind⟩] text)
  | list {source target kind label} (hsource : method e.source source) (htarget : method e.target target)
    (hkind : Spelled label kind) (hlabel : e.kind = .ofLabel label)
    (htext : Outline .list [⟨none, source⟩, ⟨none, target⟩, ⟨none, kind⟩] text)

theorem Written.exists_outline {method : Method → List Char → Prop} {e : Edge} {text : List Char}
    (h : e.Written method text) : ∃ frame parts, Outline frame parts text := by
  cases h with
  | object _ _ _ _ htext =>
    obtain ⟨htext, -⟩ := htext
    exact ⟨_, _, htext⟩
  | list _ _ _ _ htext => exact ⟨_, _, htext⟩

theorem Written.accepts {e : Edge} {text : List Char}
    (h : e.Written (fun m value => Accepts method.read value m) text) :
    Accepts (schemaOver name method).read text e := by
  have hbuild : (schemaOver name method).build (whole e) = some e := rfl
  have hlabelled {label : String} {kind : List Char} (hspelled : Spelled label kind)
      (hlabel : e.kind = .ofLabel label) : Accepts Kind.read kind e.kind :=
    Kind.accepts_iff.mpr ⟨label, hspelled, hlabel⟩
  refine Schema.Written.accepts ?_
  cases h with
  | object hsource htarget hkind hlabel htext =>
    refine htext.written (separate_schema name method) (by simp [schemaOver, Field.of]) ?_ hbuild
    refine .field rfl rfl hsource.reads.field ?_
    refine .field rfl rfl htarget.reads.field ?_
    exact .field rfl rfl (hlabelled hkind hlabel).reads.field (.nil _)
  | list hsource htarget hkind hlabel htext =>
    refine .list htext ?_ hbuild
    refine .item hsource.form.begins hsource.reads.field ?_
    refine .item htarget.form.begins htarget.reads.field ?_
    exact .item hkind.accepts.form.begins (hlabelled hkind hlabel).reads.field (.nil _)

theorem Written.of_object {e : Edge} {parts : List Part} {text : List Char}
    (htext : Outline .object parts text)
    (hparts : (schemaOver name method).Gathers (schemaOver name method).blank parts (whole e)) :
    e.Written (fun m value => Accepts method.read value m) text := by
  have hseparate := separate_schema name method
  have hsource : (schemaOver name method).fields.find? (·.name == "src") = some
      (.of "src" false EdgeDraft.source? (fun d v => { d with source? := some v }) method.read) := rfl
  have htarget : (schemaOver name method).fields.find? (·.name == "tgt") = some
      (.of "tgt" false EdgeDraft.target? (fun d v => { d with target? := some v }) method.read) := rfl
  have hkind : (schemaOver name method).fields.find? (·.name == "kind") = some
      (.of "kind" false EdgeDraft.kind? (fun d v => { d with kind? := some v }) Kind.read) := rfl
  have h : (schemaOver name method).Partly text [] (schemaOver name method).blank (whole e) :=
    .rest htext (.refl _) hparts
  obtain ⟨source, _, hsource, h⟩ := h.exists_member hseparate holds_source hsource rfl rfl
  obtain ⟨target, _, htarget, h⟩ := h.exists_member hseparate holds_target htarget rfl rfl
  obtain ⟨kind, _, hkind, h⟩ := h.exists_member hseparate holds_kind hkind rfl rfl
  have hset : ∀ field ∈ (schemaOver name method).fields, ∀ s t k, field.isSet ⟨some s, some t, some k⟩ := by
    simp [schemaOver, Field.of]
  have hnames : ["src", "tgt", "kind"] ⊆ (schemaOver name method).fields.map Field.name := by
    simp [schemaOver, Field.of]
  obtain ⟨hlast, hcomprises⟩ := h.comprises hseparate (fun field hfield _ => hset field hfield ..) hnames
  cases hlast
  obtain ⟨label, hspelled, hlabel⟩ := Kind.accepts_iff.mp hkind
  exact .object hsource htarget hspelled hlabel hcomprises

theorem Written.of_list {e : Edge} {parts : List Part} {text : List Char} (htext : Outline .list parts text)
    (hparts : Schema.Aligns (schemaOver name method).blank (schemaOver name method).fields parts (whole e)) :
    e.Written (fun m value => Accepts method.read value m) text := by
  obtain ⟨source, _, _, rfl, hforms, hsource, hparts⟩ := hparts.exists_item holds_source htext.forms
  obtain ⟨target, _, _, rfl, hforms, htarget, hparts⟩ := hparts.exists_item holds_target hforms
  obtain ⟨kind, _, _, rfl, -, hkind, hparts⟩ := hparts.exists_item holds_kind hforms
  cases hparts
  obtain ⟨label, hspelled, hlabel⟩ := Kind.accepts_iff.mp hkind
  exact .list hsource htarget hspelled hlabel htext

/-- What is read as an edge is written as one. -/
theorem written_iff (hmethod : Exact method.read) {e : Edge} {text : List Char} :
    Accepts (schemaOver name method).read text e ↔
      e.Written (fun m value => Accepts method.read value m) text := by
  refine ⟨fun h => ?_, Written.accepts⟩
  cases (Schema.accepts_iff_written (exact_field hmethod)).mp h with
  | object htext hparts hbuild =>
    obtain rfl := complete?_eq_some.mp hbuild
    exact .of_object htext hparts
  | list htext hparts hbuild =>
    obtain rfl := complete?_eq_some.mp hbuild
    exact .of_list htext hparts

end Edge
end CallGraph
