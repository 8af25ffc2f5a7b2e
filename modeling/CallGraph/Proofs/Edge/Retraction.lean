import CallGraph.Proofs.Edge.Written
import CallGraph.Proofs.Kind
import CallGraph.Proofs.Method.Written

/-!
Methods, kinds and edges are parsed back from their serialized text. Of all the texts that stand for a
value, that one is chosen again whichever of them is parsed and serialized.
-/
namespace CallGraph

open Json

/-- Serializing is a retraction of parsing, on the values that can be parsed at all. -/
structure Retraction {α : Type} (read : Reader α) (toJson : α → Value) (Regular : α → Prop)
    (Written : α → List Char → Prop) : Prop where
  /-- The texts that are accepted are the written forms, with blanks around them. -/
  accepted : ∀ (text : String) (a : α), parse read text.toList = .ok a ↔
    ∃ gap body gap', Gap gap ∧ Gap gap' ∧ Written a body ∧ text.toList = gap ++ body ++ gap'
  /-- A value that is serialized is parsed as it was. -/
  back : ∀ a, Regular a → parse read (toJson a).render.toList = .ok a
  /-- The value of an accepted text is serialized to a text that is accepted for the same value and is
  serialized to itself. -/
  again : ∀ (text : String) (a : α), parse read text.toList = .ok a → Regular a ∧
    parse read (toJson a).render.toList = .ok a ∧
    ∀ b, parse read (toJson a).render.toList = .ok b → (toJson b).render = (toJson a).render

theorem retraction_of_written {α : Type} {read : Reader α} {toJson : α → Value} {Regular : α → Prop}
    {Written : α → List Char → Prop} (hexact : Exact read)
    (hwritten : ∀ a text, Accepts read text a ↔ Written a text)
    (hback : ∀ a, Regular a → Written a (chars (toJson a).pieces))
    (hregular : ∀ a text, Written a text → Regular a) : Retraction read toJson Regular Written := by
  have haccepted (text : List Char) (a : α) : parse read text = .ok a ↔
      ∃ gap body gap', Gap gap ∧ Gap gap' ∧ Written a body ∧ text = gap ++ body ++ gap' := by
    simp only [hexact.parse_iff, hwritten]
  have hserialized (a : α) (ha : Regular a) : parse read (toJson a).render.toList = .ok a := by
    rw [haccepted, toList_render]
    exact ⟨[], _, [], gap_nil, gap_nil, hback a ha, by simp [chars]⟩
  refine ⟨fun text a => haccepted text.toList a, hserialized, fun text a hparse => ?_⟩
  obtain ⟨_, _, _, -, -, hbody, -⟩ := (haccepted text.toList a).mp hparse
  have ha := hregular a _ hbody
  refine ⟨ha, hserialized a ha, fun b hb => ?_⟩
  rw [hserialized a ha] at hb
  rw [Except.ok.inj hb]

/-- An object that is serialized comprises its members and no others. -/
theorem comprises_object (names : List String) {members : List (String × Value)} {parts : List Part}
    (hforms : ∀ m ∈ members, Form .value (chars m.2.pieces))
    (hparts : members.map (fun m => ⟨some m.1, chars m.2.pieces⟩) = parts) :
    Comprises names parts (chars (Value.object members).pieces) :=
  .object (outline_object hforms) (.of_eq (by rw [hparts, List.append_nil])) (by simp)

theorem Method.written_toJson (m : Method) : m.Written (chars m.toJson.pieces) := by
  refine .object (spelled_pieces m.owner) (spelled_pieces m.name) (spelled_pieces m.package)
    (spelled_pieces m.signature) (comprises_object _ ?_ rfl)
  simp [form_text]

theorem Kind.written_toJson {k : Kind} {label : String} (hlabel : k = .ofLabel label) :
    ∃ s, Spelled s (chars k.toJson.pieces) ∧ k = .ofLabel s :=
  ⟨k.label, spelled_pieces k.label, by rw [hlabel, Kind.ofLabel_label]⟩

theorem Edge.written_toJson {e : Edge} {label : String} (hlabel : e.kind = .ofLabel label) :
    e.Written Method.Written (chars e.toJson.pieces) := by
  obtain ⟨s, hspelled, hkind⟩ := Kind.written_toJson hlabel
  refine .object (Method.written_toJson e.source) (Method.written_toJson e.target) hspelled hkind
    (comprises_object _ ?_ rfl)
  simp [(Method.written_toJson _).accepts.form, hspelled.accepts.form]

/-- Methods, kinds that a label stands for, and edges of such kinds. -/
theorem Edge.retractions :
    Retraction Method.schema.read Method.toJson (fun _ => True) Method.Written ∧
    Retraction Kind.read Kind.toJson (fun k => ∃ label, k = .ofLabel label)
      (fun k text => ∃ label, Spelled label text ∧ k = .ofLabel label) ∧
    Retraction Edge.schema.read Edge.toJson (fun e => ∃ label, e.kind = .ofLabel label)
      (Edge.Written Method.Written) := by
  refine ⟨?_, ?_, ?_⟩
  · exact retraction_of_written Method.exact_read (fun _ _ => Method.written_iff)
      (fun m _ => m.written_toJson) fun _ _ _ => trivial
  · refine retraction_of_written Kind.exact_read (fun _ _ => Kind.accepts_iff) ?_ ?_
    · rintro k ⟨label, hlabel⟩
      exact Kind.written_toJson hlabel
    · rintro k text ⟨label, -, hlabel⟩
      exact ⟨label, hlabel⟩
  · refine retraction_of_written (Schema.exact_read (Edge.exact_field Method.exact_read)) ?_ ?_ ?_
    · intro e text
      rw [Edge.schema, Edge.written_iff Method.exact_read]
      simp only [Method.written_iff]
    · rintro e ⟨label, hlabel⟩
      exact Edge.written_toJson hlabel
    · rintro e text (⟨-, -, -, hlabel, -⟩ | ⟨-, -, -, hlabel, -⟩)
      · exact ⟨_, hlabel⟩
      · exact ⟨_, hlabel⟩

end CallGraph
