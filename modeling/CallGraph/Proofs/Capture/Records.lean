import CallGraph.Capture.Record
import CallGraph.Proofs.Json.Record
import CallGraph.Proofs.Kind

/-! The records of a capture are read back from the objects with which they are written. -/
namespace CallGraph

open Json

theorem Kind.reads (label : String) :
    Reads Kind.read (chars (ofLabel label).toJson.pieces) (ofLabel label) := by
  intro gap rest hgap hrest
  have hread := reads_text (ofLabel label).label gap rest hgap hrest
  simp only [Kind.read, Kind.toJson, Value.pieces, hread, Except.map, Kind.ofLabel_label]

namespace Capture

theorem reads_method (m : Method) : Reads methodSchema.read (chars m.toJson.pieces) m := by
  have htext (s : String) : Reads readText (chars (Value.text s).pieces) s := reads_text s
  have hpackage : Reads (readOptional readText) (chars (Value.text m.package).pieces) (some m.package) :=
    (htext m.package).optional (chars_textPieces m.package) rfl (by decide)
  refine Schema.reads_object ⟨some m.owner, some m.name, some (some m.package), some m.signature⟩
    (bracket_object _) ?_ rfl
  refine .field rfl rfl (htext m.owner).field ?_
  refine .field rfl rfl (htext m.name).field ?_
  refine .field rfl rfl hpackage.field ?_
  exact .field rfl rfl (htext m.signature).field (.nil _)

/-- An edge is read back if its kind is one that a label stands for. -/
theorem reads_edge {e : Edge} {label : String} (hkind : e.kind = Kind.ofLabel label) :
    Reads edgeSchema.read (chars e.toJson.pieces) e := by
  have hkind : Reads Kind.read (chars e.kind.toJson.pieces) e.kind := hkind ▸ Kind.reads label
  refine Schema.reads_object ⟨some e.source, some e.target, some e.kind⟩ (bracket_object _) ?_ rfl
  refine .field rfl rfl (reads_method e.source).field ?_
  refine .field rfl rfl (reads_method e.target).field ?_
  exact .field rfl rfl hkind.field (.nil _)

namespace Header

/-- A header as an object: its two members in either order, with any blanks between their parts. -/
inductive Written (h : Header) : List Char → Prop
  | object (edges methods : Member) (hedges : edges.key = "edges" ∧ edges.value = (toString h.edges).toList)
    (hmethods : methods.key = "reachable_methods" ∧ methods.value = (toString h.methods).toList)
    (hspaced : edges.Spaced ∧ methods.Spaced) (members : List Member)
    (hmembers : members = [edges, methods] ∨ members = [methods, edges]) :
    Written h (objectText members)

theorem Written.reads {h : Header} {text : List Char} (hwritten : h.Written text) :
    Reads Header.schema.read text h := by
  obtain ⟨edges, methods, ⟨hedgesKey, hedges⟩, ⟨hmethodsKey, hmethods⟩, ⟨hspaced, hspaced'⟩, members,
    hmembers⟩ := hwritten
  have hedges := hedges ▸ reads_count h.edges
  have hmethods := hmethods ▸ reads_count h.methods
  have hall : ∀ m ∈ members, m.Spaced := by
    rcases hmembers with rfl | rfl <;> simp [hspaced, hspaced']
  refine Schema.reads_object ⟨some h.edges, some h.methods⟩ (bracket_objectText hall) ?_ rfl
  rcases hmembers with rfl | rfl
  · refine .field (by rw [hedgesKey]; rfl) rfl hedges.field ?_
    exact .field (by rw [hmethodsKey]; rfl) rfl hmethods.field (.nil _)
  · refine .field (by rw [hmethodsKey]; rfl) rfl hmethods.field ?_
    exact .field (by rw [hedgesKey]; rfl) rfl hedges.field (.nil _)

theorem written_toJson (h : Header) : h.Written (chars h.toJson.pieces) := by
  have hdigits (s : String) : chars [s] = s.toList := by simp
  rw [toJson, chars_object]
  exact .object (.compact "edges" _) (.compact "reachable_methods" _) ⟨rfl, hdigits _⟩ ⟨rfl, hdigits _⟩
    ⟨Member.spaced_compact .., Member.spaced_compact ..⟩ _ (.inl rfl)

end Header
end Capture
end CallGraph
