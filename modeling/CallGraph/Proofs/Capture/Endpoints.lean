import CallGraph.Capture.Record
import CallGraph.Proofs.Edge.Written
import CallGraph.Proofs.Method.Written

/-!
The endpoints of captured edges. An object is read as a captured method if it is one that stands for the
same method elsewhere, and otherwise only if it lacks a package.
-/
namespace CallGraph.Capture

open Json MethodDraft

theorem methodSchema_subset : methodSchema.fields ⊆ fields := by
  simp [methodSchema, fields]

theorem exact_method : ∀ field ∈ methodSchema.fields, ∀ draft, Exact (field.read draft) :=
  fun _ hfield => exact_field (methodSchema_subset hfield)

theorem separate_method : methodSchema.Separate :=
  separate methodSchema_subset

def IsObject (text : List Char) : Prop :=
  ∃ parts, Outline .object parts text

/-- An object that has no package but `null`. -/
def Unpackaged (text : List Char) : Prop :=
  ∃ parts, Outline .object parts text ∧
    ∀ part ∈ parts, part.key? = some "package" → part.text = "null".toList

/-- A method object is read as the same method in a capture. -/
theorem accepts_of_written {m : Method} {text : List Char} (h : m.Written text) (hobject : IsObject text) :
    Accepts methodSchema.read text m := by
  obtain ⟨parts, hparts⟩ := hobject
  cases h with
  | list _ _ _ _ htext => cases (htext.unique hparts).1
  | @object owner name package signature howner hname hpackage hsignature htext =>
    have hbuild : methodSchema.build (whole m) = some m := rfl
    obtain ⟨c, more, hbegin, hblank, hnull⟩ :
        ∃ c more, package = c :: more ∧ isBlank c = false ∧ c ≠ 'n' := by
      cases hpackage
      exact ⟨_, _, rfl, rfl, by decide⟩
    have hoptional : Reads (readOptional readText) package (some m.package) :=
      hpackage.accepts.reads.optional hbegin hblank hnull
    refine (htext.written separate_method (by decide) ?_ hbuild).accepts
    refine .field rfl rfl howner.accepts.reads.field ?_
    refine .field rfl rfl hname.accepts.reads.field ?_
    refine .field rfl rfl hoptional.field ?_
    exact .field rfl rfl hsignature.accepts.reads.field (.nil _)

theorem withPackage?_eq_some {draft : MethodDraft} {m : Method} (h : draft.withPackage? = some m) :
    ∃ package?, draft = ⟨some m.owner, some m.name, package?, some m.signature⟩ ∧
      m.package = package?.join.getD (packageOf m.owner) := by
  obtain ⟨owner?, name?, package?, signature?⟩ := draft
  simp only [withPackage?, Option.bind_eq_bind, Option.bind_eq_some_iff] at h
  obtain ⟨_, rfl, _, rfl, _, rfl, h⟩ := h
  cases h
  exact ⟨package?, rfl, rfl⟩

theorem unpackaged_of_comprises {names : List String} {members : List Part} {text : List Char}
    (htext : Comprises names members text) (hname : "package" ∈ names)
    (hmembers : ∀ part ∈ members, part.key? = some "package" → part.text = "null".toList) :
    Unpackaged text := by
  obtain ⟨htext, hparts, hothers⟩ := htext
  refine ⟨_, htext, fun part hpart hkey => ?_⟩
  rcases List.mem_append.mp (hparts.mem_iff.mp hpart) with hmem | hmem
  · exact hmembers part hmem hkey
  · obtain ⟨key, hkey', hnone⟩ := hothers part hmem
    obtain rfl := Option.some.inj (hkey.symm.trans hkey')
    exact absurd hname hnone

theorem written_or_unpackaged_of_object {m : Method} {draft : MethodDraft} {parts : List Part}
    {text : List Char} (htext : Outline .object parts text)
    (hparts : methodSchema.Gathers methodSchema.blank parts draft) (hbuild : draft.withPackage? = some m) :
    m.Written text ∨ Unpackaged text ∧ m.package = packageOf m.owner := by
  obtain ⟨package?, rfl, hpackage⟩ := withPackage?_eq_some hbuild
  have hseparate := separate_method
  have howner : methodSchema.fields.find? (·.name == "class") = some ownerField := rfl
  have hname : methodSchema.fields.find? (·.name == "name") = some nameField := rfl
  have hsignature : methodSchema.fields.find? (·.name == "sig") = some signatureField := rfl
  have hoptional : methodSchema.fields.find? (·.name == "package") = some optionalPackageField := rfl
  have hnames : ["class", "name", "package", "sig"] ⊆ methodSchema.fields.map Field.name := by decide
  have hset : ∀ field ∈ methodSchema.fields, ∀ {o n s o' n' s' p p'}, (p.isSome → p'.isSome) →
      field.isSet ⟨some o, some n, p, some s⟩ → field.isSet ⟨some o', some n', p', some s'⟩ := by
    simp +contextual [methodSchema, ownerField, nameField, optionalPackageField, signatureField, Field.of]
  have h : methodSchema.Partly text [] methodSchema.blank _ := .rest htext (.refl _) hparts
  obtain ⟨owner, _, howner, h⟩ := h.exists_member hseparate holds_owner howner rfl rfl
  obtain ⟨name, _, hname, h⟩ := h.exists_member hseparate holds_name hname rfl rfl
  obtain ⟨signature, _, hsignature, h⟩ := h.exists_member hseparate holds_signature hsignature rfl rfl
  cases package? with
  | none =>
    obtain ⟨-, hcomprises⟩ := h.comprises hseparate (fun field hfield => hset field hfield id) hnames
    exact .inr ⟨unpackaged_of_comprises hcomprises (by decide) (by simp), hpackage⟩
  | some package? =>
    obtain ⟨package, _, hread, h⟩ := h.exists_member hseparate holds_package hoptional rfl rfl
    obtain ⟨hlast, hcomprises⟩ :=
      h.comprises hseparate (fun field hfield => hset field hfield fun _ => rfl) hnames
    cases hlast
    rcases eq_of_accepts_optional exact_text hread with ⟨rfl, rfl⟩ | ⟨s, rfl, hspelled⟩
    · exact .inr ⟨unpackaged_of_comprises hcomprises (by decide) (by simp), hpackage⟩
    · have hpackage : Spelled m.package package := by
        rw [hpackage]
        exact accepts_text_iff.mp hspelled
      refine .inl (.object (accepts_text_iff.mp howner) (accepts_text_iff.mp hname) hpackage
        (accepts_text_iff.mp hsignature) ?_)
      exact hcomprises.perm (.cons _ <| .cons _ <| .swap _ _ _)

/-- An object that is read as a method in a capture stands for the method elsewhere as well, or it has no
package and the method is in the package of its owner. -/
theorem written_or_unpackaged {m : Method} {text : List Char} (h : Accepts methodSchema.read text m)
    (hobject : IsObject text) : m.Written text ∨ Unpackaged text ∧ m.package = packageOf m.owner := by
  obtain ⟨_, hobject⟩ := hobject
  cases (Schema.accepts_iff_written exact_method).mp h with
  | list htext => cases (htext.unique hobject).1
  | object htext hparts hbuild => exact written_or_unpackaged_of_object htext hparts hbuild

end CallGraph.Capture
