import CallGraph.Proofs.Capture.Agreement

/-!
The classes of methods whose package is left to the name of their owner, be they made or captured without
one. The owner is known from the class, but for a dot in front of a name that has no other.
-/
namespace CallGraph.Capture

open Json MethodDraft

/-- A method record that has no package but `null`, as an object or as a list. -/
inductive LacksPackage (record : List Char) : Prop
  | object (hobject : Unpackaged record)
  | list {parts} (hlist : Outline .list parts record)
    (hlast : ∀ part ∈ parts[3]?, part.text = "null".toList)

theorem not_spelled_null (s : String) : ¬Spelled s "null".toList := nofun

section Record

variable {m : Method} {parts : List Part} {record : List Char}

theorem package_of_unpackaged (h : Accepts methodSchema.read record m) (hobject : Unpackaged record) :
    m.package = packageOf m.owner := by
  obtain ⟨parts, htext, hnull⟩ := hobject
  rcases written_or_unpackaged h ⟨parts, htext⟩ with hwritten | ⟨-, hpackage⟩
  · cases hwritten with
    | list _ _ _ _ hlist => cases (hlist.unique htext).1
    | @object _ _ package _ _ _ hspelled _ hcomprises =>
      obtain ⟨hbody, hparts, -⟩ := hcomprises
      obtain ⟨-, rfl⟩ := htext.unique hbody
      have hmem : ⟨some "package", package⟩ ∈ parts := hparts.mem_iff.mpr (by simp)
      obtain rfl : package = "null".toList := hnull _ hmem rfl
      exact absurd hspelled (not_spelled_null _)
  · exact hpackage

/-- The package of a list is its last item, which may be left out. -/
theorem package_of_list (h : Accepts methodSchema.read record m) (hlist : Outline .list parts record)
    (hlast : ∀ part ∈ parts[3]?, part.text = "null".toList) : m.package = packageOf m.owner := by
  cases (Schema.accepts_iff_written exact_method).mp h with
  | object htext => cases (htext.unique hlist).1
  | list htext hparts hbuild =>
    obtain ⟨-, rfl⟩ := htext.unique hlist
    obtain ⟨package?, rfl, hpackage⟩ := withPackage?_eq_some hbuild
    obtain ⟨signature, _, _, rfl, hforms, -, hparts⟩ := hparts.exists_item holds_signature htext.forms
    obtain ⟨owner, _, _, rfl, hforms, -, hparts⟩ := hparts.exists_item holds_owner hforms
    obtain ⟨name, _, _, rfl, hforms, -, hparts⟩ := hparts.exists_item holds_name hforms
    cases hparts with
    | omitted _ hrest =>
      cases hrest
      exact hpackage
    | @item _ _ _ _ _ text _ _ hread hrest =>
      cases hrest
      obtain ⟨value?, hvalue, hlater⟩ := hread.exists_of_field holds_package
      obtain rfl : package? = some value? := congrArg MethodDraft.package? hlater
      have hnull : text = "null".toList := hlast ⟨none, text⟩ rfl
      have hform := hforms ⟨none, text⟩ List.mem_cons_self
      rcases eq_of_accepts_optional exact_text ⟨hform, hvalue⟩ with ⟨rfl, -⟩ | ⟨_, -, haccepts⟩
      · exact hpackage
      · rw [hnull, accepts_text_iff] at haccepts
        exact absurd haccepts (not_spelled_null _)

/-- A method that is captured without a package is in the one of its owner. -/
theorem package_of_lacksPackage (h : Accepts methodSchema.read record m) (hlacks : LacksPackage record) :
    m.package = packageOf m.owner := by
  cases hlacks with
  | object hobject => exact package_of_unpackaged h hobject
  | list hlist hlast => exact package_of_list h hlist hlast

end Record

inductive EndpointRecord (e : Edge) (text : List Char) : Method → List Char → Prop
  | source {record} (hfield : FieldText "src" 0 record text) : EndpointRecord e text e.source record
  | target {record} (hfield : FieldText "tgt" 1 record text) : EndpointRecord e text e.target record

theorem EndpointRecord.accepts {e : Edge} {m : Method} {text record : List Char}
    (h : EndpointRecord e text m record) (hparse : Json.parse edgeSchema.read text = .ok e) :
    Accepts methodSchema.read record m := by
  obtain ⟨gap, body, gap', hgap, hgap', haccepts, rfl⟩ := exact_line.parse_iff.mp hparse
  have hwritten := (Edge.written_iff (Schema.exact_read exact_method)).mp haccepts
  obtain ⟨source, target, hsource, htarget, hsrc, htgt, -⟩ := exists_endpoints hwritten hgap hgap'
  cases h with
  | source hfield =>
    obtain rfl := (hsrc record).mp hfield
    exact hsource
  | target hfield =>
    obtain rfl := (htgt record).mp hfield
    exact htarget

/-- A method that is made or captured without a package. -/
inductive PackageOmitted : Method → Prop
  | made (owner name signature : String) : PackageOmitted (.inOwnPackage owner name signature)
  | captured {s s' : Stream} {number : ℕ} {text rest record e m}
    (hline : nextLine s.lines s.unread = .text number text rest) (hnext : s.next = (some (.ok e), s'))
    (hrecord : EndpointRecord e text m record) (hlacks : LacksPackage record) : PackageOmitted m

theorem PackageOmitted.package_eq {m : Method} (h : PackageOmitted m) : m.package = packageOf m.owner := by
  cases h with
  | made owner name signature => rfl
  | captured hline hnext hrecord hlacks =>
    exact package_of_lacksPackage (hrecord.accepts (Stream.parse_of_next hline hnext)) hlacks

/-- A qualified name is made up of its package and short name, so methods that are in the packages of their
owners are in one class only if they have one owner, or owners that differ in a leading dot. -/
theorem classKeys_tell_owners :
    (∀ owner, PartedAtDot owner (packageOf owner) (shortNameOf owner) ∧
      PartedAtByte owner (packageOf owner) (shortNameOf owner)) ∧
    ∀ m m', PackageOmitted m → PackageOmitted m' →
      (m.classKey = m'.classKey ↔
        m.owner = m'.owner ∨ LeadingDot m.owner m'.owner ∨ LeadingDot m'.owner m.owner) := by
  refine ⟨fun owner => ⟨partedAtDot owner, (partedAtDot owner).partedAtByte⟩, fun m m' hm hm' => ?_⟩
  rw [Method.classKey, Method.classKey, ClassKey.mk.injEq, hm.package_eq, hm'.package_eq]
  exact parts_eq_iff

private def bareSource : List (String × Value) :=
  [("class", .text ".Ä"), ("name", .text "f"), ("package", .null), ("sig", .text "1")]

private def bareTarget : List (String × Value) :=
  [("sig", .text "2"), ("name", .text "f"), ("class", .text "p..Ä")]

private def bareCall : List (String × Value) :=
  [("src", .object bareSource), ("tgt", .object bareTarget), ("kind", .text "STATIC")]

private def atBareCall : Stream :=
  ⟨⟨1, 2⟩, bytesOf (Value.object bareCall).render, 1, false⟩

private theorem bareCall_omits :
    PackageOmitted ⟨".Ä", "f", "", "1"⟩ ∧ PackageOmitted ⟨"p..Ä", "f", "p.", "2"⟩ := by
  have hsource : Outline .object _ (chars (Value.object bareSource).pieces) :=
    outline_object (by simp [bareSource, form_text, form_null])
  have htarget : Outline .object _ (chars (Value.object bareTarget).pieces) :=
    outline_object (by simp [bareTarget, form_text])
  have hforms : ∀ m ∈ bareCall, Form .value (chars m.2.pieces) := by
    simp [bareCall, form_text, hsource.form, htarget.form]
  have hsrc := fieldText_serialized 0 hforms (show ("src", .object bareSource) ∈ _ by simp [bareCall])
  have htgt := fieldText_serialized 1 hforms (show ("tgt", .object bareTarget) ∈ _ by simp [bareCall])
  have hfeed : '\n' ∉ (Value.object bareCall).render.toList := by
    rw [toList_render]
    decide +kernel
  have hparse : Json.parse edgeSchema.read (Value.object bareCall).render.toList =
      .ok ⟨⟨".Ä", "f", "", "1"⟩, ⟨"p..Ä", "f", "p.", "2"⟩, .static⟩ := by
    rw [toList_render]
    decide +kernel
  have htrim := trim_render hforms
  have hheads : atBareCall.AtLine (Value.object bareCall).render 0 [] := ⟨rfl, .last rfl⟩
  have hline := nextLine_of_heads hheads.heads hfeed (by rw [htrim]; exact hsrc.ne_nil) 1
  have hnext := hheads.next_eq hfeed (by rw [htrim]; exact hsrc.ne_nil)
  rw [htrim] at hline hnext
  simp only [hparse] at hnext
  constructor
  · exact .captured hline hnext (.source hsrc) (.object ⟨_, hsource, by simp [bareSource, Value.pieces]⟩)
  · exact .captured hline hnext (.target htgt) (.object ⟨_, htarget, by simp [bareTarget]⟩)

theorem classKeys_tell_owners_leadingDot :
    (PackageOmitted ⟨".Ä", "f", "", "1"⟩ ∧ PackageOmitted (.inOwnPackage "Ä" "g" "3") ∧
      Method.classKey ⟨".Ä", "f", "", "1"⟩ = (Method.inOwnPackage "Ä" "g" "3").classKey) ∧
    PackageOmitted ⟨"p..Ä", "f", "p.", "2"⟩ ∧ PackageOmitted (.inOwnPackage "p.Ä" "g" "3") ∧
      Method.classKey ⟨"p..Ä", "f", "p.", "2"⟩ ≠ (Method.inOwnPackage "p.Ä" "g" "3").classKey := by
  obtain ⟨hleading, hdoubled⟩ := bareCall_omits
  have hmade (owner : String) : PackageOmitted (.inOwnPackage owner "g" "3") := .made owner "g" "3"
  refine ⟨⟨hleading, hmade "Ä", ?_⟩, hdoubled, hmade "p.Ä", ?_⟩
  · exact (classKeys_tell_owners.2 _ _ hleading (hmade "Ä")).mpr (.inr (.inr ⟨by decide, rfl⟩))
  · rw [Ne, classKeys_tell_owners.2 _ _ hdoubled (hmade "p.Ä")]
    unfold LeadingDot
    decide

end CallGraph.Capture
