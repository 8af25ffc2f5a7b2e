import CallGraph.Filter
import Mathlib.Data.List.Infix
import Mathlib.Tactic.Common

/-!
Which edges a filter admits. No edge is lost when a pattern is given up for a part of it, or when another
one joins those that are there; only the first pattern of a list takes edges away.
-/
namespace CallGraph

def PartOf (part whole : String) : Prop :=
  part.toList <:+: whole.toList

theorem occursIn_iff (pattern text : List Char) : occursIn pattern text ↔ pattern <:+: text := by
  induction text with
  | nil => simp [occursIn]
  | cons c rest ih => simp [occursIn, ih, List.infix_cons_iff]

/-- An owner's name is the beginning of the identifiers of its methods. -/
theorem Method.owner_partOf_identifier (m : Method) : PartOf m.owner m.identifier := by
  refine ⟨[], (".".toList ++ m.name.toList), ?_⟩
  simp [identifier, String.toList_append, List.append_assoc]

def Edge.reversed (e : Edge) : Edge :=
  ⟨e.target, e.source, e.kind⟩

theorem Edge.mem_endpoints_reversed (e : Edge) (m : Method) :
    m ∈ e.reversed.endpoints ↔ m ∈ e.endpoints := by
  simp only [endpoints, reversed, List.mem_cons, List.not_mem_nil, or_false]
  exact or_comm

namespace Filter

variable {f g : Filter} {e : Edge}

theorem admitsOwners_iff (f : Filter) (e : Edge) :
    f.admitsOwners e ↔
      f.namespaces = [] ∨ ∀ m ∈ e.endpoints, ∃ p ∈ f.namespaces, PartOf p m.owner := by
  simp [admitsOwners, occursIn_iff, PartOf]

theorem admitsIdentifiers_iff (f : Filter) (e : Edge) :
    f.admitsIdentifiers e ↔
      f.identifiers = [] ∨ ∃ p ∈ f.identifiers, ∀ m ∈ e.endpoints, PartOf p m.identifier := by
  simp [admitsIdentifiers, occursIn_iff, PartOf]

theorem admits_iff (f : Filter) (e : Edge) :
    f.admits e ↔ f.admitsOwners e ∧ f.admitsIdentifiers e :=
  Bool.and_eq_true_iff

/-- Each pattern has a part among the looser ones, and no restriction is made where there was none. -/
structure Loosens (patterns looser : List String) : Prop where
  part : ∀ p ∈ patterns, ∃ q ∈ looser, PartOf q p
  unrestricted : patterns = [] → looser = []

theorem loosens_of_subset {patterns more : List String} (hne : patterns ≠ [])
    (hsubset : patterns ⊆ more) : Loosens patterns more :=
  ⟨fun p hp => ⟨p, hsubset hp, List.infix_rfl⟩, fun hnil => absurd hnil hne⟩

theorem loosens_of_mem_iff {patterns others : List String} (h : ∀ p, p ∈ others ↔ p ∈ patterns) :
    Loosens patterns others := by
  refine ⟨fun p hp => ⟨p, (h p).mpr hp, List.infix_rfl⟩, fun hnil => ?_⟩
  rw [List.eq_nil_iff_forall_not_mem]
  intro p hp
  rw [h, hnil] at hp
  cases hp

theorem Loosens.refl (patterns : List String) : Loosens patterns patterns :=
  loosens_of_mem_iff fun _ => Iff.rfl

theorem loosens_of_partOf {p q : String} (hpart : PartOf q p) (before after : List String) :
    Loosens (before ++ p :: after) (before ++ q :: after) := by
  refine ⟨fun r hr => ?_, fun hnil => absurd hnil (by simp)⟩
  rw [List.mem_append, List.mem_cons] at hr
  rcases hr with hr | rfl | hr
  · exact ⟨r, List.mem_append_left _ hr, List.infix_rfl⟩
  · exact ⟨q, List.mem_append_right _ List.mem_cons_self, hpart⟩
  · exact ⟨r, List.mem_append_right _ (List.mem_cons_of_mem _ hr), List.infix_rfl⟩

theorem Loosens.admitsOwners (h : Loosens f.namespaces g.namespaces) (ha : f.admitsOwners e) :
    g.admitsOwners e := by
  rw [admitsOwners_iff] at ha ⊢
  rcases ha with hnil | hall
  · exact .inl (h.unrestricted hnil)
  · refine .inr fun m hm => ?_
    obtain ⟨p, hp, howner⟩ := hall m hm
    obtain ⟨q, hq, hpart⟩ := h.part p hp
    exact ⟨q, hq, hpart.trans howner⟩

theorem Loosens.admitsIdentifiers (h : Loosens f.identifiers g.identifiers)
    (ha : f.admitsIdentifiers e) : g.admitsIdentifiers e := by
  rw [admitsIdentifiers_iff] at ha ⊢
  rcases ha with hnil | ⟨p, hp, hall⟩
  · exact .inl (h.unrestricted hnil)
  · obtain ⟨q, hq, hpart⟩ := h.part p hp
    exact .inr ⟨q, hq, fun m hm => hpart.trans (hall m hm)⟩

/-- A filter of looser patterns admits all that the other does. -/
theorem admits_of_loosens (hn : Loosens f.namespaces g.namespaces)
    (hi : Loosens f.identifiers g.identifiers) (ha : f.admits e) : g.admits e := by
  rw [admits_iff] at ha ⊢
  exact ⟨hn.admitsOwners ha.1, hi.admitsIdentifiers ha.2⟩

theorem admits_reversed (f : Filter) (e : Edge) : f.admits e.reversed = f.admits e := by
  rw [Bool.eq_iff_iff, admits_iff, admits_iff, admitsOwners_iff, admitsOwners_iff,
    admitsIdentifiers_iff, admitsIdentifiers_iff]
  simp only [Edge.mem_endpoints_reversed]

/-- One pattern has to be in both identifiers, so each list of them admits edges on its own. -/
theorem admits_append_identifiers (namespaces : List String) {P Q : List String} (hP : P ≠ [])
    (hQ : Q ≠ []) (e : Edge) :
    admits ⟨namespaces, P ++ Q⟩ e = (admits ⟨namespaces, P⟩ e || admits ⟨namespaces, Q⟩ e) := by
  rw [Bool.eq_iff_iff, Bool.or_eq_true, admits_iff, admits_iff, admits_iff, admitsIdentifiers_iff,
    admitsIdentifiers_iff, admitsIdentifiers_iff]
  have howners (identifiers : List String) :
      admitsOwners ⟨namespaces, identifiers⟩ e = admitsOwners ⟨namespaces, []⟩ e := rfl
  rw [howners, howners P, howners Q]
  simp only [List.append_eq_nil_iff, hP, hQ, false_and, false_or, List.mem_append, or_and_right,
    exists_or, and_or_left]

/-- A pattern in the name of an owner is in the identifiers of all its methods. -/
theorem admits_identifier_of_namespace {p : String} (h : admits ⟨[p], []⟩ e) :
    admits ⟨[], [p]⟩ e := by
  rw [admits_iff, admitsOwners_iff, admitsIdentifiers_iff] at h ⊢
  refine ⟨.inl rfl, .inr ⟨p, List.mem_singleton_self p, fun m hm => ?_⟩⟩
  obtain ⟨q, hq, howner⟩ := h.1.resolve_left (by simp) m hm
  rw [List.mem_singleton.mp hq] at howner
  exact howner.trans m.owner_partOf_identifier

/-- How what a filter says of an edge depends on the patterns and on the edge's direction. -/
structure Lawful (f : Filter) (e : Edge) : Prop where
  reversed : f.admits e.reversed = f.admits e
  /-- Neither the order nor the repetition of patterns matters. -/
  sets : ∀ g : Filter, (∀ p, p ∈ g.namespaces ↔ p ∈ f.namespaces) →
    (∀ p, p ∈ g.identifiers ↔ p ∈ f.identifiers) → g.admits e = f.admits e
  namespace_added : ∀ p, f.namespaces ≠ [] → f.admits e →
    admits ⟨f.namespaces ++ [p], f.identifiers⟩ e
  identifier_added : ∀ p, f.identifiers ≠ [] → f.admits e →
    admits ⟨f.namespaces, f.identifiers ++ [p]⟩ e
  namespace_shortened : ∀ before p after q, f.namespaces = before ++ p :: after → PartOf q p →
    f.admits e → admits ⟨before ++ q :: after, f.identifiers⟩ e
  identifier_shortened : ∀ before p after q, f.identifiers = before ++ p :: after → PartOf q p →
    f.admits e → admits ⟨f.namespaces, before ++ q :: after⟩ e
  identifiers_joined : ∀ P Q : List String, P ≠ [] → Q ≠ [] →
    admits ⟨f.namespaces, P ++ Q⟩ e = (admits ⟨f.namespaces, P⟩ e || admits ⟨f.namespaces, Q⟩ e)
  namespaces_joined : ∀ P Q : List String, P ≠ [] → Q ≠ [] →
    admits ⟨P, f.identifiers⟩ e ∨ admits ⟨Q, f.identifiers⟩ e → admits ⟨P ++ Q, f.identifiers⟩ e
  /-- The two lists restrict independently of each other. -/
  both : f.admits e = (admits ⟨f.namespaces, []⟩ e && admits ⟨[], f.identifiers⟩ e)
  namespace_as_identifier : ∀ p, admits ⟨[p], []⟩ e → admits ⟨[], [p]⟩ e

theorem admits_lawful (f : Filter) (e : Edge) : Lawful f e where
  reversed := admits_reversed f e
  sets g hn hi := by
    rw [Bool.eq_iff_iff]
    constructor
    · exact admits_of_loosens (loosens_of_mem_iff fun p => (hn p).symm)
        (loosens_of_mem_iff fun p => (hi p).symm)
    · exact admits_of_loosens (loosens_of_mem_iff hn) (loosens_of_mem_iff hi)
  namespace_added p hne :=
    admits_of_loosens (loosens_of_subset hne (List.subset_append_left _ _)) (.refl _)
  identifier_added p hne :=
    admits_of_loosens (.refl _) (loosens_of_subset hne (List.subset_append_left _ _))
  namespace_shortened before p after q heq hpart :=
    admits_of_loosens (heq ▸ loosens_of_partOf hpart before after) (.refl _)
  identifier_shortened before p after q heq hpart :=
    admits_of_loosens (.refl _) (heq ▸ loosens_of_partOf hpart before after)
  identifiers_joined P Q hP hQ := admits_append_identifiers f.namespaces hP hQ e
  namespaces_joined P Q hP hQ := by
    have hleft : Loosens P (P ++ Q) := loosens_of_subset hP (List.subset_append_left P Q)
    have hright : Loosens Q (P ++ Q) := loosens_of_subset hQ (List.subset_append_right P Q)
    rintro (ha | ha)
    · exact admits_of_loosens (f := ⟨P, f.identifiers⟩) hleft (.refl f.identifiers) ha
    · exact admits_of_loosens (f := ⟨Q, f.identifiers⟩) hright (.refl f.identifiers) ha
  both := by simp [admits, admitsOwners, admitsIdentifiers]
  namespace_as_identifier p := admits_identifier_of_namespace

/-- Namespaces that each cover one end of an edge only have to be asked for together. -/
theorem admits_joined_only {p q : String} (hp : PartOf p e.source.owner) (hq : PartOf q e.target.owner)
    (hp' : ¬PartOf p e.target.owner) (hq' : ¬PartOf q e.source.owner) :
    admits ⟨[p, q], []⟩ e ∧ ¬admits ⟨[p], []⟩ e ∧ ¬admits ⟨[q], []⟩ e := by
  simp [admits_iff, admitsOwners_iff, admitsIdentifiers_iff, Edge.endpoints, hp, hq, hp', hq']

example : let e : Edge := ⟨.inOwnPackage "p.A" "f" "f()", .inOwnPackage "q.B" "g" "g()", .static⟩
    admits ⟨["p", "q"], []⟩ e ∧ !admits ⟨["p"], []⟩ e ∧ !admits ⟨["q"], []⟩ e := by
  decide +kernel

end Filter
end CallGraph
