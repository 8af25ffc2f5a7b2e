import CallGraph.Kind
import CallGraph.Proofs.Text.Letters

/-!
Labels and the kinds they stand for. Two labels stand for one kind just if they are the same, or if both
spell the same known name with letters in any case; no other character is taken for a letter.
-/
namespace CallGraph

/-- Only a letter has a capital for its capital form. -/
theorem isAlpha_of_toUpper {c : Char} (h : c.toUpper.isUpper) : c.isAlpha := by
  rw [isUpper_iff, toNat_toUpper] at h
  apply Bool.or_eq_true_iff.mpr
  rw [isUpper_iff]
  by_cases hlower : c.isLower
  · exact .inr hlower
  · rw [if_neg hlower] at h
    exact .inl h

theorem toUpper_eq_underscore {c : Char} (h : c.toUpper = '_') : c = '_' := by
  have hcode : c.toUpper.toNat = 95 := by rw [h]; rfl
  rw [toNat_toUpper] at hcode
  split_ifs at hcode with hlower
  · have hbounds := (isLower_iff c).mp hlower
    omega
  · exact Char.toNat_inj.mp hcode

namespace Kind

def known : List Kind :=
  [static, special, virtual, interface, classInitializer, thread, executor, asyncTask, finalizer,
    privileged, newInstance, reflectInvoke, reflectConstructor, reflectClass]

variable {s : String} {kind : Kind}

theorem capitals_eq_iff (s t : String) : capitals s = capitals t ↔ SameLetters s t := by
  rw [capitals, capitals, String.ofList_inj, ← List.forall₂_eq_eq_eq, List.forall₂_map_left_iff,
    List.forall₂_map_right_iff]
  simp only [toUpper_eq_iff]
  rfl

theorem capitals_label (hkind : kind ∈ known) : capitals kind.label = kind.label := by
  have hall : ∀ kind ∈ known, capitals kind.label = kind.label := by decide +kernel
  exact hall kind hkind

theorem lookup_label (hkind : kind ∈ known) : names.lookup kind.label = some kind := by
  have hall : ∀ kind ∈ known, names.lookup kind.label = some kind := by decide +kernel
  exact hall kind hkind

/-- The table that labels are read by is the inverse of the one that gives kinds their names. -/
theorem names_eq : names = known.map fun kind => (kind.label, kind) := rfl

theorem lookup_eq_none {name : String} (h : ∀ kind ∈ known, name ≠ kind.label) :
    names.lookup name = none := by
  rw [List.lookup_eq_none_iff, names_eq]
  intro entry hentry
  obtain ⟨kind, hkind, rfl⟩ := List.mem_map.mp hentry
  simpa using h kind hkind

theorem capitals_eq_label_iff (hkind : kind ∈ known) :
    capitals s = kind.label ↔ SameLetters s kind.label := by
  rw [← capitals_eq_iff, capitals_label hkind]

/-- A known name stands for its kind in any letter case. -/
theorem ofLabel_of_sameLetters (hkind : kind ∈ known) (hsame : SameLetters s kind.label) :
    ofLabel s = kind := by
  rw [ofLabel, (capitals_eq_label_iff hkind).mpr hsame, lookup_label hkind, Option.getD_some]

/-- A label that spells no known name is kept. -/
theorem ofLabel_of_unknown (hunknown : ∀ kind ∈ known, ¬SameLetters s kind.label) :
    ofLabel s = other s := by
  have hnone : names.lookup (capitals s) = none :=
    lookup_eq_none fun kind hkind hlabel =>
      hunknown kind hkind ((capitals_eq_label_iff hkind).mp hlabel)
  rw [ofLabel, hnone, Option.getD_none]

/-- A label spells one known name, or it is kept. -/
theorem ofLabel_cases (s : String) :
    (∃ kind ∈ known, SameLetters s kind.label ∧ ofLabel s = kind) ∨
      (∀ kind ∈ known, ¬SameLetters s kind.label) ∧ ofLabel s = other s := by
  by_cases hknown : ∃ kind ∈ known, SameLetters s kind.label
  · obtain ⟨kind, hkind, hsame⟩ := hknown
    exact .inl ⟨kind, hkind, hsame, ofLabel_of_sameLetters hkind hsame⟩
  · have hunknown : ∀ kind ∈ known, ¬SameLetters s kind.label := by simpa using hknown
    exact .inr ⟨hunknown, ofLabel_of_unknown hunknown⟩

theorem ofLabel_eq_iff (hkind : kind ∈ known) : ofLabel s = kind ↔ SameLetters s kind.label := by
  have hother : ∀ label, other label ∉ known := by simp [known]
  constructor
  · rintro rfl
    rcases ofLabel_cases s with ⟨kind, -, hsame, heq⟩ | ⟨-, heq⟩
    · rwa [heq]
    · rw [heq] at hkind
      exact absurd hkind (hother s)
  · exact ofLabel_of_sameLetters hkind

theorem ofLabel_label (s : String) : ofLabel (ofLabel s).label = ofLabel s := by
  rcases ofLabel_cases s with ⟨kind, hkind, -, heq⟩ | ⟨-, heq⟩
  · rw [heq]
    exact ofLabel_of_sameLetters hkind ((capitals_eq_iff _ _).mp rfl)
  · rw [heq]
    exact heq

/-- Every character of a known name, in whatever case, is an ASCII letter or an underscore. -/
theorem isAlpha_of_sameLetters (hkind : kind ∈ known) (hsame : SameLetters s kind.label) {c : Char}
    (hc : c ∈ s.toList) : c.isAlpha ∨ c = '_' := by
  have hall : ∀ kind ∈ known, kind.label.toList.all fun d => d.isUpper || d == '_' := by decide +kernel
  have hcapital : c.toUpper ∈ kind.label.toList := by
    rw [← (capitals_eq_label_iff hkind).mpr hsame, capitals, String.toList_ofList]
    exact List.mem_map_of_mem hc
  have hletter : c.toUpper.isUpper ∨ c.toUpper = '_' := by
    simpa using List.all_eq_true.mp (hall kind hkind) _ hcapital
  exact hletter.imp isAlpha_of_toUpper toUpper_eq_underscore

/-- What reading two labels as kinds keeps of them, and which kinds it tells apart. -/
structure Normalized (s t : String) : Prop where
  table : ofLabel s = (names.lookup (capitals s)).getD (other s)
  /-- Labels are read by the inverse of the table that gives the known kinds their names. -/
  inverse : names = known.map fun kind => (kind.label, kind)
  /-- Only the case of letters is lost. -/
  letters : SameLetters (ofLabel s).label s
  /-- Nothing is lost of a label that is no spelling of a known name. -/
  kept : (∀ kind ∈ known, ¬SameLetters s kind.label) → (ofLabel s).label = s
  idempotent : ofLabel (ofLabel s).label = ofLabel s
  /-- Labels stand for one kind just if they are equal or spell the same known name. -/
  eq_iff : ofLabel s = ofLabel t ↔
    s = t ∨ ∃ kind ∈ known, SameLetters s kind.label ∧ SameLetters t kind.label
  known_iff : ∀ kind ∈ known, ofLabel s = kind ↔ SameLetters s kind.label
  /-- A label with any other character than ASCII letters and underscores is no spelling of a known name. -/
  foreign : (∃ c ∈ s.toList, ¬c.isAlpha ∧ c ≠ '_') → ofLabel s = other s

theorem ofLabel_normalized (s t : String) : Normalized s t where
  table := rfl
  inverse := names_eq
  letters := by
    rcases ofLabel_cases s with ⟨kind, hkind, hsame, heq⟩ | ⟨-, heq⟩
    · rw [heq, ← capitals_eq_iff, capitals_label hkind]
      exact ((capitals_eq_label_iff hkind).mpr hsame).symm
    · rw [heq]
      exact (capitals_eq_iff s s).mp rfl
  kept hunknown := by
    rw [ofLabel_of_unknown hunknown]
    rfl
  idempotent := ofLabel_label s
  eq_iff := by
    constructor
    · intro heq
      rcases ofLabel_cases s with ⟨kind, hkind, hsame, hs⟩ | ⟨hunknown, hs⟩
      · exact .inr ⟨kind, hkind, hsame, (ofLabel_eq_iff hkind).mp (heq.symm.trans hs)⟩
      · rcases ofLabel_cases t with ⟨kind, hkind, -, ht⟩ | ⟨-, ht⟩
        · exact absurd ((ofLabel_eq_iff hkind).mp (heq.trans ht)) (hunknown kind hkind)
        · exact .inl (Kind.other.inj (hs.symm.trans (heq.trans ht)))
    · rintro (rfl | ⟨kind, hkind, hs, ht⟩)
      · rfl
      · rw [ofLabel_of_sameLetters hkind hs, ofLabel_of_sameLetters hkind ht]
  known_iff kind hkind := ofLabel_eq_iff hkind
  foreign := by
    rintro ⟨c, hc, halpha, hunderscore⟩
    apply ofLabel_of_unknown
    intro kind hkind hsame
    exact (isAlpha_of_sameLetters hkind hsame hc).elim halpha hunderscore

/-- A dotless small i has the capital I, but is no ASCII letter. -/
example : ofLabel "Statıc" = other "Statıc" ∧ SameLetters "Static" static.label ∧
    ¬SameLetters "Statıc" static.label := by
  decide +kernel

end Kind
end CallGraph
