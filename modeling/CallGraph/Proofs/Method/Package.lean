import CallGraph.Method
import CallGraph.Proofs.Split
import CallGraph.Proofs.Text.Ascii
import Mathlib.Tactic.Common

/-!
The package of a class is the part of its qualified name before the last dot, and its short name the part
behind that. The two determine the qualified name, but for a dot in front of a name that has no other.
-/
namespace CallGraph

theorem splitLastDot_eq_none_iff {s : List Char} : splitLastDot s = none ↔ '.' ∉ s := by
  induction s with
  | nil => simp [splitLastDot]
  | cons c s ih =>
    rw [splitLastDot, List.mem_cons, not_or, ← ih]
    cases hsplit : splitLastDot s with
    | none =>
      by_cases hdot : c = '.'
      · simp [hdot]
      · simp [hdot, eq_comm]
    | some split => simp

theorem eq_append_of_splitLastDot {s before after : List Char}
    (h : splitLastDot s = some (before, after)) : s = before ++ '.' :: after ∧ '.' ∉ after := by
  induction s generalizing before with
  | nil => cases h
  | cons c s ih =>
    rw [splitLastDot] at h
    split at h
    · rename_i before' after' hsplit
      obtain ⟨rfl, rfl⟩ := Prod.mk.inj (Option.some.inj h)
      obtain ⟨hs, hafter⟩ := ih hsplit
      exact ⟨by rw [hs, List.cons_append], hafter⟩
    · rename_i hnone
      split_ifs at h with hdot
      obtain ⟨rfl, rfl⟩ := Prod.mk.inj (Option.some.inj h)
      exact ⟨by rw [hdot, List.nil_append], splitLastDot_eq_none_iff.mp hnone⟩

/-- A qualified name in two parts: around its last dot, or whole behind an empty part if it has none. -/
structure PartedAtDot (owner package name : String) : Prop where
  undotted : '.' ∉ name.toList
  dotted : '.' ∈ owner.toList → owner = package ++ "." ++ name
  plain : '.' ∉ owner.toList → package = "" ∧ name = owner

theorem partedAtDot (owner : String) : PartedAtDot owner (packageOf owner) (shortNameOf owner) := by
  unfold packageOf shortNameOf
  cases hsplit : splitLastDot owner.toList with
  | none =>
    have hplain := splitLastDot_eq_none_iff.mp hsplit
    exact ⟨hplain, fun hdot => absurd hdot hplain, fun _ => ⟨rfl, rfl⟩⟩
  | some split =>
    obtain ⟨howner, hname⟩ := eq_append_of_splitLastDot hsplit
    have hdot : '.' ∈ owner.toList := by simp [howner]
    refine ⟨by rwa [String.toList_ofList], fun _ => String.toList_injective ?_, absurd hdot⟩
    simpa using howner

inductive BeforeLastDot (owner package : String) : Prop
  | dotted (name : String) (howner : owner = package ++ "." ++ name) (hname : '.' ∉ name.toList)
  | plain (howner : '.' ∉ owner.toList) (hpackage : package = "")

theorem beforeLastDot_packageOf (owner : String) : BeforeLastDot owner (packageOf owner) := by
  have hparts := partedAtDot owner
  by_cases hdot : '.' ∈ owner.toList
  · exact .dotted (shortNameOf owner) (hparts.dotted hdot) hparts.undotted
  · exact .plain hdot (hparts.plain hdot).1

/-- The last byte of a dot in an encoded name stands between its encoded parts. -/
def PartedAtByte (owner package name : String) : Prop :=
  ∀ before after, bytesOf owner = before ++ '.'.toUInt8 :: after → '.'.toUInt8 ∉ after →
    bytesOf package = before ∧ bytesOf name = after

def LeadingDot (plain dotted : String) : Prop :=
  '.' ∉ plain.toList ∧ dotted = "." ++ plain

namespace PartedAtDot

variable {owner owner' package package' name name' : String}

theorem unique (h : PartedAtDot owner package name) (h' : PartedAtDot owner package' name') :
    package = package' ∧ name = name' := by
  by_cases hdot : '.' ∈ owner.toList
  · have heq : package.toList ++ '.' :: name.toList = package'.toList ++ '.' :: name'.toList := by
      simpa using congrArg String.toList ((h.dotted hdot).symm.trans (h'.dotted hdot))
    obtain ⟨hpackage, hname⟩ := split_at_last_unique h.undotted h'.undotted heq
    exact ⟨String.toList_injective hpackage, String.toList_injective hname⟩
  · obtain ⟨rfl, rfl⟩ := h.plain hdot
    obtain ⟨rfl, rfl⟩ := h'.plain hdot
    exact ⟨rfl, rfl⟩

theorem partedAtByte (h : PartedAtDot owner package name) : PartedAtByte owner package name := by
  intro before after hbytes hafter
  have hascii : '.'.toNat < 128 := by decide
  have hdot : '.' ∈ owner.toList := by
    rw [← toUInt8_mem_bytesOf hascii, hbytes]
    simp
  have hname : '.'.toUInt8 ∉ bytesOf name := by
    rw [toUInt8_mem_bytesOf hascii]
    exact h.undotted
  have hparts : bytesOf owner = bytesOf package ++ '.'.toUInt8 :: bytesOf name := by
    rw [h.dotted hdot, bytesOf_append, bytesOf_append, List.append_assoc]
    rfl
  exact split_at_last_unique hname hafter (hparts.symm.trans hbytes)

theorem of_leadingDot (h : PartedAtDot owner package name) (hdot : LeadingDot owner owner') :
    PartedAtDot owner' package name := by
  obtain ⟨hplain, rfl⟩ := hdot
  obtain ⟨rfl, rfl⟩ := h.plain hplain
  refine ⟨hplain, fun _ => rfl, fun hnone => absurd ?_ hnone⟩
  simp

/-- Two names with the same parts are the same, but for a leading dot. -/
theorem owners (h : PartedAtDot owner package name) (h' : PartedAtDot owner' package name) :
    owner = owner' ∨ LeadingDot owner owner' ∨ LeadingDot owner' owner := by
  by_cases hdot : '.' ∈ owner.toList
  · by_cases hdot' : '.' ∈ owner'.toList
    · exact .inl ((h.dotted hdot).trans (h'.dotted hdot').symm)
    · obtain ⟨rfl, rfl⟩ := h'.plain hdot'
      exact .inr (.inr ⟨hdot', h.dotted hdot⟩)
  · obtain ⟨rfl, rfl⟩ := h.plain hdot
    by_cases hdot' : '.' ∈ owner'.toList
    · exact .inr (.inl ⟨hdot, h'.dotted hdot'⟩)
    · exact .inl (h'.plain hdot').2

end PartedAtDot

theorem parts_eq_iff {owner owner' : String} :
    shortNameOf owner = shortNameOf owner' ∧ packageOf owner = packageOf owner' ↔
      owner = owner' ∨ LeadingDot owner owner' ∨ LeadingDot owner' owner := by
  have hparts := partedAtDot owner
  have hparts' := partedAtDot owner'
  constructor
  · rintro ⟨hname, hpackage⟩
    rw [← hname, ← hpackage] at hparts'
    exact hparts.owners hparts'
  · rintro (rfl | hdot | hdot)
    · exact ⟨rfl, rfl⟩
    · exact ((hparts.of_leadingDot hdot).unique hparts').symm
    · exact (hparts.unique (hparts'.of_leadingDot hdot)).symm

end CallGraph
