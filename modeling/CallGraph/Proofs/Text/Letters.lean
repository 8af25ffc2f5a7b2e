import Mathlib.Data.List.Forall2
import Mathlib.Tactic.Common

/-! Texts that differ in the case of ASCII letters only. -/
namespace CallGraph

/-- The same character, or one ASCII letter in both cases. A small letter stands 32 behind its capital. -/
def SameLetter (c d : Char) : Prop :=
  c = d ∨ (c.isLower ∧ c.toNat = d.toNat + 32) ∨ (d.isLower ∧ d.toNat = c.toNat + 32)
  deriving Decidable

def SameLetters (s t : String) : Prop :=
  List.Forall₂ SameLetter s.toList t.toList
  deriving Decidable

theorem isLower_iff (c : Char) : c.isLower ↔ 97 ≤ c.toNat ∧ c.toNat ≤ 122 := by
  change (decide ('a'.val ≤ c.val) && decide (c.val ≤ 'z'.val)) = true ↔ _
  simp [UInt32.le_iff_toNat_le, ← Char.toNat_val]

theorem isUpper_iff (c : Char) : c.isUpper ↔ 65 ≤ c.toNat ∧ c.toNat ≤ 90 := by
  change decide ('A'.val ≤ c.val ∧ c.val ≤ 'Z'.val) = true ↔ _
  simp [UInt32.le_iff_toNat_le, ← Char.toNat_val]

theorem toNat_toUpper (c : Char) :
    c.toUpper.toNat = if c.isLower then c.toNat - 32 else c.toNat := by
  have hrange : ('a'.val ≤ c.val ∧ c.val ≤ 'z'.val) ↔ c.isLower := by
    rw [isLower_iff, UInt32.le_iff_toNat_le, UInt32.le_iff_toNat_le]
    rfl
  unfold Char.toUpper
  by_cases hlower : c.isLower
  · have hbounds := (isLower_iff c).mp hlower
    rw [dif_pos (hrange.mpr hlower), if_pos hlower]
    -- The distance from small letters to capitals is negative, so the sum of the words wraps.
    have hdistance : ('A'.val - 'a'.val).toNat = 4294967264 := by decide
    rw [← Char.toNat_val, UInt32.toNat_add, hdistance, Char.toNat_val]
    omega
  · rw [dif_neg (hrange.not.mpr hlower), if_neg hlower]

theorem toUpper_eq_iff (c d : Char) : c.toUpper = d.toUpper ↔ SameLetter c d := by
  rw [← Char.toNat_inj, toNat_toUpper, toNat_toUpper, SameLetter, ← Char.toNat_inj]
  simp only [isLower_iff]
  split_ifs <;> omega

theorem toNat_toLower (c : Char) :
    c.toLower.toNat = if c.isUpper then c.toNat + 32 else c.toNat := by
  have hrange : ('A'.val ≤ c.val ∧ c.val ≤ 'Z'.val) ↔ c.isUpper := by
    rw [isUpper_iff, UInt32.le_iff_toNat_le, UInt32.le_iff_toNat_le]
    rfl
  unfold Char.toLower
  by_cases hupper : c.isUpper
  · have hbounds := (isUpper_iff c).mp hupper
    rw [dif_pos (hrange.mpr hupper), if_pos hupper]
    have hdistance : ('a'.val - 'A'.val).toNat = 32 := by decide
    rw [← Char.toNat_val, UInt32.toNat_add, hdistance, Char.toNat_val]
    omega
  · rw [dif_neg (hrange.not.mpr hupper), if_neg hupper]

theorem toLower_eq_iff (c d : Char) : c.toLower = d.toLower ↔ SameLetter c d := by
  rw [← Char.toNat_inj, toNat_toLower, toNat_toLower, SameLetter, ← Char.toNat_inj]
  simp only [isLower_iff, isUpper_iff]
  split_ifs <;> omega

theorem map_toLower_eq_iff (s t : List Char) :
    s.map Char.toLower = t.map Char.toLower ↔ List.Forall₂ SameLetter s t := by
  rw [← List.forall₂_eq_eq_eq, List.forall₂_map_left_iff, List.forall₂_map_right_iff]
  simp only [toLower_eq_iff]

end CallGraph
