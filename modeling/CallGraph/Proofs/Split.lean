import Mathlib.Tactic.Common

/-! Two parts of a list, and a member that can be in one of them only. -/
namespace CallGraph

variable {α : Type} {x : α} {pre post before after : List α}

theorem split_after_prefix (hx : x ∉ pre) (h : pre ++ post = before ++ x :: after) :
    ∃ before', before = pre ++ before' ∧ post = before' ++ x :: after := by
  rcases List.append_eq_append_iff.mp h with ⟨before', hb, hp⟩ | ⟨rest, hp, hr⟩
  · exact ⟨before', hb, hp⟩
  · cases rest with
    | nil => exact ⟨[], by simpa using hp.symm, by simpa using hr.symm⟩
    | cons y rest =>
      obtain ⟨rfl, -⟩ := List.cons.inj hr
      exact absurd (by simp [hp]) hx

theorem split_before_suffix (hx : x ∉ post) (h : pre ++ post = before ++ x :: after) :
    ∃ after', pre = before ++ x :: after' ∧ after = after' ++ post := by
  rcases List.append_eq_append_iff.mp h with ⟨rest, -, hp⟩ | ⟨rest, hp, hr⟩
  · exact absurd (by simp [hp]) hx
  · cases rest with
    | nil =>
      rw [List.nil_append] at hr
      exact absurd (by simp [← hr]) hx
    | cons y rest =>
      obtain ⟨rfl, hafter⟩ := List.cons.inj hr
      exact ⟨rest, hp, hafter⟩

/-- A list is split at the last occurrence of a member in one way only. -/
theorem split_at_last_unique (hpost : x ∉ post) (hafter : x ∉ after)
    (h : pre ++ x :: post = before ++ x :: after) : pre = before ∧ post = after := by
  rcases List.append_eq_append_iff.mp h with ⟨between, hb, hp⟩ | ⟨between, hp, ha⟩
  · cases between with
    | nil => exact ⟨by simpa using hb.symm, by simpa using hp⟩
    | cons y between => exact absurd (by simp [(List.cons.inj hp).2]) hpost
  · cases between with
    | nil => exact ⟨by simpa using hp, by simpa using ha.symm⟩
    | cons y between => exact absurd (by simp [(List.cons.inj ha).2]) hafter

end CallGraph
