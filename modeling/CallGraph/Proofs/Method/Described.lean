import CallGraph.Method
import Mathlib.Data.List.Induction

/-! Describing methods one after another: the first that carries a signature keeps it. -/
namespace CallGraph

/-- The methods with one more, unless its signature is among them. -/
def describe (methods : List Method) (m : Method) : List Method :=
  if methods.any (·.signature == m.signature) then methods else methods ++ [m]

theorem any_signature_iff {methods : List Method} {signature : String} :
    methods.any (·.signature == signature) ↔ signature ∈ methods.map Method.signature := by
  simp

theorem foldl_describe_concat (methods : List Method) (m : Method) :
    (methods ++ [m]).foldl describe [] = describe (methods.foldl describe []) m := by
  rw [List.foldl_append]
  rfl

/-- One method is described under each signature, in the order of first occurrence. -/
theorem signatures_foldl_describe (methods : List Method) :
    (methods.foldl describe []).map Method.signature = (methods.map Method.signature).eraseDups := by
  induction methods using List.reverseRecOn with
  | nil => rfl
  | append_singleton methods m ih =>
    rw [foldl_describe_concat, List.map_append, List.eraseDups_append, ← ih, describe]
    have hmem : m.signature ∈ (methods.foldl describe []).map Method.signature ↔
        m.signature ∈ methods.map Method.signature := by
      rw [ih, List.mem_eraseDups]
    by_cases hany : (methods.foldl describe []).any (·.signature == m.signature)
    · rw [if_pos hany]
      have hin := hmem.mp (any_signature_iff.mp hany)
      generalize methods.map Method.signature = signatures at hin
      simp [List.removeAll, hin]
    · rw [if_neg hany]
      have hout := mt hmem.mpr (mt any_signature_iff.mpr hany)
      generalize methods.map Method.signature = signatures at hout
      simp [List.removeAll, List.eraseDups_cons, hout]

/-- The method that is described under a signature is the first that carries it. -/
theorem find?_of_mem_foldl_describe {methods : List Method} {m : Method}
    (h : m ∈ methods.foldl describe []) : methods.find? (·.signature == m.signature) = some m := by
  induction methods using List.reverseRecOn with
  | nil => cases h
  | append_singleton methods m' ih =>
    rw [foldl_describe_concat, describe] at h
    rw [List.find?_append]
    by_cases hany : (methods.foldl describe []).any (·.signature == m'.signature)
    · rw [if_pos hany] at h
      rw [ih h]
      rfl
    · rw [if_neg hany, List.mem_append, List.mem_singleton] at h
      rcases h with h | rfl
      · rw [ih h]
        rfl
      · have hnone : methods.find? (·.signature == m.signature) = none := by
          rw [any_signature_iff, signatures_foldl_describe, List.mem_eraseDups] at hany
          simpa using hany
        simp [hnone]

theorem find?_foldl_describe (methods : List Method) (signature : String) :
    (methods.foldl describe []).find? (·.signature == signature) =
      methods.find? (·.signature == signature) := by
  cases hfind : (methods.foldl describe []).find? (·.signature == signature) with
  | some m =>
    have hsignature : m.signature = signature := by simpa using List.find?_some hfind
    rw [← hsignature]
    exact (find?_of_mem_foldl_describe (List.mem_of_find?_eq_some hfind)).symm
  | none =>
    have hnot : signature ∉ (methods.foldl describe []).map Method.signature := by
      simpa using hfind
    rw [signatures_foldl_describe, List.mem_eraseDups] at hnot
    symm
    rw [List.find?_eq_none]
    intro m hm hsignature
    exact hnot (List.mem_map.mpr ⟨m, hm, by simpa using hsignature⟩)

theorem nodup_signatures (methods : List Method) :
    ((methods.foldl describe []).map Method.signature).Nodup := by
  induction methods using List.reverseRecOn with
  | nil => exact List.nodup_nil
  | append_singleton methods m ih =>
    rw [foldl_describe_concat, describe]
    by_cases hany : (methods.foldl describe []).any (·.signature == m.signature)
    · rw [if_pos hany]
      exact ih
    · rw [if_neg hany, List.map_append]
      have hout := mt any_signature_iff.mpr hany
      refine List.nodup_append.mpr ⟨ih, by simp, ?_⟩
      simpa using hout

end CallGraph
