import CallGraph.Proofs.Method.Described
import CallGraph.Store.Tables
import Mathlib.Data.List.Nodup

/-! Rows under unique keys: what adding one does to those that are there. -/
namespace CallGraph

section Keys

variable {α κ : Type} {rows : List α} {row row' : α}

theorem find?_key_of_mem [BEq κ] [LawfulBEq κ] {key : α → κ} (hkeys : (rows.map key).Nodup)
    (h : row ∈ rows) : rows.find? (fun r => key r == key row) = some row := by
  induction rows with
  | nil => cases h
  | cons first rows ih =>
    rw [List.map_cons, List.nodup_cons] at hkeys
    rw [List.find?_cons]
    rcases List.mem_cons.mp h with rfl | h
    · simp
    · have hne : (key first == key row) = false := by
        rw [beq_eq_false_iff_ne]
        intro heq
        exact hkeys.1 (heq ▸ List.mem_map_of_mem h)
      rw [hne]
      exact ih hkeys.2 h

variable [BEq α]

theorem prefix_addRow (rows : List α) (row : α) : rows <+: addRow rows row := by
  unfold addRow
  split_ifs
  · exact List.prefix_refl rows
  · exact List.prefix_append rows [row]

theorem prefix_foldl_addRow (rows more : List α) : rows <+: more.foldl addRow rows := by
  induction more generalizing rows with
  | nil => exact List.prefix_refl rows
  | cons first more ih => exact (prefix_addRow rows first).trans (ih _)

variable [LawfulBEq α]

theorem mem_addRow : row' ∈ addRow rows row ↔ row' ∈ rows ∨ row' = row := by
  unfold addRow
  split_ifs with hany
  · have hmem : row ∈ rows := by simpa using hany
    constructor
    · exact .inl
    · rintro (h | rfl)
      · exact h
      · exact hmem
  · simp

theorem nodup_addRow (h : rows.Nodup) (row : α) : (addRow rows row).Nodup := by
  unfold addRow
  split_ifs with hany
  · exact h
  · have hnew : row ∉ rows := by simpa using hany
    exact List.nodup_append.mpr ⟨h, List.nodup_singleton row, by
      rintro a ha b hb rfl
      rw [List.mem_singleton] at hb
      exact hnew (hb ▸ ha)⟩

theorem mem_foldl_addRow {more : List α} :
    row ∈ more.foldl addRow rows ↔ row ∈ rows ∨ row ∈ more := by
  induction more generalizing rows with
  | nil => simp
  | cons first more ih =>
    rw [List.foldl_cons, ih, mem_addRow, List.mem_cons, or_assoc]

theorem nodup_foldl_addRow (h : rows.Nodup) (more : List α) : (more.foldl addRow rows).Nodup := by
  induction more generalizing rows with
  | nil => exact h
  | cons first more ih => exact ih (nodup_addRow h first)

end Keys

def methodRow (position : ℕ) (m : Method) : MethodRow :=
  ⟨position + 1, m.signature, m.name, m.className, m.package⟩

def classRow (position : ℕ) (key : ClassKey) : ClassRow :=
  ⟨position + 1, key.name, key.package⟩

theorem signatures_methodRows (methods : List Method) :
    (methods.mapIdx methodRow).map (·.signature) = methods.map Method.signature := by
  apply List.ext_getElem <;> simp [methodRow]

/-- The row under a signature has the properties of the first method under it. -/
theorem find?_methodRows (methods : List Method) (signature : String) (start : ℕ) :
    ((methods.mapIdx fun i => methodRow (i + start)).find? (·.signature == signature)).map
        (fun row => (row.name, row.className, row.package)) =
      (methods.find? (·.signature == signature)).map fun m => (m.name, m.className, m.package) := by
  induction methods generalizing start with
  | nil => rfl
  | cons m methods ih =>
    have hsignature : (methodRow (0 + start) m).signature = m.signature := rfl
    have hshift : (fun i => methodRow (i + 1 + start)) = fun i => methodRow (i + (start + 1)) := by
      funext i
      rw [Nat.add_assoc, Nat.add_comm 1 start]
    rw [List.mapIdx_cons, List.find?_cons, List.find?_cons, hsignature, hshift]
    cases m.signature == signature with
    | true => rfl
    | false => exact ih (start + 1)

theorem nodup_numbers {α β : Type} {row : ℕ → α → β} {number : β → ℕ}
    (hnumber : ∀ i a, number (row i a) = i + 1) (all : List α) :
    ((all.mapIdx row).map number).Nodup := by
  rw [List.nodup_iff_pairwise_ne, List.pairwise_iff_getElem]
  intro i j hi hj hlt
  rw [List.getElem_map, List.getElem_map, List.getElem_mapIdx, List.getElem_mapIdx, hnumber, hnumber]
  omega

theorem prefix_mapIdx {α β : Type} {row : ℕ → α → β} {all more : List α} (h : all <+: more) :
    all.mapIdx row <+: more.mapIdx row := by
  obtain ⟨rest, rfl⟩ := h
  rw [List.mapIdx_append]
  exact List.prefix_append _ _

theorem keys_classRows (keys : List ClassKey) : (keys.mapIdx classRow).map (·.key) = keys := by
  apply List.ext_getElem <;> simp [classRow, ClassRow.key]

theorem key_mem_of_mem_classRows {keys : List ClassKey} {row : ClassRow}
    (h : row ∈ keys.mapIdx classRow) : row.key ∈ keys := by
  rw [← keys_classRows keys]
  exact List.mem_map_of_mem h

namespace Tables

variable {t : Tables} {methods : List Method} {keys : List ClassKey}

/-- A method is inserted as it is described: unless its signature has a row. -/
theorem insertMethod_eq (h : t.methods = methods.mapIdx methodRow) (m : Method) :
    t.insertMethod m = { t with methods := (describe methods m).mapIdx methodRow } := by
  have hany : t.methods.any (·.signature == m.signature) =
      methods.any (·.signature == m.signature) := by
    rw [Bool.eq_iff_iff, any_signature_iff, ← signatures_methodRows, ← h]
    simp
  unfold insertMethod describe
  rw [hany]
  split_ifs
  · rw [← h]
  · rw [List.mapIdx_concat, ← h]
    simp [h, methodRow]

theorem insertClass_eq (h : t.classes = keys.mapIdx classRow) (key : ClassKey) :
    t.insertClass key = { t with classes := (addRow keys key).mapIdx classRow } := by
  have hany : t.classes.any (·.key == key) = keys.contains key := by
    rw [Bool.eq_iff_iff, List.contains_iff_mem, ← keys_classRows keys, ← h]
    simp
  unfold insertClass addRow
  rw [hany]
  split_ifs
  · rw [← h]
  · rw [List.mapIdx_concat, ← h]
    simp [h, classRow]

theorem foldl_insertClass_eq (h : t.classes = keys.mapIdx classRow) (more : List ClassKey) :
    more.foldl insertClass t = { t with classes := (more.foldl addRow keys).mapIdx classRow } := by
  induction more generalizing t keys with
  | nil => simp [← h]
  | cons key more ih => rw [List.foldl_cons, insertClass_eq h, ih rfl, List.foldl_cons]

end Tables
end CallGraph
