import CallGraph.Proofs.Disk.Extends

/-! Creating folders leaves every file as it was. -/
namespace CallGraph.Disk

variable {d d' d'' : Disk}

def SameFiles (d d' : Disk) : Prop :=
  ∀ loc contents executable, d'.node? loc = some (.file contents executable) ↔
    d.node? loc = some (.file contents executable)

theorem SameFiles.refl (d : Disk) : d.SameFiles d :=
  fun _ _ _ => Iff.rfl

theorem SameFiles.trans (h : d.SameFiles d') (h' : d'.SameFiles d'') : d.SameFiles d'' :=
  fun loc contents executable => (h' loc contents executable).trans (h loc contents executable)

theorem sameFiles_put_folder {loc : Location} (h : d.node? loc = none) :
    d.SameFiles (d.put loc .folder) := by
  intro loc' contents executable
  by_cases heq : loc' = loc
  · subst heq
    have hne : loc' ≠ [] := by
      rintro rfl
      rw [node?_nil] at h
      cases h
    rw [node?_put_self d .folder hne, h]
    simp
  · rw [node?_put_of_ne d .folder heq]

theorem createFolder_sameFiles {path : String} (h : d.createFolder path = .ok d') :
    d.SameFiles d' := by
  unfold createFolder at h
  split_ifs at h
  dsimp only at h
  split at h
  · cases h
  · cases h
  · rename_i folder name hfollow
    cases h
    exact sameFiles_put_folder (free_of_follow hfollow)

/-- Folders above are created first, and each of them leaves the files. -/
theorem createFoldersUp_sameFiles (d : Disk) (path : String) (levels : ℕ) :
    d.SameFiles (d.createFoldersUp path levels).2 := by
  fun_induction createFoldersUp d path levels with
  | case3 path levels _ d₁ hcreate => exact createFolder_sameFiles hcreate
  | case5 path levels _ _ above _ e d₁ hup ih =>
    rw [hup] at ih
    exact ih
  | case6 path levels _ _ above _ d₁ hup d₂ hcreate ih =>
    rw [hup] at ih
    exact ih.trans (createFolder_sameFiles hcreate)
  | case7 path levels _ _ above _ d₁ hup e _ _ ih =>
    rw [hup] at ih
    exact ih
  | case8 path levels _ _ above _ d₁ hup e _ _ ih =>
    rw [hup] at ih
    exact ih
  | _ => exact .refl d

theorem createFolders_sameFiles (d : Disk) (path : String) :
    d.SameFiles (createFolders path d).2 :=
  createFoldersUp_sameFiles d path _

end CallGraph.Disk
