import CallGraph.Disk.Files
import CallGraph.Proofs.Disk.Following
import CallGraph.Proofs.Disk.Path
import Mathlib.Data.List.Nodup
import Mathlib.Tactic.Common

/-!
What a folder holds, and what the paths of its entries lead to. The order in which a disk lists its
entries does not matter for either.
-/
namespace CallGraph

theorem nodup_eraseDups {α : Type} [BEq α] [LawfulBEq α] (xs : List α) : xs.eraseDups.Nodup := by
  induction hlength : xs.length using Nat.strongRecOn generalizing xs with
  | _ n ih =>
    cases xs with
    | nil => exact List.nodup_nil
    | cons x rest =>
      have hfilter := List.length_filter_le (fun y => !y == x) rest
      rw [List.length_cons] at hlength
      rw [List.eraseDups_cons, List.nodup_cons, List.mem_eraseDups]
      exact ⟨by simp, ih _ (by omega) _ rfl⟩

namespace Disk

variable {d d' : Disk} {folder name path : String} {loc : Location}

theorem isSome_node?_iff (hne : loc ≠ []) :
    (d.node? loc).isSome ↔ loc ∈ d.nodes.map Prod.fst := by
  rw [node?, if_neg (by simpa using hne), Option.isSome_map, List.find?_isSome]
  simp

theorem mem_namesIn {folder : Location} :
    name ∈ d.namesIn folder ↔ (d.node? (folder ++ [name])).isSome := by
  rw [isSome_node?_iff (by simp), namesIn, List.mem_eraseDups, List.mem_filterMap, List.mem_map]
  constructor
  · rintro ⟨⟨loc, node⟩, hmem, hname⟩
    dsimp only at hname
    split_ifs at hname with hloc
    refine ⟨_, hmem, ?_⟩
    rw [← hloc.1]
    exact (List.dropLast_append_getLast? _ hname).symm
  · rintro ⟨⟨loc, node⟩, hmem, rfl⟩
    exact ⟨_, hmem, by simp⟩

theorem nodup_namesIn (d : Disk) (folder : Location) : (d.namesIn folder).Nodup :=
  nodup_eraseDups _

theorem entries_of_folder (hpath : d.locate path = .ok (.at loc))
    (hnode : d.node? loc = some .folder) : d.entries path = .ok (d.namesIn loc) := by
  simp only [entries, hpath, hnode]

theorem isFile_iff : d.isFile path ↔ ∃ loc contents executable,
    d.locate path = .ok (.at loc) ∧ d.node? loc = some (.file contents executable) := by
  unfold isFile lookup?
  cases hpath : d.locate path with
  | error e => simp
  | ok target =>
    cases target with
    | absent folder name => simp
    | «at» loc =>
      cases hnode : d.node? loc with
      | none => simp [hnode]
      | some node =>
        cases node with
        | file contents executable =>
          dsimp only
          rw [hnode]
          exact iff_of_true rfl ⟨loc, contents, executable, rfl, hnode⟩
        | folder => simp [hnode]
        | link target => simp [hnode]
        | fullDevice => simp [hnode]

/-- The entry under a name in a folder is a regular file, after so many links from it at most. -/
def IsFileWithin (d : Disk) (folder : Location) (name : String) (links : ℕ) : Prop :=
  ∃ loc contents executable, d.follow true folder [name] links = .ok (.at loc) ∧
    d.node? loc = some (.file contents executable)

theorem follow_same_iff {here : Location} {links : ℕ} :
    d.follow true here ["."] links = .ok (.at loc) ↔
      d.node? here = some .folder ∧ here = loc := by
  have hwalk (stop : Stop) : d.walk true here ["."] = .ok stop ↔
      d.node? here = some .folder ∧ .at here = stop := by
    unfold walk
    cases hnode : d.node? here with
    | none => simp
    | some node => cases node <;> simp [walk]
  rw [follow_eq_at_iff]
  simp [hwalk]

/-- A slash at the end of a folder's path makes no difference. -/
theorem follow_pathNames_iff (hfolder : d.node? loc = some .folder) {links : ℕ} {here : Location} :
    d.follow true here (pathNames folder) links = .ok (.at loc) ↔
      d.follow true here (Path.segments folder.toList) links = .ok (.at loc) := by
  rw [Path.pathNames_eq]
  split_ifs
  · rw [follow_append_iff (by simp)]
    constructor
    · rintro ⟨mid, used, left, rfl, hused, hleft⟩
      obtain ⟨-, rfl⟩ := follow_same_iff.mp hleft
      exact follow_of_le hused (Nat.le_add_right used left)
    · intro h
      exact ⟨loc, links, 0, rfl, h, follow_same_iff.mpr ⟨hfolder, rfl⟩⟩
  · rw [List.append_nil]

theorem locate_join (hpath : d.locate folder = .ok (.at loc)) (hname : Path.IsName name) :
    d.locate (Path.join folder name) =
      if maxPathBytes < (Path.join folder name).utf8ByteSize then .error .nameTooLong
      else d.follow true (d.startOf folder) (Path.segments folder.toList ++ [name]) maxLinks := by
  unfold locate at hpath
  split_ifs at hpath with hempty hnul hlong
  have hne : folder ≠ "" := by simpa using hempty
  obtain ⟨front, hjoin, -, hfront⟩ := Path.exists_toList_join folder name hne
  have hjoin_nonempty : ¬(Path.join folder name).isEmpty := by
    rw [String.isEmpty_iff, ← String.toList_inj, hjoin]
    simp
  have hjoin_nul : ¬(Path.join folder name).toList.contains '\x00' := by
    have hname_nul := hname.noNul
    obtain ⟨hfront, -⟩ | hfront := hfront <;> simp_all
  unfold locate startOf
  rw [if_neg hjoin_nonempty, if_neg hjoin_nul, Path.isAbsolute_join hname,
    Path.pathNames_join hname]

theorem isFile_join_iff (hpath : d.locate folder = .ok (.at loc))
    (hfolder : d.node? loc = some .folder) (hname : Path.IsName name) :
    d.isFile (Path.join folder name) ↔ (Path.join folder name).utf8ByteSize ≤ maxPathBytes ∧
      ∃ used left, used + left = maxLinks ∧
        d.follow true (d.startOf folder) (pathNames folder) used = .ok (.at loc) ∧
        d.IsFileWithin loc name left := by
  have hmost : d.follow true (d.startOf folder) (pathNames folder) maxLinks = .ok (.at loc) := by
    unfold locate at hpath
    split_ifs at hpath
    exact hpath
  rw [isFile_iff, locate_join hpath hname]
  split_ifs with hlong
  · constructor
    · rintro ⟨_, _, _, herror, -⟩
      cases herror
    · rintro ⟨hshort, -⟩
      omega
  · constructor
    · rintro ⟨file, contents, executable, hfile, hnode⟩
      obtain ⟨mid, used, left, hlinks, hused, hleft⟩ := (follow_append_iff (by simp)).mp hfile
      -- The names of the folder lead to one location, however many links may be followed.
      obtain rfl : mid = loc :=
        follow_unique hused ((follow_pathNames_iff hfolder).mp hmost)
      exact ⟨Nat.not_lt.mp hlong, used, left, hlinks, (follow_pathNames_iff hfolder).mpr hused,
        file, contents, executable, hleft, hnode⟩
    · rintro ⟨-, used, left, hlinks, hused, file, contents, executable, hleft, hnode⟩
      refine ⟨file, contents, executable, (follow_append_iff (by simp)).mpr ?_, hnode⟩
      exact ⟨loc, used, left, hlinks, (follow_pathNames_iff hfolder).mp hused, hleft⟩

/-- The same entries, in whatever order they are listed. -/
structure SameEntries (d d' : Disk) : Prop where
  working : d'.working = d.working
  nodes : ∀ loc, d'.node? loc = d.node? loc

theorem SameEntries.walk (h : SameEntries d d') (followLast : Bool) (here : Location)
    (names : List String) : d'.walk followLast here names = d.walk followLast here names := by
  induction names generalizing here with
  | nil => rfl
  | cons name rest ih =>
    unfold Disk.walk
    simp only [h.nodes, ih]

theorem SameEntries.follow (h : SameEntries d d') (followLast : Bool) (here : Location)
    (names : List String) (links : ℕ) :
    d'.follow followLast here names links = d.follow followLast here names links := by
  induction links generalizing here names with
  | zero =>
    unfold Disk.follow
    rw [h.walk]
  | succ links ih =>
    unfold Disk.follow
    simp only [h.walk, ih]

theorem SameEntries.locate (h : SameEntries d d') (path : String) :
    d'.locate path = d.locate path := by
  simp only [Disk.locate, startOf, h.working, h.follow]

theorem SameEntries.isFile (h : SameEntries d d') (path : String) :
    d'.isFile path = d.isFile path := by
  simp only [Disk.isFile, lookup?, h.locate, h.nodes]

end Disk
end CallGraph
