import CallGraph.Disk.Path
import Mathlib.Data.List.Basic
import Mathlib.Tactic.Common

/-! The path of an entry is its folder's path with one name more, also in the absolute form. -/
namespace CallGraph.Path

variable {working folder name path : String}

structure IsName (name : String) : Prop where
  nonempty : name ≠ ""
  notSame : name ≠ "."
  notAbove : name ≠ ".."
  noSlash : '/' ∉ name.toList
  noNul : '\x00' ∉ name.toList

instance (name : String) : Decidable (IsName name) :=
  decidable_of_iff
    (name ≠ "" ∧ name ≠ "." ∧ name ≠ ".." ∧ '/' ∉ name.toList ∧ '\x00' ∉ name.toList)
    ⟨fun ⟨hne, hsame, habove, hslash, hnul⟩ => ⟨hne, hsame, habove, hslash, hnul⟩,
      fun h => ⟨h.nonempty, h.notSame, h.notAbove, h.noSlash, h.noNul⟩⟩

def segments (chars : List Char) : List String :=
  ((chars.splitOn '/').filter (!·.isEmpty)).map String.ofList

theorem segments_slash (front back : List Char) :
    segments (front ++ '/' :: back) = segments front ++ segments back := by
  simp only [segments, List.splitOn_append_cons_self, List.filter_append, List.map_append]

theorem segments_of_isName (h : IsName name) : segments name.toList = [name] := by
  have hne : name.toList ≠ [] := by simpa using h.nonempty
  simp [segments, List.splitOn_eq_singleton h.noSlash, hne]

/-- A path that is not empty is extended by a slash and a name; a slash at its end serves. -/
theorem exists_toList_join (folder name : String) (hne : folder ≠ "") :
    ∃ front, (join folder name).toList = front ++ '/' :: name.toList ∧
      segments folder.toList = segments front ∧
      (folder.toList = front ∧ front.getLast? ≠ some '/' ∨ folder.toList = front ++ ['/']) := by
  have hempty : ¬folder.isEmpty := by simpa using hne
  unfold join
  rw [if_neg hempty]
  split_ifs with hlast
  · have hfolder := (List.dropLast_append_getLast? '/' hlast).symm
    refine ⟨folder.toList.dropLast, ?_, ?_, .inr hfolder⟩
    · rw [String.toList_append, hfolder]
      simp
    · conv_lhs => rw [hfolder, segments_slash]
      simp [segments]
  · exact ⟨folder.toList, by simp, rfl, .inl ⟨rfl, hlast⟩⟩

theorem utf8ByteSize_le_join (folder name : String) :
    folder.utf8ByteSize + name.utf8ByteSize ≤ (join folder name).utf8ByteSize := by
  unfold join
  split_ifs with hempty
  · rw [String.isEmpty_iff] at hempty
    simp [hempty]
  · exact Nat.le_of_eq String.utf8ByteSize_append.symm
  · rw [String.utf8ByteSize_append, String.utf8ByteSize_append]
    omega

theorem join_injective (folder : String) : Function.Injective (join folder) := by
  intro name name' h
  unfold join at h
  split_ifs at h
  · exact h
  · simpa [← String.toList_inj] using h
  · simpa [← String.toList_inj] using h

theorem segments_join (h : IsName name) :
    segments (join folder name).toList = segments folder.toList ++ [name] := by
  by_cases hne : folder = ""
  · subst hne
    rw [← segments_of_isName h]
    rfl
  · obtain ⟨front, hjoin, hfront, _⟩ := exists_toList_join folder name hne
    rw [hjoin, segments_slash, segments_of_isName h, hfront]

theorem pathNames_eq (path : String) : Disk.pathNames path = segments path.toList ++
    if path.toList.getLast? = some '/' ∧ segments path.toList ≠ [] then ["."] else [] := by
  change (if path.toList.getLast? = some '/' ∧ (!(segments path.toList).isEmpty) = true
    then segments path.toList ++ ["."] else segments path.toList) = _
  simp only [Bool.not_eq_true', List.isEmpty_eq_false_iff]
  split_ifs
  · rfl
  · rw [List.append_nil]

/-- A path with a name at its end does not end in a slash. -/
theorem getLast?_join (h : IsName name) : (join folder name).toList.getLast? ≠ some '/' := by
  have hne : name.toList ≠ [] := by simpa using h.nonempty
  have hlast : (join folder name).toList.getLast? = name.toList.getLast? := by
    by_cases hfolder : folder = ""
    · subst hfolder
      rfl
    · obtain ⟨front, hjoin, -, -⟩ := exists_toList_join folder name hfolder
      rw [hjoin, List.append_cons, List.getLast?_append_of_ne_nil _ hne]
  rw [hlast]
  exact fun hslash => h.noSlash (List.mem_of_getLast? hslash)

theorem pathNames_join (h : IsName name) :
    Disk.pathNames (join folder name) = segments folder.toList ++ [name] := by
  rw [pathNames_eq, if_neg fun hslash => getLast?_join h hslash.1, List.append_nil,
    segments_join h]

theorem isAbsolute_join_of_ne (name : String) (hne : folder ≠ "") :
    Disk.isAbsolute (join folder name) = Disk.isAbsolute folder := by
  obtain ⟨front, hjoin, -, hfront⟩ := exists_toList_join folder name hne
  unfold Disk.isAbsolute
  rw [hjoin]
  obtain ⟨hfront, -⟩ | hfront := hfront <;> rw [hfront]
  · have hfront_ne : front ≠ [] := by
      rw [← hfront]
      simpa using hne
    rw [List.head?_append_of_ne_nil _ hfront_ne]
  · cases front <;> rfl

theorem isAbsolute_join (h : IsName name) :
    Disk.isAbsolute (join folder name) = Disk.isAbsolute folder := by
  by_cases hne : folder = ""
  · have hslash : name.toList.head? ≠ some '/' := fun hslash =>
      h.noSlash (List.mem_of_head? hslash)
    subst hne
    simpa [Disk.isAbsolute, join] using hslash
  · exact isAbsolute_join_of_ne name hne

theorem rootOf_join (h : IsName name) (habsolute : Disk.isAbsolute folder) :
    rootOf (join folder name) = rootOf folder := by
  have hfolder : folder ≠ "" := by
    rintro rfl
    cases habsolute
  obtain ⟨front, hjoin, -, hfront⟩ := exists_toList_join folder name hfolder
  obtain ⟨c, rest, hname⟩ := List.exists_cons_of_ne_nil (l := name.toList) (by simpa using h.nonempty)
  have hc : c ≠ '/' := by
    rintro rfl
    exact h.noSlash (by simp [hname])
  have hroot : "//".toList = ['/', '/'] ∧ "///".toList = ['/', '/', '/'] := by decide
  unfold rootOf
  rw [hjoin, hname, hroot.1, hroot.2]
  -- Three characters decide, and the name begins with another one than a slash.
  obtain ⟨hfront, hlast⟩ | hfront := hfront <;> rw [hfront] <;>
    rcases front with _ | ⟨a, _ | ⟨b, _ | ⟨b', more⟩⟩⟩ <;>
    simp_all [List.isPrefixOf, @eq_comm _ '/']

theorem parts_eq (path : String) : parts path = (segments path.toList).filter (· ≠ ".") := by
  rw [parts, pathNames_eq]
  split_ifs <;> simp

theorem parts_join (h : IsName name) : parts (join folder name) = parts folder ++ [name] := by
  rw [parts_eq, parts_eq, segments_join h, List.filter_append]
  simp [h.notSame]

/-- The absolute path of an entry is its name within its folder's absolute path. -/
theorem absolute_join (h : IsName name) :
    absolute working (join folder name) = join (absolute working folder) name := by
  have hstart : (if Disk.isAbsolute (join folder name) then rootOf (join folder name) else working) =
      if Disk.isAbsolute folder then rootOf folder else working := by
    rw [isAbsolute_join h]
    split_ifs with habsolute
    · exact rootOf_join h habsolute
    · rfl
  rw [absolute, absolute, hstart, parts_join h, List.foldl_append]
  rfl

theorem precede_append (front xs ys : List String) :
    precede (front ++ xs) (front ++ ys) = precede xs ys := by
  induction front with
  | nil => rfl
  | cons x front ih => rw [List.cons_append, List.cons_append, precede, if_pos rfl, ih]

/-- Entries of one folder stand in the order of their names. -/
theorem le_join {name' : String} (h : IsName name) (h' : IsName name') :
    le (join folder name) (join folder name') = !decide (name' < name) := by
  have hnames : precede [name'] [name] = decide (name' < name) := by
    by_cases hsame : name' = name
    · subst hsame
      simp [precede]
    · simp [precede, hsame, h.notAbove, h'.notAbove]
  rw [le, parts_join h, parts_join h', precede_append, hnames]

theorem isAbsolute_ofLocation (loc : Location) : Disk.isAbsolute (ofLocation loc) := by
  cases loc with
  | nil => rfl
  | cons name rest => simp [ofLocation, Disk.isAbsolute, String.toList_append]

theorem isAbsolute_foldl_join (names : List String) (h : Disk.isAbsolute path) :
    Disk.isAbsolute (names.foldl join path) := by
  induction names generalizing path with
  | nil => exact h
  | cons name names ih =>
    have hne : path ≠ "" := by
      rintro rfl
      cases h
    exact ih ((isAbsolute_join_of_ne name hne).trans h)

theorem isAbsolute_absolute (path : String) (h : Disk.isAbsolute working) :
    Disk.isAbsolute (absolute working path) := by
  apply isAbsolute_foldl_join
  split_ifs
  · unfold rootOf
    split_ifs <;> rfl
  · exact h

end CallGraph.Path
