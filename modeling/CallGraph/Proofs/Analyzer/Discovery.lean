import CallGraph.Analyzer.Settings
import CallGraph.Proofs.Disk.Entries
import CallGraph.Proofs.Filter
import CallGraph.Proofs.Text.ByteOrder
import CallGraph.Proofs.Text.Letters
import Mathlib.Data.List.Sort

/-!
Which entries of a folder are given to an analyzer as archives. What the folder holds decides, not the
order in which it is listed; an entry that its path cannot reach is passed over.
-/
namespace CallGraph

/-- A name ends in the ending of archives, in any letter case. -/
def EndsInJar (name : String) : Prop :=
  ∃ stem ending, name = stem ++ ending ∧ SameLetters ending ".jar"

namespace Settings

variable {d d' : Disk} {folder mainClass : String} {loc : Location} {filters more names : List String}
  {name : String} {s : Settings}

theorem isSuffixOf_toLower_iff :
    archiveEnding.isSuffixOf (name.toList.map Char.toLower) ↔ EndsInJar name := by
  have hsmall : archiveEnding = ".jar".toList.map Char.toLower := by decide
  rw [List.isSuffixOf_iff_suffix]
  constructor
  · rintro ⟨front, hfront⟩
    obtain ⟨stem, ending, hname, -, hending⟩ := List.map_eq_append_iff.mp hfront.symm
    refine ⟨String.ofList stem, String.ofList ending, ?_, ?_⟩
    · rw [← String.toList_inj, String.toList_append, String.toList_ofList, String.toList_ofList]
      exact hname
    · rw [SameLetters, String.toList_ofList, ← map_toLower_eq_iff, hending, hsmall]
  · rintro ⟨stem, ending, rfl, hending⟩
    refine ⟨stem.toList.map Char.toLower, ?_⟩
    rw [String.toList_append, List.map_append, (map_toLower_eq_iff _ _).mpr hending, hsmall]

theorem selects_iff : selects filters name ↔
    EndsInJar name ∧ (filters = [] ∨ ∃ f ∈ filters, PartOf f name) := by
  rw [selects, Bool.and_eq_true, isSuffixOf_toLower_iff]
  simp [occursIn_iff, PartOf]

def textLe (x y : String) : Bool :=
  !decide (y < x)

def selectedNames (d : Disk) (folder : String) (filters names : List String) : List String :=
  (names.filter fun name => selects filters name && d.isFile (Path.join folder name)).mergeSort textLe

theorem mem_selectedNames : name ∈ selectedNames d folder filters names ↔
    name ∈ names ∧ selects filters name ∧ d.isFile (Path.join folder name) := by
  simp [selectedNames]

theorem textLe_iff {x y : String} : textLe x y ↔ x ≤ y := by
  rw [textLe, Bool.not_eq_true', decide_eq_false_iff_not, not_lt]

/-- Each selected name is listed once, and the names ascend. -/
theorem ascending_selectedNames (h : names.Nodup) :
    (selectedNames d folder filters names).Pairwise (· < ·) :=
  pairwise_lt_mergeSort (fun _ _ => textLe_iff) Function.injective_id (h.filter _)

/-- The order of absolute paths is that of the names. -/
theorem selectedArchives_eq (h : ∀ name ∈ names, Path.IsName name) :
    selectedArchives d folder filters names = (selectedNames d folder filters names).map
      (Path.join (Path.absolute (Path.ofLocation d.working) folder)) := by
  have hname (name : String) (hmem : name ∈ names.filter fun name =>
      selects filters name && d.isFile (Path.join folder name)) : Path.IsName name :=
    h name (List.mem_of_mem_filter hmem)
  rw [selectedNames, selectedArchives]
  refine .trans ?_ (List.map_mergeSort fun x hx y hy =>
    (Path.le_join (hname x hx) (hname y hy)).symm).symm
  refine congrArg (List.mergeSort · Path.le) (List.map_congr_left fun name hmem => ?_)
  exact Path.absolute_join (hname name hmem)

/-- An entry is an archive that is asked for, and its path can be followed to a regular file. -/
structure Chosen (d : Disk) (folder : String) (loc : Location) (filters : List String)
    (name : String) : Prop where
  entry : (d.node? (loc ++ [name])).isSome
  /-- All links count that are followed to the folder and from it to the file. -/
  file : ∃ used left, used + left = Disk.maxLinks ∧
    d.follow true (d.startOf folder) (Disk.pathNames folder) used = .ok (.at loc) ∧
    d.IsFileWithin loc name left
  fits : (Path.join folder name).utf8ByteSize ≤ Disk.maxPathBytes
  ending : EndsInJar name
  passes : filters = [] ∨ ∃ f ∈ filters, PartOf f name

/-- The settings for archives under names in a folder, with all else as by default. -/
def forNames (d : Disk) (folder mainClass : String) (names : List String) : Settings :=
  { default with
    inputFolder := folder
    archives := names.map (Path.join (Path.absolute (Path.ofLocation d.working) folder))
    mainClass }

section

variable (hpath : d.locate folder = .ok (.at loc)) (hfolder : d.node? loc = some .folder)
  (hnames : ∀ name, (d.node? (loc ++ [name])).isSome → Path.IsName name)
include hpath hfolder hnames

theorem mem_selectedNames_iff_chosen :
    name ∈ selectedNames d folder filters (d.namesIn loc) ↔ Chosen d folder loc filters name := by
  rw [mem_selectedNames, Disk.mem_namesIn, selects_iff]
  constructor
  · rintro ⟨hentry, ⟨hending, hpasses⟩, hfile⟩
    obtain ⟨hfits, hfile⟩ := (Disk.isFile_join_iff hpath hfolder (hnames name hentry)).mp hfile
    exact ⟨hentry, hfile, hfits, hending, hpasses⟩
  · intro h
    exact ⟨h.entry, ⟨h.ending, h.passes⟩,
      (Disk.isFile_join_iff hpath hfolder (hnames name h.entry)).mpr ⟨h.fits, h.file⟩⟩

theorem discover_of_folder : discover d folder filters mainClass =
    if selectedNames d folder filters (d.namesIn loc) = [] then
      .error (.configuration (.noArchives folder))
    else .ok (forNames d folder mainClass (selectedNames d folder filters (d.namesIn loc))) := by
  have harchives : selectedArchives d folder filters (d.namesIn loc) =
      (selectedNames d folder filters (d.namesIn loc)).map
        (Path.join (Path.absolute (Path.ofLocation d.working) folder)) :=
    selectedArchives_eq fun name hname => hnames name (Disk.mem_namesIn.mp hname)
  simp [discover, Disk.entries_of_folder hpath hfolder, harchives, forNames]

theorem discover_eq_error_iff {e : ExportError} : discover d folder filters mainClass = .error e ↔
    selectedNames d folder filters (d.namesIn loc) = [] ∧
      e = .configuration (.noArchives folder) := by
  rw [discover_of_folder hpath hfolder hnames]
  split_ifs with hnone <;> simp [hnone, eq_comm]

theorem discover_eq_ok_iff : discover d folder filters mainClass = .ok s ↔
    selectedNames d folder filters (d.namesIn loc) ≠ [] ∧
      s = forNames d folder mainClass (selectedNames d folder filters (d.namesIn loc)) := by
  rw [discover_of_folder hpath hfolder hnames]
  split_ifs with hnone <;> simp [hnone, eq_comm]

omit hpath hfolder hnames in
theorem selectedNames_of_sameEntries (h : d.SameEntries d') (folder : String) (loc : Location) :
    selectedNames d' folder filters (d'.namesIn loc) =
      selectedNames d folder filters (d.namesIn loc) := by
  apply (ascending_selectedNames (d'.nodup_namesIn loc)).eq_of_mem_iff
    (ascending_selectedNames (d.nodup_namesIn loc))
  intro name
  rw [mem_selectedNames, mem_selectedNames, Disk.mem_namesIn, Disk.mem_namesIn, h.nodes, h.isFile]

theorem discover_of_sameEntries (h : d.SameEntries d') :
    discover d' folder filters mainClass = discover d folder filters mainClass := by
  have hnames' : ∀ name, (d'.node? (loc ++ [name])).isSome → Path.IsName name := by
    intro name hentry
    exact hnames name (h.nodes _ ▸ hentry)
  rw [discover_of_folder ((h.locate folder).trans hpath) ((h.nodes loc).trans hfolder) hnames',
    discover_of_folder hpath hfolder hnames, selectedNames_of_sameEntries h, forNames, forNames,
    h.working]

end

theorem Chosen.of_subset (h : Chosen d folder loc filters name) (hne : filters ≠ [])
    (hsubset : filters ⊆ more) : Chosen d folder loc more name := by
  obtain ⟨f, hf, hpart⟩ := h.passes.resolve_left hne
  exact { h with passes := .inr ⟨f, hsubset hf, hpart⟩ }

structure Discovers (d : Disk) (folder : String) (loc : Location) (filters : List String)
    (mainClass : String) : Prop where
  succeeds : (∃ s, discover d folder filters mainClass = .ok s) ↔
    ∃ name, Chosen d folder loc filters name
  fails : ∀ e, discover d folder filters mainClass = .error e →
    e = .configuration (.noArchives folder)
  /-- The archives stand in the ascending order of the bytes of their names, each once. -/
  listed : ∀ s, discover d folder filters mainClass = .ok s →
    ∃ names : List String, (∀ name, name ∈ names ↔ Chosen d folder loc filters name) ∧
      names.Pairwise (bytesOf · < bytesOf ·) ∧
      s = forNames d folder mainClass names
  distinct : ∀ s, discover d folder filters mainClass = .ok s → s.archives.Nodup
  absolute : ∀ s, discover d folder filters mainClass = .ok s →
    ∀ archive ∈ s.archives, Disk.isAbsolute archive
  unordered : ∀ d', d.SameEntries d' →
    discover d' folder filters mainClass = discover d folder filters mainClass
  widened : ∀ more, filters ≠ [] → filters ⊆ more →
    ∀ s, discover d folder filters mainClass = .ok s →
      ∃ s', discover d folder more mainClass = .ok s' ∧ s.archives ⊆ s'.archives

/-- Just the entries that are chosen are discovered in a folder that can be read. Every entry is taken to be
accessible, and every name to be text. -/
theorem discover_exact (filters : List String) (mainClass : String)
    (hpath : d.locate folder = .ok (.at loc)) (hfolder : d.node? loc = some .folder)
    (hnames : ∀ name, (d.node? (loc ++ [name])).isSome → Path.IsName name) :
    Discovers d folder loc filters mainClass := by
  have hchosen (filters : List String) (name : String) :
      name ∈ selectedNames d folder filters (d.namesIn loc) ↔ Chosen d folder loc filters name :=
    mem_selectedNames_iff_chosen hpath hfolder hnames
  have hdiscover (filters : List String) (s : Settings) :
      discover d folder filters mainClass = .ok s ↔
        selectedNames d folder filters (d.namesIn loc) ≠ [] ∧
          s = forNames d folder mainClass (selectedNames d folder filters (d.namesIn loc)) :=
    discover_eq_ok_iff hpath hfolder hnames
  constructor
  case succeeds =>
    simp only [hdiscover, exists_and_left, exists_eq, and_true, ← hchosen]
    exact ⟨List.exists_mem_of_ne_nil _, fun ⟨name, hname⟩ => List.ne_nil_of_mem hname⟩
  case fails =>
    intro e he
    exact ((discover_eq_error_iff hpath hfolder hnames).mp he).2
  case listed =>
    intro s hs
    exact ⟨_, hchosen filters, (ascending_selectedNames (d.nodup_namesIn loc)).imp bytesOf_lt,
      ((hdiscover filters s).mp hs).2⟩
  case distinct =>
    intro s hs
    obtain ⟨-, rfl⟩ := (hdiscover filters s).mp hs
    exact (ascending_selectedNames (d.nodup_namesIn loc)).nodup.map (Path.join_injective _)
  case absolute =>
    intro s hs archive harchive
    obtain ⟨-, rfl⟩ := (hdiscover filters s).mp hs
    obtain ⟨name, hname, rfl⟩ := List.mem_map.mp harchive
    rw [Path.isAbsolute_join (hnames name ((hchosen filters name).mp hname).entry)]
    exact Path.isAbsolute_absolute folder (Path.isAbsolute_ofLocation d.working)
  case unordered => exact fun d' h => discover_of_sameEntries hpath hfolder hnames h
  case widened =>
    intro more hne hsubset s hs
    obtain ⟨hsome, rfl⟩ := (hdiscover filters s).mp hs
    have hkept : selectedNames d folder filters (d.namesIn loc) ⊆
        selectedNames d folder more (d.namesIn loc) := by
      intro name hname
      exact (hchosen more name).mpr (((hchosen filters name).mp hname).of_subset hne hsubset)
    obtain ⟨name, hname⟩ := List.exists_mem_of_ne_nil _ hsome
    refine ⟨_, (hdiscover more _).mpr ⟨List.ne_nil_of_mem (hkept hname), rfl⟩, ?_⟩
    exact List.map_subset _ hkept

/-- A folder with an archive, a link to it, a link to nothing, a folder and a text. -/
def mixedDisk : Disk :=
  ⟨[(["w"], .folder), (["w", "in"], .folder), (["w", "in", "b.jar"], .file (.bytes .empty) false),
    (["w", "in", "a.JAR"], .link "b.jar"), (["w", "in", "lost.jar"], .link "nothing"),
    (["w", "in", "c.jar"], .folder), (["w", "in", "b.txt"], .file (.bytes .empty) false)], ["w"]⟩

theorem discover_exact_mixed :
    mixedDisk.locate "in/" = .ok (.at ["w", "in"]) ∧
      mixedDisk.node? ["w", "in"] = some .folder ∧
      (∀ name, (mixedDisk.node? (["w", "in"] ++ [name])).isSome → Path.IsName name) ∧
      Discovers mixedDisk "in/" ["w", "in"] ["b", "J", "c", "t"] "p.Main" ∧
      ∃ s, discover mixedDisk "in/" ["b", "J", "c", "t"] "p.Main" = .ok s ∧
        s.archives = ["/w/in/a.JAR", "/w/in/b.jar"] := by
  have hlisted : ∀ name ∈ mixedDisk.namesIn ["w", "in"], Path.IsName name := by decide +kernel
  have hnames (name : String) (hentry : (mixedDisk.node? (["w", "in"] ++ [name])).isSome) :
      Path.IsName name :=
    hlisted name (Disk.mem_namesIn.mpr hentry)
  have hpath : mixedDisk.locate "in/" = .ok (.at ["w", "in"]) := by rfl
  have hasked : (mixedDisk.namesIn ["w", "in"]).filter (fun name =>
      selects ["b", "J", "c", "t"] name && mixedDisk.isFile (Path.join "in/" name)) =
        ["b.jar", "a.JAR"] := by
    decide +kernel
  have hselected : selectedNames mixedDisk "in/" ["b", "J", "c", "t"] (mixedDisk.namesIn ["w", "in"]) =
      ["a.JAR", "b.jar"] := by
    have horder : textLe "b.jar" "a.JAR" = false := by decide +kernel
    rw [selectedNames, hasked]
    simp [List.mergeSort, horder]
  refine ⟨hpath, rfl, hnames, discover_exact ["b", "J", "c", "t"] "p.Main" hpath rfl hnames,
    forNames mixedDisk "in/" "p.Main" ["a.JAR", "b.jar"], ?_, by decide +kernel⟩
  exact (discover_eq_ok_iff hpath rfl hnames).mpr ⟨by simp [hselected], by rw [hselected]⟩

/-- The path of the working folder, with slashes at its end. -/
def slashed (slashes : ℕ) : String :=
  String.ofList ('.' :: List.replicate slashes '/')

def archiveDisk : Disk :=
  ⟨[(["w"], .folder), (["w", "a.jar"], .file (.bytes .empty) false)], ["w"]⟩

theorem utf8Len_slashes (n : ℕ) : String.utf8Len (List.replicate n '/') = n := by
  induction n with
  | zero => rfl
  | succ n ih =>
    rw [List.replicate_succ, String.utf8Len_cons, ih]
    rfl

theorem segments_slashes (n : ℕ) : Path.segments (List.replicate n '/') = [] := by
  induction n with
  | zero => rfl
  | succ n ih => exact (Path.segments_slash [] (List.replicate n '/')).trans ih

theorem utf8ByteSize_slashed (n : ℕ) : (slashed n).utf8ByteSize = n + 1 := by
  rw [slashed, String.utf8ByteSize_ofList, String.utf8Len_cons, utf8Len_slashes]
  rfl

theorem segments_slashed (n : ℕ) : Path.segments (slashed n).toList = ["."] := by
  rw [slashed, String.toList_ofList]
  cases n with
  | zero => rfl
  | succ n =>
    refine (Path.segments_slash ['.'] (List.replicate n '/')).trans ?_
    rw [segments_slashes]
    rfl

theorem locate_slashed {n : ℕ} (h : n < Disk.maxPathBytes) :
    archiveDisk.locate (slashed n) = .ok (.at ["w"]) := by
  have hempty : ¬(slashed n).isEmpty := by
    simp [slashed, String.isEmpty_iff, ← String.toList_inj]
  have hnul : ¬(slashed n).toList.contains '\x00' := by
    simp [slashed]
  have hfits : ¬Disk.maxPathBytes < (slashed n).utf8ByteSize := by
    rw [utf8ByteSize_slashed]
    omega
  have hstart : archiveDisk.startOf (slashed n) = ["w"] := by
    simp [Disk.startOf, Disk.isAbsolute, slashed, archiveDisk]
  unfold Disk.locate
  rw [if_neg hempty, if_neg hnul, if_neg hfits, hstart]
  rw [Path.pathNames_eq, segments_slashed]
  split_ifs <;> rfl

/-- A regular file named as an archive is passed over if its path is too long to be followed. -/
theorem discover_slashed :
    archiveDisk.locate (slashed 4090) = .ok (.at ["w"]) ∧ archiveDisk.node? ["w"] = some .folder ∧
      archiveDisk.IsFileWithin ["w"] "a.jar" 0 ∧ EndsInJar "a.jar" ∧
      discover archiveDisk (slashed 4090) [] "M" =
        .error (.configuration (.noArchives (slashed 4090))) ∧
      ¬((∃ s, discover archiveDisk (slashed 4090) [] "M" = .ok s) ↔
        ∃ name, archiveDisk.IsFileWithin ["w"] name Disk.maxLinks ∧ EndsInJar name) := by
  have hpath : archiveDisk.locate (slashed 4090) = .ok (.at ["w"]) := locate_slashed (by decide)
  have hfile : archiveDisk.IsFileWithin ["w"] "a.jar" 0 :=
    ⟨["w", "a.jar"], .bytes .empty, false, rfl, rfl⟩
  have hending : EndsInJar "a.jar" := ⟨"a", ".jar", by decide, by decide⟩
  have hlisted : archiveDisk.namesIn ["w"] = ["a.jar"] := by decide
  have hnames (name : String) (hentry : (archiveDisk.node? (["w"] ++ [name])).isSome) :
      name = "a.jar" := by
    simpa [hlisted] using Disk.mem_namesIn.mpr hentry
  have hvalid (name : String) (hentry : (archiveDisk.node? (["w"] ++ [name])).isSome) :
      Path.IsName name := by
    rw [hnames name hentry]
    decide
  have hnone : selectedNames archiveDisk (slashed 4090) [] (archiveDisk.namesIn ["w"]) = [] := by
    refine List.eq_nil_iff_forall_not_mem.mpr fun name hname => ?_
    have hchosen := (mem_selectedNames_iff_chosen hpath rfl hvalid).mp hname
    have hsize := Path.utf8ByteSize_le_join (slashed 4090) name
    have hfits := hchosen.fits
    rw [hnames name hchosen.entry] at hsize hfits
    rw [utf8ByteSize_slashed] at hsize
    have hname_size : "a.jar".utf8ByteSize = 5 := by decide
    have hlimit : Disk.maxPathBytes = 4095 := rfl
    omega
  have herror : discover archiveDisk (slashed 4090) [] "M" =
      .error (.configuration (.noArchives (slashed 4090))) :=
    (discover_eq_error_iff hpath rfl hvalid).mpr ⟨hnone, rfl⟩
  refine ⟨hpath, rfl, hfile, hending, herror, fun hclaimed => ?_⟩
  obtain ⟨s, hs⟩ := hclaimed.mpr ⟨"a.jar", ⟨["w", "a.jar"], .bytes .empty, false, rfl, rfl⟩, hending⟩
  rw [herror] at hs
  cases hs

end Settings
end CallGraph
