import CallGraph.Analyzer.Settings
import Mathlib.Logic.Function.Basic
import Mathlib.Tactic.Common

/-!
The command line of an analyzer can be read back. A value is taken by its place behind an option, so it
may be empty or look like an option itself.
-/
namespace CallGraph.Settings

variable {option value : String} {values words rest names : List String} {flags : List Bool}
  {s : Settings}

def takeOption (option : String) : List String → Option (String × List String)
  | word :: value :: rest => if word = option then some (value, rest) else none
  | _ => none

/-- The values of an option as long as it comes again, and the words behind them. -/
def takeRepeated (option : String) : List String → List String × List String
  | word :: value :: rest =>
    if word = option then
      let (values, rest) := takeRepeated option rest
      (value :: values, rest)
    else ([], word :: value :: rest)
  | words => ([], words)

/-- Which of some switches come next, in their order, and the words behind them. -/
def takeSwitches : (names words : List String) → List Bool × List String
  | [], words => ([], words)
  | _ :: names, [] =>
    let (flags, words) := takeSwitches names []
    (false :: flags, words)
  | name :: names, word :: words =>
    if word = name then
      let (flags, words) := takeSwitches names words
      (true :: flags, words)
    else
      let (flags, words) := takeSwitches names (word :: words)
      (false :: flags, words)

def switchNames : List String :=
  ["--app", "--whole-program", "--prepend-classpath", "--allow-phantom-refs",
    "--no-bodies-for-excluded"]

/-- The settings that a command line tells, if it is one for an analyzer. -/
def ofArguments? (words : List String) : Option Settings :=
  (takeOption "--classpath" words).bind fun (inputFolder, words) =>
    let (archives, words) := takeRepeated "--process-dir" words
    (takeOption "--main-class" words).bind fun (mainClass, words) =>
      let (excludes, words) := takeRepeated "--exclude" words
      match takeSwitches switchNames words with
      | ([appMode, wholeProgram, prependClasspath, allowPhantomRefs, noBodiesForExcluded], []) =>
        some { inputFolder, archives, mainClass, excludes, appMode, wholeProgram, prependClasspath,
               allowPhantomRefs, noBodiesForExcluded }
      | _ => none

def repeated (option : String) (values : List String) : List String :=
  values.flatMap fun value => [option, value]

def given (flags : List Bool) (names : List String) : List String :=
  ((flags.zip names).filter (·.1)).map (·.2)

def switchStates (s : Settings) : List Bool :=
  [s.appMode, s.wholeProgram, s.prependClasspath, s.allowPhantomRefs, s.noBodiesForExcluded]

theorem arguments_eq (s : Settings) :
    s.arguments = "--classpath" :: s.inputFolder :: (repeated "--process-dir" s.archives ++
      "--main-class" :: s.mainClass :: (repeated "--exclude" s.excludes ++
        given s.switchStates switchNames)) := by
  simp only [arguments, List.append_assoc, List.cons_append, List.nil_append]
  rfl

theorem given_subset (flags : List Bool) (names : List String) : given flags names ⊆ names := by
  intro name hname
  obtain ⟨_, hmem, rfl⟩ := List.mem_map.mp hname
  exact (List.of_mem_zip (List.mem_filter.mp hmem).1).2

theorem takeOption_cons (option value : String) (rest : List String) :
    takeOption option (option :: value :: rest) = some (value, rest) :=
  if_pos rfl

theorem eq_of_takeOption (h : takeOption option words = some (value, rest)) :
    words = option :: value :: rest := by
  unfold takeOption at h
  split at h
  · split_ifs at h with hword
    cases h
    rw [hword]
  · cases h

/-- An option ends where another word stands in its place. -/
theorem takeRepeated_append (values : List String) (hrest : rest.head? ≠ some option) :
    takeRepeated option (repeated option values ++ rest) = (values, rest) := by
  induction values with
  | nil =>
    change takeRepeated option rest = ([], rest)
    unfold takeRepeated
    split
    · rw [if_neg fun hword => hrest (congrArg some hword)]
    · rfl
  | cons value values ih =>
    change takeRepeated option (option :: value :: (repeated option values ++ rest)) = _
    rw [takeRepeated, if_pos rfl, ih]

theorem eq_of_takeRepeated (h : takeRepeated option words = (values, rest)) :
    words = repeated option values ++ rest := by
  fun_induction takeRepeated option words generalizing values with
  | case1 value words more _ hmore ih =>
    cases h
    exact congrArg (option :: value :: ·) (ih hmore)
  | case2 | case3 =>
    cases h
    rfl

theorem takeSwitches_given (hnodup : names.Nodup) (hlength : flags.length = names.length) :
    takeSwitches names (given flags names) = (flags, []) := by
  induction names generalizing flags with
  | nil =>
    rw [List.length_eq_zero_iff.mp hlength]
    rfl
  | cons name names ih =>
    obtain ⟨on, flags, rfl⟩ := List.exists_cons_of_length_eq_add_one hlength
    have hmore := ih hnodup.of_cons (Nat.succ.inj hlength)
    have hname : name ∉ given flags names := fun hmem =>
      (List.nodup_cons.mp hnodup).1 (given_subset flags names hmem)
    cases on with
    | true =>
      change takeSwitches (name :: names) (name :: given flags names) = _
      rw [takeSwitches, if_pos rfl, hmore]
    | false =>
      change takeSwitches (name :: names) (given flags names) = _
      cases hgiven : given flags names with
      | nil =>
        rw [hgiven] at hmore
        rw [takeSwitches, hmore]
      | cons word words =>
        rw [hgiven] at hmore hname
        rw [takeSwitches, if_neg (List.ne_of_not_mem_cons hname).symm, hmore]

theorem eq_of_takeSwitches (h : takeSwitches names words = (flags, rest)) :
    words = given flags names ++ rest := by
  fun_induction takeSwitches names words generalizing flags with
  | case1 =>
    cases h
    rfl
  | case2 name names more _ hmore ih =>
    cases h
    exact ih hmore
  | case3 names name words more _ hmore ih =>
    cases h
    exact congrArg (name :: ·) (ih hmore)
  | case4 name names word words hword more _ hmore ih =>
    cases h
    exact ih hmore

theorem ofArguments?_arguments (s : Settings) : ofArguments? s.arguments = some s := by
  have hmain : ("--main-class" :: s.mainClass :: (repeated "--exclude" s.excludes ++
      given s.switchStates switchNames)).head? ≠ some "--process-dir" := by
    simp
  have hswitch : (given s.switchStates switchNames).head? ≠ some "--exclude" := by
    intro hhead
    have hmem := given_subset s.switchStates switchNames (List.mem_of_head? hhead)
    exact absurd hmem (by decide)
  have hstates : takeSwitches switchNames (given s.switchStates switchNames) = (s.switchStates, []) :=
    takeSwitches_given (by decide) rfl
  rw [arguments_eq, ofArguments?, takeOption_cons, Option.bind_some]
  dsimp only
  rw [takeRepeated_append _ hmain]
  dsimp only
  rw [takeOption_cons, Option.bind_some]
  dsimp only
  rw [takeRepeated_append _ hswitch]
  dsimp only
  rw [hstates]
  rfl

/-- A command line that is read is the one that tells what was read. -/
theorem eq_arguments_of_ofArguments? (h : ofArguments? words = some s) : words = s.arguments := by
  unfold ofArguments? at h
  obtain ⟨⟨inputFolder, words₁⟩, hinput, h⟩ := Option.bind_eq_some_iff.mp h
  rcases harchives : takeRepeated "--process-dir" words₁ with ⟨archives, words₂⟩
  simp only [harchives] at h
  obtain ⟨⟨mainClass, words₃⟩, hmain, h⟩ := Option.bind_eq_some_iff.mp h
  rcases hexcludes : takeRepeated "--exclude" words₃ with ⟨excludes, words₄⟩
  simp only [hexcludes] at h
  split at h
  · rename_i hswitches
    cases h
    rw [eq_of_takeOption hinput, eq_of_takeRepeated harchives, eq_of_takeOption hmain,
      eq_of_takeRepeated hexcludes, eq_of_takeSwitches hswitches, List.append_nil, arguments_eq]
    rfl
  · cases h

/-- All settings can be read back from the command line that tells them, so no two have the same one;
and nothing is read from any other words. -/
theorem arguments_decoded :
    (∀ s, ofArguments? s.arguments = some s) ∧ Function.Injective arguments ∧
      ∀ words, (ofArguments? words).isSome ↔ ∃ s : Settings, s.arguments = words := by
  refine ⟨ofArguments?_arguments, fun s s' heq => ?_, fun words => ⟨fun h => ?_, ?_⟩⟩
  · have hread := ofArguments?_arguments s
    rw [heq, ofArguments?_arguments s'] at hread
    exact (Option.some.inj hread).symm
  · obtain ⟨s, hs⟩ := Option.isSome_iff_exists.mp h
    exact ⟨s, (eq_arguments_of_ofArguments? hs).symm⟩
  · rintro ⟨s, rfl⟩
    rw [ofArguments?_arguments]
    rfl

/-- Values that are option words or empty. -/
example : ofArguments? ["--classpath", "--main-class", "--process-dir", "--main-class", "--main-class",
    "--exclude", "--exclude", "", "--exclude", "--app", "--whole-program"] =
      some ⟨"--main-class", ["--main-class"], "--exclude", ["", "--app"], false, true, false, false,
        false⟩ := by
  decide +kernel

end CallGraph.Settings
