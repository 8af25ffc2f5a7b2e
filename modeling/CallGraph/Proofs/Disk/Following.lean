import CallGraph.Disk.Basic
import Mathlib.Tactic.Common

/-! Names can be followed in two parts, and the parts share the links that may be followed. -/
namespace CallGraph.Disk

variable {d : Disk} {here loc : Location} {names more : List String} {links left : ℕ}

/-- What is left to be done when more names come behind those that were followed. -/
def Stop.onward (d : Disk) (more : List String) : Stop → Except IoError Stop
  | .at loc => d.walk true loc more
  | .absent folder name => if more.isEmpty then .ok (.absent folder name) else .error .notFound
  | .link folder target rest => .ok (.link folder target (rest ++ more))

theorem walk_append (d : Disk) (here : Location) (names more : List String) :
    d.walk true here (names ++ more) = (d.walk true here names).bind (Stop.onward d more) := by
  induction names generalizing here with
  | nil => rfl
  | cons name rest ih =>
    rw [List.cons_append]
    unfold Disk.walk
    split
    · by_cases hdot : name = "."
      · simp only [hdot, if_true]
        exact ih here
      by_cases hup : name = ".."
      · simp only [hup, String.reduceEq, if_true, if_false]
        exact ih here.dropLast
      by_cases hlong : maxNameBytes < name.utf8ByteSize
      · simp only [hdot, hup, hlong, if_true, if_false]
        rfl
      simp only [hdot, hup, hlong, if_false]
      cases hnext : d.node? (here ++ [name]) with
      | none => cases rest <;> simp [Except.bind, Stop.onward]
      | some node =>
        cases node with
        | link target => simp [Except.bind, Stop.onward]
        | folder => exact ih (here ++ [name])
        | file contents executable => exact ih (here ++ [name])
        | fullDevice => exact ih (here ++ [name])
    · rfl

theorem walk_append_of_at (h : d.walk true here names = .ok (.at loc)) :
    d.walk true here (names ++ more) = d.walk true loc more := by
  rw [walk_append, h]
  rfl

theorem walk_append_of_link {folder : Location} {target : String} {rest : List String}
    (h : d.walk true here names = .ok (.link folder target rest)) :
    d.walk true here (names ++ more) = .ok (.link folder target (rest ++ more)) := by
  rw [walk_append, h]
  rfl

/-- Names behind which others lead to an entry lead to an entry themselves, or over a link. -/
theorem walk_cases_of_append {stop : Stop} (h : d.walk true here (names ++ more) = .ok stop)
    (hne : more ≠ []) : (∃ loc, d.walk true here names = .ok (.at loc)) ∨
      ∃ folder target rest, d.walk true here names = .ok (.link folder target rest) := by
  rw [walk_append] at h
  cases hwalk : d.walk true here names with
  | error e =>
    rw [hwalk] at h
    cases h
  | ok first =>
    cases first with
    | «at» loc => exact .inl ⟨loc, rfl⟩
    | link folder target rest => exact .inr ⟨folder, target, rest, rfl⟩
    | absent folder name =>
      rw [hwalk] at h
      simp [Except.bind, Stop.onward, hne] at h

/-- Names lead to an entry either without a link, or over a first one and one link fewer. -/
theorem follow_eq_at_iff : d.follow true here names links = .ok (.at loc) ↔
    d.walk true here names = .ok (.at loc) ∨
      ∃ left folder target rest, links = left + 1 ∧
        d.walk true here names = .ok (.link folder target rest) ∧
        d.follow true (if isAbsolute target then [] else folder) (pathNames target ++ rest) left =
          .ok (.at loc) := by
  cases links with
  | zero =>
    rw [Disk.follow]
    split <;> simp_all
  | succ left =>
    rw [Disk.follow]
    split <;> simp_all

theorem follow_of_le (h : d.follow true here names left = .ok (.at loc)) (hle : left ≤ links) :
    d.follow true here names links = .ok (.at loc) := by
  induction left generalizing here names links with
  | zero =>
    obtain hwalk | ⟨_, _, _, _, hzero, _⟩ := follow_eq_at_iff.mp h
    · exact follow_eq_at_iff.mpr (.inl hwalk)
    · omega
  | succ left ih =>
    obtain hwalk | ⟨left', folder, target, rest, hleft, hwalk, hrest⟩ := follow_eq_at_iff.mp h
    · exact follow_eq_at_iff.mpr (.inl hwalk)
    · obtain ⟨links, rfl⟩ : ∃ n, links = n + 1 := ⟨links - 1, by omega⟩
      obtain rfl : left' = left := by omega
      exact follow_eq_at_iff.mpr (.inr ⟨links, folder, target, rest, rfl, hwalk, ih hrest (by omega)⟩)

/-- However many links may be followed, names lead to one entry at most. -/
theorem follow_unique {loc' : Location} (h : d.follow true here names links = .ok (.at loc))
    (h' : d.follow true here names left = .ok (.at loc')) : loc = loc' := by
  have hmost := follow_of_le h (Nat.le_max_left links left)
  rw [follow_of_le h' (Nat.le_max_right links left)] at hmost
  cases hmost
  rfl

theorem follow_append_of_at (h : d.walk true here names = .ok (.at loc)) :
    d.follow true here (names ++ more) links = d.follow true loc more links := by
  cases links <;> simp only [Disk.follow, walk_append_of_at h]

/-- Names that lead to an entry lead to another first, from which the others go on. -/
theorem follow_append_iff (hmore : more ≠ []) :
    d.follow true here (names ++ more) links = .ok (.at loc) ↔
      ∃ mid used left, used + left = links ∧ d.follow true here names used = .ok (.at mid) ∧
        d.follow true mid more left = .ok (.at loc) := by
  constructor
  · intro h
    -- A link among the first names leaves one link fewer for all that is left to be followed.
    induction links using Nat.strongRecOn generalizing here names with
    | _ links ih =>
      have hstop : ∃ stop, d.walk true here (names ++ more) = .ok stop := by
        obtain hwalk | ⟨_, _, _, _, _, hwalk, _⟩ := follow_eq_at_iff.mp h <;> exact ⟨_, hwalk⟩
      obtain ⟨stop, hstop⟩ := hstop
      obtain ⟨mid, hwalk⟩ | ⟨folder, target, rest, hwalk⟩ := walk_cases_of_append hstop hmore
      · rw [follow_append_of_at hwalk] at h
        exact ⟨mid, 0, links, Nat.zero_add links, follow_eq_at_iff.mpr (.inl hwalk), h⟩
      · have hboth : d.walk true here (names ++ more) = .ok (.link folder target (rest ++ more)) :=
          walk_append_of_link hwalk
        obtain hat | ⟨n, _, _, _, rfl, hlink, hrest⟩ := follow_eq_at_iff.mp h
        · rw [hboth] at hat
          cases hat
        · rw [hboth] at hlink
          cases hlink
          rw [← List.append_assoc] at hrest
          obtain ⟨mid, used, left, rfl, hfirst, hsecond⟩ := ih n (by omega) hrest
          exact ⟨mid, used + 1, left, by omega,
            follow_eq_at_iff.mpr (.inr ⟨used, folder, target, rest, rfl, hwalk, hfirst⟩), hsecond⟩
  · rintro ⟨mid, used, left, rfl, hfirst, hsecond⟩
    induction used using Nat.strongRecOn generalizing here names with
    | _ used ih =>
      obtain hwalk | ⟨n, folder, target, rest, rfl, hwalk, hrest⟩ := follow_eq_at_iff.mp hfirst
      · rw [follow_append_of_at hwalk]
        exact follow_of_le hsecond (Nat.le_add_left left used)
      · refine follow_eq_at_iff.mpr (.inr ⟨n + left, folder, target, rest ++ more, by omega,
          walk_append_of_link hwalk, ?_⟩)
        rw [← List.append_assoc]
        exact ih n (by omega) hrest

end CallGraph.Disk
