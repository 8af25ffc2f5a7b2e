import CallGraph.Disk.Files
import Mathlib.Tactic.Common

/-! Paths keep leading where they lead while files are created and written. -/
namespace CallGraph

/-- A node without what a file holds. -/
def Node.bare : Node → Node
  | .file _ executable => .file (.bytes .empty) executable
  | node => node

namespace Disk

variable {d d' d'' : Disk} {loc : Location}

theorem node?_nil (d : Disk) : d.node? [] = some .folder :=
  rfl

theorem ne_nil_of_node? {node : Node} (h : d.node? loc = some node) (hn : node ≠ .folder) :
    loc ≠ [] := by
  rintro rfl
  rw [node?_nil] at h
  exact hn (Option.some.inj h).symm

private theorem find?_replaced (nodes : List (Location × Node)) (node : Node)
    (h : nodes.any (·.1 == loc)) :
    (nodes.map fun entry => if entry.1 == loc then (loc, node) else entry).find? (·.1 == loc) =
      some (loc, node) := by
  induction nodes with
  | nil => cases h
  | cons entry nodes ih =>
    rw [List.any_cons, Bool.or_eq_true] at h
    by_cases he : entry.1 == loc
    · simp only [List.map_cons, he, if_true, List.find?_cons, beq_self_eq_true]
    · simp only [List.map_cons, he, Bool.false_eq_true, if_false, List.find?_cons]
      exact ih (h.resolve_left he)

private theorem find?_replaced_of_ne (nodes : List (Location × Node)) (node : Node)
    {loc' : Location} (h : loc' ≠ loc) :
    (nodes.map fun entry => if entry.1 == loc then (loc, node) else entry).find? (·.1 == loc') =
      nodes.find? (·.1 == loc') := by
  induction nodes with
  | nil => rfl
  | cons entry nodes ih =>
    by_cases he : entry.1 = loc
    · have hne : (loc == loc') = false := by simpa using h.symm
      simp only [List.map_cons, he, beq_self_eq_true, if_true, List.find?_cons, hne]
      exact ih
    · have hne : (entry.1 == loc) = false := by simpa using he
      simp only [List.map_cons, hne, Bool.false_eq_true, if_false, List.find?_cons, ih]

theorem node?_put_self (d : Disk) (node : Node) (h : loc ≠ []) :
    (d.put loc node).node? loc = some node := by
  unfold put node?
  rw [if_neg (by simpa using h)]
  by_cases hany : d.nodes.any (·.1 == loc)
  · rw [if_pos hany]
    simp only [find?_replaced d.nodes node hany, Option.map_some]
  · have hnone : d.nodes.find? (·.1 == loc) = none :=
      List.find?_eq_none.mpr fun entry he hp => hany (List.any_eq_true.mpr ⟨entry, he, hp⟩)
    rw [if_neg hany]
    simp [List.find?_append, hnone]

theorem node?_put_of_ne (d : Disk) (node : Node) {loc' : Location} (h : loc' ≠ loc) :
    (d.put loc node).node? loc' = d.node? loc' := by
  unfold put node?
  by_cases hany : d.nodes.any (·.1 == loc)
  · rw [if_pos hany]
    simp only [find?_replaced_of_ne d.nodes node h]
  · have hne : (loc == loc') = false := by simpa using h.symm
    rw [if_neg hany]
    simp [List.find?_append, hne]

/-- Every entry is still there, files perhaps with other contents. -/
structure Extends (d d' : Disk) : Prop where
  working : d'.working = d.working
  nodes : ∀ {loc node}, d.node? loc = some node →
    ∃ node', d'.node? loc = some node' ∧ node'.bare = node.bare

theorem Extends.refl (d : Disk) : d.Extends d :=
  ⟨rfl, fun h => ⟨_, h, rfl⟩⟩

theorem Extends.trans (h : d.Extends d') (h' : d'.Extends d'') : d.Extends d'' := by
  refine ⟨h'.working.trans h.working, fun hnode => ?_⟩
  obtain ⟨node', hnode', hbare⟩ := h.nodes hnode
  obtain ⟨node'', hnode'', hbare'⟩ := h'.nodes hnode'
  exact ⟨node'', hnode'', hbare'.trans hbare⟩

theorem Extends.folder (h : d.Extends d') (hnode : d.node? loc = some .folder) :
    d'.node? loc = some .folder := by
  obtain ⟨node', hnode', hbare⟩ := h.nodes hnode
  cases node' <;> simp_all [Node.bare]

theorem Extends.link (h : d.Extends d') {target : String}
    (hnode : d.node? loc = some (.link target)) : d'.node? loc = some (.link target) := by
  obtain ⟨node', hnode', hbare⟩ := h.nodes hnode
  cases node' <;> simp_all [Node.bare]

theorem Extends.file (h : d.Extends d') {contents : Contents} {executable : Bool}
    (hnode : d.node? loc = some (.file contents executable)) :
    ∃ contents', d'.node? loc = some (.file contents' executable) := by
  obtain ⟨node', hnode', hbare⟩ := h.nodes hnode
  cases node' <;> simp_all [Node.bare]

theorem Extends.fullDevice (h : d.Extends d') (hnode : d.node? loc = some .fullDevice) :
    d'.node? loc = some .fullDevice := by
  obtain ⟨node', hnode', hbare⟩ := h.nodes hnode
  cases node' <;> simp_all [Node.bare]

/-- A new entry leaves all others. -/
theorem extends_put_of_absent (node : Node) (h : d.node? loc = none) :
    d.Extends (d.put loc node) := by
  refine ⟨by unfold put; split <;> rfl, fun {loc' node'} hnode => ⟨node', ?_, rfl⟩⟩
  rw [node?_put_of_ne d node (fun heq => by simp [heq, h] at hnode), hnode]

theorem extends_put_of_file {contents : Contents} {executable : Bool} (contents' : Contents)
    (h : d.node? loc = some (.file contents executable)) :
    d.Extends (d.put loc (.file contents' executable)) := by
  refine ⟨by unfold put; split <;> rfl, fun {loc' node'} hnode => ?_⟩
  by_cases heq : loc' = loc
  · subst heq
    rw [h] at hnode
    cases hnode
    exact ⟨_, node?_put_self d _ (ne_nil_of_node? h (by simp)), rfl⟩
  · exact ⟨node', by rw [node?_put_of_ne d _ heq, hnode], rfl⟩

/-- Where names lead once a free name has become an entry. -/
def Stop.filled : Stop → Stop
  | .absent folder name => .at (folder ++ [name])
  | stop => stop

def Target.filled : Target → Target
  | .absent folder name => .at (folder ++ [name])
  | target => target

/-- Names lead to the same place, where a free name has become a file. -/
theorem Extends.walk (h : d.Extends d') {followLast : Bool} {here : Location} {names : List String}
    {stop : Stop} (hwalk : d.walk followLast here names = .ok stop)
    (hfile : ∀ folder name, stop = .absent folder name →
      ∃ contents executable, d'.node? (folder ++ [name]) = some (.file contents executable)) :
    d'.walk followLast here names = .ok stop.filled := by
  induction names generalizing here with
  | nil =>
    cases hwalk
    rfl
  | cons name rest ih =>
    unfold Disk.walk at hwalk ⊢
    cases hhere : d.node? here with
    | none => simp [hhere] at hwalk
    | some node =>
      cases node with
      | file contents executable => simp [hhere] at hwalk
      | link target => simp [hhere] at hwalk
      | fullDevice => simp [hhere] at hwalk
      | folder =>
        rw [hhere] at hwalk
        rw [h.folder hhere]
        by_cases hdot : name = "."
        · simp only [hdot, if_true] at hwalk ⊢
          exact ih hwalk
        by_cases hup : name = ".."
        · simp only [hup, String.reduceEq, if_true, if_false] at hwalk ⊢
          exact ih hwalk
        by_cases hlong : maxNameBytes < name.utf8ByteSize
        · simp [hdot, hup, hlong] at hwalk
        simp only [hdot, hup, hlong, if_false] at hwalk ⊢
        cases hnext : d.node? (here ++ [name]) with
        | none =>
          rw [hnext] at hwalk
          cases rest with
          | cons _ _ => cases hwalk
          | nil =>
            cases hwalk
            obtain ⟨contents, executable, hnext'⟩ := hfile here name rfl
            rw [hnext']
            rfl
        | some node =>
          rw [hnext] at hwalk
          cases node with
          | folder =>
            rw [h.folder hnext]
            exact ih hwalk
          | file contents executable =>
            obtain ⟨contents', hnext'⟩ := h.file hnext
            rw [hnext']
            exact ih hwalk
          | fullDevice =>
            rw [h.fullDevice hnext]
            exact ih hwalk
          | link target =>
            rw [h.link hnext]
            dsimp only at hwalk ⊢
            split_ifs at hwalk ⊢ <;> cases hwalk <;> rfl

theorem Extends.follow (h : d.Extends d') {followLast : Bool} {links : ℕ} {here : Location}
    {names : List String} {target : Target}
    (hfollow : d.follow followLast here names links = .ok target)
    (hfile : ∀ folder name, target = .absent folder name →
      ∃ contents executable, d'.node? (folder ++ [name]) = some (.file contents executable)) :
    d'.follow followLast here names links = .ok target.filled := by
  -- Each link that is followed leads to another walk from a new place.
  induction links generalizing here names with
  | zero =>
    unfold Disk.follow at hfollow ⊢
    cases hwalk : d.walk followLast here names with
    | error e => simp [hwalk] at hfollow
    | ok stop =>
      rw [hwalk] at hfollow
      cases stop with
      | «at» loc =>
        cases hfollow
        rw [h.walk hwalk (by simp)]
        rfl
      | absent folder name =>
        cases hfollow
        rw [h.walk hwalk (by simpa using hfile)]
        rfl
      | link _ _ _ => cases hfollow
  | succ links ih =>
    unfold Disk.follow at hfollow ⊢
    cases hwalk : d.walk followLast here names with
    | error e => simp [hwalk] at hfollow
    | ok stop =>
      rw [hwalk] at hfollow
      cases stop with
      | «at» loc =>
        cases hfollow
        rw [h.walk hwalk (by simp)]
        rfl
      | absent folder name =>
        cases hfollow
        rw [h.walk hwalk (by simpa using hfile)]
        rfl
      | link folder _ _ =>
        rw [h.walk hwalk (by simp)]
        exact ih hfollow

theorem Extends.locate (h : d.Extends d') {path : String} {target : Target}
    (hlocate : d.locate path = .ok target)
    (hfile : ∀ folder name, target = .absent folder name →
      ∃ contents executable, d'.node? (folder ++ [name]) = some (.file contents executable)) :
    d'.locate path = .ok target.filled := by
  have hstart : d'.startOf path = d.startOf path := by simp only [startOf, h.working]
  unfold Disk.locate at hlocate ⊢
  rw [hstart]
  split_ifs at hlocate ⊢
  exact h.follow hlocate hfile

theorem Extends.locate_at (h : d.Extends d') {path : String} (hlocate : d.locate path = .ok (.at loc)) :
    d'.locate path = .ok (.at loc) :=
  h.locate hlocate (by simp)

/-- A name that names find free is free. -/
theorem free_of_walk {followLast : Bool} {here folder : Location} {names : List String}
    {name : String} (h : d.walk followLast here names = .ok (.absent folder name)) :
    d.node? (folder ++ [name]) = none := by
  fun_induction Disk.walk d followLast here names with
  | case1 => cases h
  | case2 here rest hhere ih => exact ih h
  | case3 here rest hhere hne ih => exact ih h
  | case4 => cases h
  | case5 here first rest _ _ _ _ hfree _ =>
    cases h
    exact hfree
  | case6 => cases h
  | case7 => cases h
  | case8 => cases h
  | case9 _ _ _ _ _ _ _ _ _ _ ih => exact ih h
  | case10 => cases h

theorem free_of_follow {followLast : Bool} {links : ℕ} {here folder : Location}
    {names : List String} {name : String}
    (h : d.follow followLast here names links = .ok (.absent folder name)) :
    d.node? (folder ++ [name]) = none := by
  fun_induction Disk.follow d followLast here names links with
  | case3 here names folder' name' hwalk =>
    cases h
    exact free_of_walk hwalk
  | case7 here names links folder' name' hwalk =>
    cases h
    exact free_of_walk hwalk
  | case8 here names links folder' target rest hwalk ih => exact ih h
  | _ => cases h

theorem free_of_locate {path : String} {folder : Location} {name : String}
    (h : d.locate path = .ok (.absent folder name)) : d.node? (folder ++ [name]) = none := by
  unfold locate at h
  split_ifs at h
  exact free_of_follow h

end Disk
end CallGraph
