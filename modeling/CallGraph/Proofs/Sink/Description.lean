import CallGraph.Proofs.Sink.Documents

/-! The method document describes each method that the edge document mentions, as it came first. -/
namespace CallGraph

def Json.Value.field? (name : String) : Json.Value → Option String
  | .object members =>
    match members.find? (·.1 == name) with
    | some (_, .text s) => some s
    | _ => none
  | _ => none

/-- The signatures that a list of edges refers to, sources and targets. -/
def Json.Value.references : Json.Value → List String
  | .array items => items.flatMap fun item => (item.field? "src").toList ++ (item.field? "tgt").toList
  | _ => []

namespace Documents

theorem firstCarriers_concat (edges : List Edge) (e : Edge) :
    firstCarriers (edges ++ [e]) = e.endpoints.foldl describe (firstCarriers edges) := by
  simp [firstCarriers, List.foldl_append]

variable {p : Places} {edges : List Edge} {s : Documents × Disk}

theorem methodCount_of_ready (h : Ready p edges s) :
    s.1.methodCount = ((edges.flatMap Edge.endpoints).map Method.signature).eraseDups.length := by
  rw [methodCount, h.2, List.length_reverse, firstCarriers, signatures_foldl_describe]

theorem addEdge_ready (h : Ready p edges s) (e : Edge) :
    (addEdge e s).1 = .ok () ∧ Ready p (edges ++ [e]) (addEdge e s).2 ∨
      ∃ path, p.Fails path ∧ (addEdge e s).1 = .error (.io path .noSpace) ∧
        Holds p (firstCarriers (edges ++ [e])) edges (addEdge e s).2 := by
  rw [Ready, firstCarriers_concat]
  rcases addEdge_added h.1 h.2 e with ⟨hok, hmarks, hholds⟩ | ⟨path, hfails, herror, hholds⟩
  · exact .inl ⟨hok, hholds, hmarks⟩
  · exact .inr ⟨path, hfails, herror, hholds⟩

/-- On files any edges can be added. -/
theorem addAll_ready (hm : p.mapping ≠ .full) (he : p.edges ≠ .full) (h : Ready p edges s)
    (more : List Edge) :
    ∃ s', Action.sequence (more.map addEdge) s = (.ok (), s') ∧ Ready p (edges ++ more) s' := by
  induction more generalizing edges s with
  | nil => exact ⟨s, rfl, by rwa [List.append_nil]⟩
  | cons e more ih =>
    rcases addEdge_ready h e with ⟨hok, hready⟩ | ⟨path, hfails, -⟩
    · obtain ⟨s', hmore, hready'⟩ := ih hready
      refine ⟨s', ?_, by rwa [List.append_assoc] at hready'⟩
      rw [List.map_cons, Action.sequence, Action.andThen_of_ok _ hok, hmore]
    · exact absurd hfails (p.not_fails hm he path)

structure Describes (edges : List Edge) (members : List (String × Json.Value)) : Prop where
  /-- One key for each signature, in the order of first occurrence. -/
  keys : members.map Prod.fst = ((edges.flatMap Edge.endpoints).map Method.signature).eraseDups
  nodup : (members.map Prod.fst).Nodup
  /-- The value under a key tells of the first method that carried the signature. -/
  values : ∀ key value, (key, value) ∈ members →
    ∃ m, (edges.flatMap Edge.endpoints).find? (·.signature == key) = some m ∧
      value = methodValue m

/-- What describes the methods is determined by the edges. -/
theorem Describes.unique {members members' : List (String × Json.Value)} (h : Describes edges members)
    (h' : Describes edges members') : members = members' := by
  have hkeys : members.map Prod.fst = members'.map Prod.fst := h.keys.trans h'.keys.symm
  have hlength : members.length = members'.length := by simpa using congrArg List.length hkeys
  refine List.ext_getElem hlength fun i hi hi' => ?_
  have hkey : members[i].1 = members'[i].1 := by
    rw [← List.getElem_map Prod.fst, ← List.getElem_map Prod.fst]
    · exact List.getElem_of_eq hkeys _
    · simpa using hi
  obtain ⟨m, hm, hvalue⟩ := h.values _ _ (List.getElem_mem hi)
  obtain ⟨m', hm', hvalue'⟩ := h'.values _ _ (List.getElem_mem hi')
  obtain rfl : m = m' := Option.some.inj (hm.symm.trans (hkey ▸ hm'))
  exact Prod.ext hkey (hvalue.trans hvalue'.symm)

theorem describes_firstCarriers (edges : List Edge) :
    Describes edges ((firstCarriers edges).map methodEntry) := by
  have hkeys : ((firstCarriers edges).map methodEntry).map Prod.fst =
      (firstCarriers edges).map Method.signature := by
    simp [methodEntry, Function.comp_def]
  refine ⟨?_, ?_, ?_⟩
  · rw [hkeys]
    exact signatures_foldl_describe _
  · rw [hkeys]
    exact nodup_signatures _
  · intro key value hmember
    obtain ⟨m, hm, heq⟩ := List.mem_map.mp hmember
    cases heq
    exact ⟨m, find?_of_mem_foldl_describe hm, rfl⟩

theorem references_edges (edges : List Edge) :
    (Json.Value.array (edges.map edgeValue)).references =
      (edges.flatMap Edge.endpoints).map Method.signature := by
  simp [Json.Value.references, List.flatMap_map, List.map_flatMap, Json.Value.field?, edgeValue,
    Edge.endpoints]

theorem Describes.mem_keys_iff {members : List (String × Json.Value)} (h : Describes edges members)
    (signature : String) :
    signature ∈ members.map Prod.fst ↔
      signature ∈ (Json.Value.array (edges.map edgeValue)).references := by
  rw [h.keys, references_edges, List.mem_eraseDups]

/-- Any edges can be added to documents on two files; the method document then describes exactly
the methods that the edge document refers to, each once and as it came first, and they are counted
at every moment. -/
theorem files_described {folder : String} {d₀ d : Disk} {docs : Documents}
    (h : Created folder d₀ docs d) (edges : List Edge) :
    ∃ s members listed, Action.sequence (edges.map addEdge) (docs, d) = (.ok (), s) ∧
      (close s).1 = .ok () ∧
      (close s).2.2.json? (mappingPath folder) = some (.object members) ∧
      (close s).2.2.json? (edgesPath folder) = some listed ∧ Describes edges members ∧
      (∀ signature, signature ∈ members.map Prod.fst ↔ signature ∈ listed.references) ∧
      ∀ n, (Action.sequence ((edges.take n).map addEdge) (docs, d)).2.1.methodCount =
        (((edges.take n).flatMap Edge.endpoints).map Method.signature).eraseDups.length := by
  obtain ⟨p, rfl, hm, he, hready⟩ := h.ready
  obtain ⟨s, hadd, hs⟩ := addAll_ready hm he hready edges
  have hclosed := close_closed hs.1
  have hdescribes := describes_firstCarriers edges
  refine ⟨s, _, _, hadd, hclosed.ok hm he, hclosed.mapping hm, hclosed.edges he, hdescribes,
    hdescribes.mem_keys_iff, fun n => ?_⟩
  obtain ⟨s', hadd', hs'⟩ := addAll_ready hm he hready (edges.take n)
  rw [hadd']
  exact methodCount_of_ready hs'

/-- A call whose source has a signature that another method came under. -/
private def lateCall : Edge :=
  ⟨.inOwnPackage "r.C" "h" "f()", .inOwnPackage "D" "k" "k()", .virtual⟩

theorem files_described_crossCall :
    ∃ docs d s, Created "out" (.fresh ["w"]) docs d ∧
      Action.sequence ([crossCall, lateCall].map addEdge) (docs, d) = (.ok (), s) ∧
      (close s).2.2.json? (mappingPath "out") = some (.object
        [("f()", .object [("method", .text "f"), ("class", .text "A"), ("package", .text "p")]),
          ("g()", .object [("method", .text "g"), ("class", .text "B"), ("package", .text "q")]),
          ("k()", .object [("method", .text "k"), ("class", .text "D"), ("package", .text "")])]) := by
  obtain ⟨docs, d, h⟩ := created_fresh
  obtain ⟨s, members, _, hadd, -, hmapping, -, hdescribes, -⟩ :=
    files_described h [crossCall, lateCall]
  have hmembers : members = (firstCarriers [crossCall, lateCall]).map methodEntry :=
    hdescribes.unique (describes_firstCarriers _)
  rw [hmembers] at hmapping
  exact ⟨docs, d, s, h, hadd, hmapping⟩

/-- Where one file is opened under both names, it holds neither document, and nothing fails. -/
theorem linked_not_described :
    ∃ docs d s, create "." linkedDisk = (.ok docs, d) ∧ d.isFile (mappingPath ".") ∧
      d.isFile (edgesPath ".") ∧ Action.sequence ([crossCall].map addEdge) (docs, d) = (.ok (), s) ∧
      (close s).1 = .ok () ∧ (close s).2.2.json? (mappingPath ".") = none := by
  have hrun : Action.leads (create ".") linkedDisk (fun docs d =>
      d.isFile (mappingPath ".") && d.isFile (edgesPath ".") &&
      (Action.sequence ([crossCall].map addEdge)).leads (docs, d) (fun _ s =>
        decide ((close s).1 = .ok ()) && ((close s).2.2.json? (mappingPath ".")).isNone)) := by
    decide +kernel
  obtain ⟨docs, d, hcreate, hcheck⟩ := Action.exists_of_leads hrun
  rw [Bool.and_eq_true, Bool.and_eq_true] at hcheck
  obtain ⟨⟨hm, he⟩, hadded⟩ := hcheck
  obtain ⟨_, s, hadd, hcheck⟩ := Action.exists_of_leads hadded
  rw [Bool.and_eq_true, decide_eq_true_iff, Option.isNone_iff_eq_none] at hcheck
  exact ⟨docs, d, s, hcreate, hm, he, hadd, hcheck⟩

end Documents
end CallGraph
