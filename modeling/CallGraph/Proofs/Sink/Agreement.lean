import CallGraph.Proofs.Sink.Description
import CallGraph.Proofs.Sink.Store

/-! Both destinations export one graph: the documents say what the tables say. -/
namespace CallGraph

/-- Signature, name, class and package of a method, read off a member of the method document. -/
def memberTuple? (member : String × Json.Value) : Option (List String) := do
  return [member.1, ← member.2.field? "method", ← member.2.field? "class",
    ← member.2.field? "package"]

def itemTuple? (item : Json.Value) : Option (List String) := do
  return [← item.field? "src", ← item.field? "tgt", ← item.field? "kind"]

/-- Documents say what tables say: the methods in the same order, and the same calls. -/
structure Agree (members : List (String × Json.Value)) (items : List Json.Value) (t : Tables) :
    Prop where
  methods : members.map memberTuple? = t.methodTuples.map some
  calls : ∀ tuple?, tuple? ∈ items.map itemTuple? ↔ tuple? ∈ t.callTuples.map some

namespace Documents

theorem itemTuple?_edgeValue (e : Edge) : itemTuple? (edgeValue e) = some e.merge.tuple := by
  rfl

/-- A signature is described once in the documents, and stored once in the tables, for the same
method: the first that carries it. -/
theorem carriers_merges (edges : List Edge) : carriers (edges.map Edge.merge) = firstCarriers edges := by
  rw [carriers, firstCarriers, endpoints_merges]

theorem agree_of_stores {edges : List Edge} {t : Tables} (h : t.Stores (edges.map Edge.merge)) :
    Agree ((firstCarriers edges).map methodEntry) (edges.map edgeValue) t := by
  constructor
  · rw [h.methodTuples, carriers_merges, List.map_map, List.map_map]
    rfl
  · intro tuple?
    rw [List.mem_map, List.mem_map]
    constructor
    · rintro ⟨item, hitem, rfl⟩
      obtain ⟨e, he, rfl⟩ := List.mem_map.mp hitem
      refine ⟨e.merge.tuple, ?_, rfl⟩
      exact h.mem_callTuples.mpr ⟨e.merge, List.mem_map_of_mem he, rfl⟩
    · rintro ⟨tuple, htuple, rfl⟩
      obtain ⟨m, hm, rfl⟩ := h.mem_callTuples.mp htuple
      obtain ⟨e, he, rfl⟩ := List.mem_map.mp hm
      exact ⟨edgeValue e, List.mem_map_of_mem he, itemTuple?_edgeValue e⟩

theorem ready_of_addAll {p : Places} {edges more : List Edge} {s s' : Documents × Disk}
    (h : Ready p edges s) (hadd : Action.sequence (more.map addEdge) s = (.ok (), s')) :
    Ready p (edges ++ more) s' := by
  induction more generalizing edges s with
  | nil =>
    cases hadd
    rwa [List.append_nil]
  | cons e more ih =>
    rw [List.map_cons, Action.sequence] at hadd
    rcases addEdge_ready h e with ⟨hok, hready⟩ | ⟨path, -, herror, -⟩
    · rw [Action.andThen_of_ok _ hok] at hadd
      have hmore := ih hready hadd
      rwa [List.append_assoc] at hmore
    · rw [Action.andThen_of_error _ herror] at hadd
      cases hadd

theorem methodCount_close (s : Documents × Disk) : (close s).2.1.methodCount = s.1.methodCount := by
  rfl

/-- If one sequence of edges goes to two documents and to a database, and nothing fails, the methods
of both are the same in the same order, and so are their calls. -/
theorem destinations_agree {folder : String} {d₀ d : Disk} {docs : Documents} {edges : List Edge}
    {s : Documents × Disk} {db inner : Database × Disk} {notes : List Note}
    (hcreate : create folder d₀ = (.ok docs, d)) (hapart : Apart folder d)
    (hadd : Action.sequence (edges.map addEdge) (docs, d) = (.ok (), s))
    (hclose : (close s).1 = .ok ())
    (hopened : StoreSink.prepare Database.store db = ((.ok (), notes), inner)) (classGraph : Bool) :
    ∃ taken finished t members items counts,
      Action.sequence (edges.map (StoreSink.sink Database.store classGraph).add) ⟨inner, false⟩ =
          (.ok (), taken) ∧
        (StoreSink.sink Database.store classGraph).finish taken = (.ok (), finished) ∧
        finished.inner.1.embedded = .opened (some t) ∧
        (close s).2.2.json? (mappingPath folder) = some (.object members) ∧
        (close s).2.2.json? (edgesPath folder) = some (.array items) ∧ Agree members items t ∧
        finished.inner.1.embedded.counts = .ok counts ∧
        (close s).2.1.methodCount = counts.methods := by
  obtain ⟨p, rfl, hholds, hmarks⟩ := create_holds hcreate hapart
  have hstart : Ready p [] (docs, d) := ⟨hholds, hmarks⟩
  have hready : Ready p edges s := ready_of_addAll hstart hadd
  have hclosed := close_closed hready.1
  obtain ⟨hm, he⟩ : p.mapping ≠ .full ∧ p.edges ≠ .full := by
    rcases hclosed.result with ⟨-, hfiles⟩ | ⟨path, -, herror⟩
    · exact hfiles
    · rw [herror] at hclose
      cases hclose
  obtain ⟨taken, finished, t, htaken, hfinished, ht, hstores⟩ :=
    StoreSink.database_stores hopened edges classGraph
  refine ⟨taken, finished, t, _, _, t.counts, htaken, hfinished, ht, hclosed.mapping hm,
    hclosed.edges he, agree_of_stores hstores, ?_, ?_⟩
  · rw [ht]
    rfl
  · have hrows : t.methods.length = (firstCarriers edges).length := by
      rw [hstores.methods, List.length_mapIdx, carriers_merges]
    rw [methodCount_close, methodCount, hready.2, List.length_reverse, List.length_map]
    exact hrows.symm

def repeatedCall : List Edge :=
  [crossCall, crossCall, ⟨.inOwnPackage "r.C" "h" "f()", crossCall.target, .static⟩]

theorem destinations_agree_repeatedCall :
    ∃ docs d s notes inner, create "out" (.fresh ["w"]) = (.ok docs, d) ∧ Apart "out" d ∧
      Action.sequence (repeatedCall.map addEdge) (docs, d) = (.ok (), s) ∧ (close s).1 = .ok () ∧
      StoreSink.prepare Database.store (Database.inMemory, .fresh ["w"]) =
        ((.ok (), notes), inner) ∧
      ∃ members items t, (close s).2.2.json? (mappingPath "out") = some (.object members) ∧
        (close s).2.2.json? (edgesPath "out") = some (.array items) ∧ Agree members items t := by
  obtain ⟨docs, d, h⟩ := created_fresh
  obtain ⟨p, -, hm, he, hready⟩ := h.ready
  obtain ⟨s, hadd, hs⟩ := addAll_ready hm he hready repeatedCall
  have hapart : Apart "out" d := fun _ _ => h.apart
  have hclose : (close s).1 = .ok () := (close_closed hs.1).ok hm he
  have hopened : StoreSink.prepare Database.store (Database.inMemory, .fresh ["w"]) =
      ((.ok (), [StoreSink.clearNote, StoreSink.schemaNote]),
        ⟨.memory, .opened (some .empty)⟩, .fresh ["w"]) := by
    rfl
  obtain ⟨-, -, t, members, items, -, -, -, -, hmapping, hedges, hagree, -⟩ :=
    destinations_agree h.created hapart hadd hclose hopened true
  exact ⟨docs, d, s, _, _, h.created, hapart, hadd, hclose, hopened, members, items, t, hmapping,
    hedges, hagree⟩

/-- Where one file is opened under both names, nothing fails, yet only the database holds the call. -/
theorem linked_disagree :
    ∃ docs d s taken, create "." linkedDisk = (.ok docs, d) ∧
      Action.sequence ([crossCall].map addEdge) (docs, d) = (.ok (), s) ∧ (close s).1 = .ok () ∧
      Action.sequence ([crossCall].map (StoreSink.add Database.store))
        ⟨(StoreSink.prepare Database.store (Database.inMemory, linkedDisk)).2, false⟩ =
          (.ok (), taken) ∧
      taken.inner.1.embedded.counts = .ok ⟨2, 1, 0, 0⟩ ∧
      (close s).2.2.json? (mappingPath ".") = none := by
  have hrun : Action.leads (create ".") linkedDisk (fun docs d =>
      (Action.sequence ([crossCall].map addEdge)).leads (docs, d) (fun _ s =>
        decide ((close s).1 = .ok ()) && ((close s).2.2.json? (mappingPath ".")).isNone)) := by
    decide +kernel
  obtain ⟨docs, d, hcreate, hadded⟩ := Action.exists_of_leads hrun
  obtain ⟨_, s, hadd, hcheck⟩ := Action.exists_of_leads hadded
  rw [Bool.and_eq_true, decide_eq_true_iff, Option.isNone_iff_eq_none] at hcheck
  obtain ⟨hclose, hmapping⟩ := hcheck
  exact ⟨docs, d, s, _, hcreate, hadd, hclose, rfl, rfl, hmapping⟩

end Documents
end CallGraph
