import CallGraph.Proofs.Sink.Documents

/-!
Documents after their closing. Nothing is written any more, nothing is counted, and an edge is refused
under the name of the document that it would have been written to first.
-/
namespace CallGraph

namespace Document

variable {doc : Document} {piece : String} {pieces : List String}

def pathOf (s : Document × Disk) : String :=
  s.1.path

theorem write_keeps_path (piece : String) : (write piece).Keeps pathOf := by
  rintro ⟨doc, d⟩
  cases hw : doc.writer? <;> simp only [write, hw, pathOf]

theorem beginMember_keeps_path : beginMember.Keeps pathOf := by
  rintro ⟨doc, d⟩
  unfold beginMember
  dsimp only
  split_ifs
  · exact write_keeps_path "," (doc, d)
  · rfl

theorem append_keeps_path (pieces : List String) : (append pieces).Keeps pathOf := by
  refine beginMember_keeps_path.andThen fun _ => .sequence fun action haction => ?_
  obtain ⟨piece, -, rfl⟩ := List.mem_map.mp haction
  exact write_keeps_path piece

theorem close_keeps_path : close.Keeps pathOf := by
  rintro ⟨doc, d⟩
  cases hw : doc.writer? <;> simp only [close, hw, pathOf]

theorem writer?_close (s : Document × Disk) : (close s).2.1.writer? = none := by
  obtain ⟨doc, d⟩ := s
  cases hw : doc.writer? <;> simp only [close, hw]

theorem write_of_closed (h : doc.writer? = none) (piece : String) (d : Disk) :
    write piece (doc, d) = (.error (.io doc.path .streamClosed), doc, d) := by
  simp only [write, h]

/-- A closed document takes no member; it may be marked as having one, which nothing can tell. -/
theorem append_of_closed (h : doc.writer? = none) (hpieces : pieces ≠ []) (d : Disk) :
    append pieces (doc, d) =
      (.error (.io doc.path .streamClosed), { doc with hasMembers := true }, d) := by
  obtain ⟨piece, rest, rfl⟩ := List.exists_cons_of_ne_nil hpieces
  by_cases hm : doc.hasMembers
  · have hbegin : beginMember (doc, d) =
        (.error (.io doc.path .streamClosed), { doc with hasMembers := true }, d) := by
      simp only [beginMember, hm, if_true, write_of_closed h]
    exact Action.andThen_of_eq_error _ hbegin
  · have hbegin : beginMember (doc, d) = (.ok (), { doc with hasMembers := true }, d) := by
      simp only [beginMember, hm, Bool.false_eq_true, if_false]
    have hmarked : { doc with hasMembers := true }.writer? = none := h
    rw [append, Action.andThen_of_eq_ok _ hbegin]
    exact Action.andThen_of_eq_error _ (write_of_closed hmarked piece d)

theorem close_of_closed (h : doc.writer? = none) (d : Disk) : close (doc, d) = (.ok (), doc, d) := by
  simp only [close, h]

end Document

namespace Documents

variable {folder : String} {described : List String} {docs : Documents} {d : Disk}

inductive Call
  | add (e : Edge)
  | finish
  | close
  deriving DecidableEq

def Call.perform : Call → Action (Documents × Disk) ExportError Unit
  | add e => sink.add e
  | finish => sink.finish
  | close => sink.close

/-- What a call gives back once the documents are closed. An edge between methods that are described is
refused by the edge document, any other by the method document. -/
def Call.lateAnswer (folder : String) (described : List String) : Call → Except ExportError Unit
  | add e =>
    let path := if ∀ m ∈ e.endpoints, m.signature ∈ described then edgesPath folder
      else mappingPath folder
    .error (.io path .streamClosed)
  | finish | close => .ok ()

def pathsOf (s : Documents × Disk) : String × String :=
  (s.1.mapping.path, s.1.edges.path)

theorem onMapping_keeps_paths {action : Action (Document × Disk) ExportError Unit}
    (h : action.Keeps Document.pathOf) : (onMapping action).Keeps pathsOf :=
  fun s => congrArg (·, s.1.edges.path) (h (s.1.mapping, s.2))

theorem onEdges_keeps_paths {action : Action (Document × Disk) ExportError Unit}
    (h : action.Keeps Document.pathOf) : (onEdges action).Keeps pathsOf :=
  fun s => congrArg (s.1.mapping.path, ·) (h (s.1.edges, s.2))

theorem addMethod_keeps_paths (m : Method) : (addMethod m).Keeps pathsOf := by
  rintro ⟨docs, d⟩
  unfold addMethod
  dsimp only
  split_ifs
  · rfl
  · exact (onMapping_keeps_paths (Document.append_keeps_path _)).andThen (fun _ _ => rfl) (docs, d)

theorem perform_keeps_paths (call : Call) : call.perform.Keeps pathsOf := by
  cases call with
  | add e =>
    refine .sequence fun action haction => ?_
    simp only [List.mem_cons, List.not_mem_nil, or_false] at haction
    rcases haction with rfl | rfl | rfl
    · exact addMethod_keeps_paths e.source
    · exact addMethod_keeps_paths e.target
    · exact onEdges_keeps_paths (Document.append_keeps_path _)
  | finish => exact fun _ => rfl
  | close =>
    intro s
    have hmapping := onMapping_keeps_paths Document.close_keeps_path s
    exact (onEdges_keeps_paths Document.close_keeps_path _).trans hmapping

theorem pathsOf_of_create {d₀ : Disk} (h : create folder d₀ = (.ok docs, d)) :
    pathsOf (docs, d) = (mappingPath folder, edgesPath folder) := by
  obtain ⟨d₁, hopen⟩ := openIn_of_create h
  obtain ⟨d₂, hmapping, hedges, -⟩ := openIn_eq_ok hopen
  obtain ⟨_, hm, -⟩ := Document.create_holds (mappingShape folder) (by simp [mappingShape]) hmapping
  obtain ⟨_, he, -⟩ := Document.create_holds (edgesShape folder) (by simp [edgesShape]) hedges
  exact Prod.ext hm.path he.path

/-- Both documents are closed, and these signatures have been described. -/
structure Shut (folder : String) (described : List String) (docs : Documents) : Prop where
  mapping : docs.mapping.writer? = none
  edges : docs.edges.writer? = none
  mappingNamed : docs.mapping.path = mappingPath folder
  edgesNamed : docs.edges.path = edgesPath folder
  described : docs.described = described

theorem shut_of_close {s : Documents × Disk}
    (h : pathsOf s = (mappingPath folder, edgesPath folder)) :
    Shut folder s.1.described (close s).2.1 := by
  have hkept : pathsOf (close s).2 = pathsOf s := perform_keeps_paths .close s
  rw [h] at hkept
  exact ⟨Document.writer?_close (s.1.mapping, s.2),
    Document.writer?_close (s.1.edges, (Document.close (s.1.mapping, s.2)).2.2),
    congrArg Prod.fst hkept, congrArg Prod.snd hkept, rfl⟩

theorem addMethod_of_shut (h : Shut folder described docs) (m : Method) (d : Disk) :
    m.signature ∈ described ∧ addMethod m (docs, d) = (.ok (), docs, d) ∨
      m.signature ∉ described ∧ ∃ docs', Shut folder described docs' ∧
        addMethod m (docs, d) = (.error (.io (mappingPath folder) .streamClosed), docs', d) := by
  have hcontains : docs.described.contains m.signature ↔ m.signature ∈ described := by
    rw [List.contains_iff_mem, h.described]
  unfold addMethod
  dsimp only
  by_cases hmem : m.signature ∈ described
  · exact .inl ⟨hmem, if_pos (hcontains.mpr hmem)⟩
  · have hpieces : Json.textPieces m.signature ++ ":" :: (methodValue m).pieces ≠ [] := by simp
    have happend : onMapping (Document.appendMember m.signature (methodValue m)) (docs, d) =
        (.error (.io docs.mapping.path .streamClosed),
          { docs with mapping := { docs.mapping with hasMembers := true } }, d) := by
      simp only [onMapping, Action.within, Document.appendMember,
        Document.append_of_closed h.mapping hpieces]
    rw [if_neg (hcontains.not.mpr hmem), ← h.mappingNamed]
    exact .inr ⟨hmem, { docs with mapping := { docs.mapping with hasMembers := true } },
      ⟨h.mapping, h.edges, h.mappingNamed, h.edgesNamed, h.described⟩, Action.andThen_of_eq_error _ happend⟩

theorem appendEdge_of_shut (h : Shut folder described docs) (e : Edge) (d : Disk) :
    ∃ docs', Shut folder described docs' ∧
      onEdges (Document.appendItem (edgeValue e)) (docs, d) =
        (.error (.io (edgesPath folder) .streamClosed), docs', d) := by
  have hpieces : (edgeValue e).pieces ≠ [] := by simp [edgeValue, Json.Value.pieces]
  rw [← h.edgesNamed]
  refine ⟨{ docs with edges := { docs.edges with hasMembers := true } },
    ⟨h.mapping, h.edges, h.mappingNamed, h.edgesNamed, h.described⟩, ?_⟩
  simp only [onEdges, Action.within, Document.appendItem, Document.append_of_closed h.edges hpieces]

theorem addEdge_of_shut (h : Shut folder described docs) (e : Edge) (d : Disk) :
    ∃ docs', Shut folder described docs' ∧
      addEdge e (docs, d) = ((Call.add e).lateAnswer folder described, docs', d) := by
  have hends : (∀ m ∈ e.endpoints, m.signature ∈ described) ↔
      e.source.signature ∈ described ∧ e.target.signature ∈ described := by
    simp [Edge.endpoints]
  simp only [Call.lateAnswer, hends, addEdge, Action.sequence]
  rcases addMethod_of_shut h e.source d with ⟨hsource, hok⟩ | ⟨hsource, docs', hshut, herror⟩
  · rw [Action.andThen_of_eq_ok _ hok]
    rcases addMethod_of_shut h e.target d with ⟨htarget, hok⟩ | ⟨htarget, docs', hshut, herror⟩
    · rw [Action.andThen_of_eq_ok _ hok, if_pos ⟨hsource, htarget⟩]
      obtain ⟨docs', hshut, herror⟩ := appendEdge_of_shut h e d
      exact ⟨docs', hshut, Action.andThen_of_eq_error _ herror⟩
    · rw [if_neg fun hboth => htarget hboth.2]
      exact ⟨docs', hshut, Action.andThen_of_eq_error _ herror⟩
  · rw [if_neg fun hboth => hsource hboth.1]
    exact ⟨docs', hshut, Action.andThen_of_eq_error _ herror⟩

theorem close_of_shut (h : Shut folder described docs) (d : Disk) :
    close (docs, d) = (.ok (), docs, d) := by
  simp only [close, onMapping, onEdges, Action.within, Document.close_of_closed h.mapping,
    Document.close_of_closed h.edges]
  rfl

/-- A call on closed documents changes neither the disk nor what counts as described. -/
theorem perform_of_shut (h : Shut folder described docs) (call : Call) (d : Disk) :
    ∃ docs', Shut folder described docs' ∧
      call.perform (docs, d) = (call.lateAnswer folder described, docs', d) := by
  cases call with
  | add e => exact addEdge_of_shut h e d
  | finish => exact ⟨docs, h, rfl⟩
  | close => exact ⟨docs, h, close_of_shut h d⟩

theorem each_of_shut (h : Shut folder described docs) (calls : List Call) (d : Disk) :
    ∃ docs', Shut folder described docs' ∧ Action.each (calls.map Call.perform) (docs, d) =
      (calls.map (Call.lateAnswer folder described), docs', d) := by
  induction calls generalizing docs with
  | nil => exact ⟨docs, h, rfl⟩
  | cons call calls ih =>
    obtain ⟨docs', hshut, hcall⟩ := perform_of_shut h call d
    obtain ⟨docs'', hshut', hcalls⟩ := ih hshut
    refine ⟨docs'', hshut', ?_⟩
    simp only [List.map_cons, Action.each, hcall, hcalls]

/-- From a state on, calls are answered without any effect. -/
structure Frozen (folder : String) (s : Documents × Disk) (calls : List Call) : Prop where
  answers : (Action.each (calls.map Call.perform) s).1 =
    calls.map (Call.lateAnswer folder s.1.described)
  disk : (Action.each (calls.map Call.perform) s).2.2 = s.2
  methodCount : (Action.each (calls.map Call.perform) s).2.1.methodCount = s.1.methodCount
  dropped : drop (Action.each (calls.map Call.perform) s).2.1
    (Action.each (calls.map Call.perform) s).2.2 = s.2

/-- Once created documents have been closed, with whatever result and after whatever calls, nothing that
is called changes them or the disk. -/
theorem closed_frozen {d₀ : Disk} (h : create folder d₀ = (.ok docs, d)) (earlier later : List Call) :
    Frozen folder (Action.each ((earlier ++ [Call.close]).map Call.perform) (docs, d)).2 later := by
  rw [List.map_append, Action.each_append]
  generalize hs : (Action.each (earlier.map Call.perform) (docs, d)).2 = s
  have hpaths : pathsOf s = (mappingPath folder, edgesPath folder) := by
    have hkeeps : ∀ action ∈ earlier.map Call.perform, action.Keeps pathsOf := by
      intro action haction
      obtain ⟨call, -, rfl⟩ := List.mem_map.mp haction
      exact perform_keeps_paths call
    rw [← hs, Action.Keeps.each hkeeps, pathsOf_of_create h]
  obtain ⟨docs', hshut, heach⟩ := each_of_shut (shut_of_close hpaths) later (close s).2.2
  change Frozen folder (close s).2 later
  constructor <;> rw [heach]
  · rfl
  · exact congrArg List.length hshut.described
  · exact congrArg (·.2.2) (close_of_shut hshut _)

def fullEdgesDisk : Disk :=
  (Disk.fresh ["w"]).put ["w", "edges.json"] (.link "/dev/full")

def selfCall : Edge :=
  ⟨.inOwnPackage "p.A" "h" "h()", .inOwnPackage "p.A" "h" "h()", .static⟩

theorem closed_frozen_fullEdges :
    ∃ docs d s s', create "." fullEdgesDisk = (.ok docs, d) ∧
      Action.each ([Call.add crossCall, .close].map Call.perform) (docs, d) =
        ([.ok (), .error (.io (edgesPath ".") .noSpace)], s) ∧
      Action.each ([Call.close, .add crossCall, .add selfCall, .finish].map Call.perform) s =
        ([.ok (), .error (.io (edgesPath ".") .streamClosed),
          .error (.io (mappingPath ".") .streamClosed), .ok ()], s') ∧
      s'.2 = s.2 ∧ s'.1.methodCount = s.1.methodCount ∧ drop s'.1 s'.2 = s.2 := by
  have hsplit : [Call.add crossCall, .close] = [Call.add crossCall] ++ [Call.close] := rfl
  rw [hsplit]
  have hrun : Action.leads (create ".") fullEdgesDisk (fun docs d =>
      let each := Action.each (([Call.add crossCall] ++ [Call.close]).map Call.perform) (docs, d)
      decide (each.1 = [.ok (), .error (.io (edgesPath ".") .noSpace)] ∧
        each.2.1.described = ["g()", "f()"])) := by
    decide +kernel
  obtain ⟨docs, d, hcreate, hcheck⟩ := Action.exists_of_leads hrun
  have hfrozen := closed_frozen hcreate [.add crossCall]
    [.close, .add crossCall, .add selfCall, .finish]
  rcases hearlier : Action.each (([Call.add crossCall] ++ [Call.close]).map Call.perform) (docs, d)
    with ⟨answers, s⟩
  rw [hearlier] at hcheck hfrozen
  obtain ⟨rfl, hdescribed⟩ := of_decide_eq_true hcheck
  have hlate : [Call.close, .add crossCall, .add selfCall, .finish].map
      (Call.lateAnswer "." ["g()", "f()"]) =
        [.ok (), .error (.io (edgesPath ".") .streamClosed),
          .error (.io (mappingPath ".") .streamClosed), .ok ()] := by
    decide +kernel
  rw [← hdescribed] at hlate
  exact ⟨docs, d, s, _, hcreate, hearlier, Prod.ext (hfrozen.answers.trans hlate) rfl,
    hfrozen.disk, hfrozen.methodCount, hfrozen.dropped⟩

end Documents
end CallGraph
