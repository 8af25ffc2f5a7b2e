import CallGraph.Json.Grammar
import CallGraph.Proofs.Method.Described
import CallGraph.Proofs.Sink.Document
import CallGraph.Sink.Documents

/-! What the two documents hold after any edges, and which of them makes an addition fail. -/
namespace CallGraph

open Disk (Place Confined)

def Disk.json? (d : Disk) (path : String) : Option Json.Value :=
  (d.bytes? path).bind fun data => (String.fromUTF8? data).bind fun text =>
    Json.Value.ofText? text.toList

namespace Documents

def mappingPath (folder : String) : String :=
  Path.join folder mappingName

def edgesPath (folder : String) : String :=
  Path.join folder edgesName

def methodEntry (m : Method) : String × Json.Value :=
  (m.signature, methodValue m)

/-- The first method under each signature, among those at the ends of edges. -/
def firstCarriers (edges : List Edge) : List Method :=
  (edges.flatMap Edge.endpoints).foldl describe []

structure Places where
  folder : String
  mapping : Place
  edges : Place
  apart : ∀ loc, mapping = .file loc → edges ≠ .file loc

def Places.Fails (p : Places) (path : String) : Prop :=
  p.mapping = .full ∧ path = mappingPath p.folder ∨ p.edges = .full ∧ path = edgesPath p.folder

theorem Places.not_fails (p : Places) (hm : p.mapping ≠ .full) (he : p.edges ≠ .full)
    (path : String) : ¬ p.Fails path := by
  rintro (⟨hfull, -⟩ | ⟨hfull, -⟩)
  · exact hm hfull
  · exact he hfull

def mappingShape (folder : String) : Document.Shape :=
  ⟨mappingPath folder, "\x7b", "\x7d"⟩

def edgesShape (folder : String) : Document.Shape :=
  ⟨edgesPath folder, "[", "]"⟩

structure Holds (p : Places) (methods : List Method) (edges : List Edge) (s : Documents × Disk) :
    Prop where
  mapping : Document.Holds (mappingShape p.folder) p.mapping
    (methods.map fun m => Json.memberPiece (methodEntry m)) (s.1.mapping, s.2)
  edges : Document.Holds (edgesShape p.folder) p.edges
    (edges.map fun e => (edgeValue e).pieces) (s.1.edges, s.2)

def Marks (methods : List Method) (docs : Documents) : Prop :=
  docs.described = (methods.map Method.signature).reverse

variable {p : Places} {methods : List Method} {edges : List Edge} {s : Documents × Disk}

theorem Holds.of_full_mapping (h : Holds p methods edges s) (hfull : p.mapping = .full)
    (other : List Method) : Holds p other edges s := by
  refine ⟨?_, h.edges⟩
  have hmapping := h.mapping
  rw [hfull] at hmapping ⊢
  exact hmapping.of_full _

theorem Holds.of_full_edges (h : Holds p methods edges s) (hfull : p.edges = .full)
    (other : List Edge) : Holds p methods other s := by
  refine ⟨h.mapping, ?_⟩
  have hedges := h.edges
  rw [hfull] at hedges ⊢
  exact hedges.of_full _

theorem Holds.mark {docs : Documents} {d : Disk} (h : Holds p methods edges (docs, d))
    (marked : List String) : Holds p methods edges ({ docs with described := marked }, d) :=
  ⟨h.mapping, h.edges⟩

theorem appendMethod_holds (h : Holds p methods edges s) (m : Method) :
    Holds p (methods ++ [m]) edges
        (onMapping (Document.appendMember m.signature (methodValue m)) s).2 ∧
      (onMapping (Document.appendMember m.signature (methodValue m)) s).2.1.described =
        s.1.described ∧
      Document.GoodUnlessFull p.mapping (mappingPath p.folder)
        (onMapping (Document.appendMember m.signature (methodValue m)) s).1 := by
  obtain ⟨hmapping, hconf, hresult⟩ :=
    Document.append_holds h.mapping (Json.memberPiece (methodEntry m))
  refine ⟨⟨?_, h.edges.elsewhere hconf fun loc he hp => p.apart loc hp he⟩, rfl, hresult⟩
  rw [List.map_append]
  exact hmapping

theorem appendEdge_holds (h : Holds p methods edges s) (e : Edge) :
    Holds p methods (edges ++ [e]) (onEdges (Document.appendItem (edgeValue e)) s).2 ∧
      (onEdges (Document.appendItem (edgeValue e)) s).2.1.described = s.1.described ∧
      Document.GoodUnlessFull p.edges (edgesPath p.folder)
        (onEdges (Document.appendItem (edgeValue e)) s).1 := by
  obtain ⟨hedges, hconf, hresult⟩ := Document.append_holds h.edges (edgeValue e).pieces
  refine ⟨⟨h.mapping.elsewhere hconf p.apart, ?_⟩, rfl, hresult⟩
  rw [List.map_append]
  exact hedges

theorem contains_of_marks {docs : Documents} (hm : Marks methods docs) (m : Method) :
    docs.described.contains m.signature = methods.any (·.signature == m.signature) := by
  rw [hm, List.contains_reverse, List.contains_eq_any_beq, List.any_map]
  exact List.any_congr rfl fun m' => BEq.comm

/-- A method is described once, and only a full device can refuse it. -/
theorem addMethod_holds (h : Holds p methods edges s) (hm : Marks methods s.1) (m : Method) :
    Holds p (describe methods m) edges (addMethod m s).2 ∧
      ((addMethod m s).1 = .ok () ∧ Marks (describe methods m) (addMethod m s).2.1 ∨
        p.mapping = .full ∧ (addMethod m s).1 = .error (.io (mappingPath p.folder) .noSpace)) := by
  obtain ⟨docs, d⟩ := s
  unfold addMethod describe
  dsimp only
  rw [contains_of_marks hm m]
  by_cases hany : methods.any (·.signature == m.signature)
  · rw [if_pos hany, if_pos hany]
    exact ⟨h, .inl ⟨rfl, hm⟩⟩
  · rw [if_neg hany, if_neg hany]
    obtain ⟨hholds, hdescribed, hok | ⟨hfull, herror⟩⟩ := appendMethod_holds h m
    · rw [Action.andThen_of_ok _ hok]
      refine ⟨hholds.mark _, .inl ⟨rfl, ?_⟩⟩
      have hmarks : docs.described = (methods.map Method.signature).reverse := hm
      simp [Marks, markDescribed, hdescribed, hmarks]
    · rw [Action.andThen_of_error _ herror]
      exact ⟨hholds, .inr ⟨hfull, rfl⟩⟩

/-- What comes of adding an edge: its ends are described and it is listed, or a device is full. -/
inductive Added (p : Places) (methods : List Method) (edges : List Edge) (e : Edge)
    (r : Except ExportError Unit × Documents × Disk) : Prop
  | ok (hresult : r.1 = .ok ()) (hmarks : Marks (e.endpoints.foldl describe methods) r.2.1)
    (hholds : Holds p (e.endpoints.foldl describe methods) (edges ++ [e]) r.2)
  | full (path : String) (hfails : p.Fails path) (hresult : r.1 = .error (.io path .noSpace))
    (hholds : Holds p (e.endpoints.foldl describe methods) edges r.2)

theorem addEdge_added (h : Holds p methods edges s) (hm : Marks methods s.1) (e : Edge) :
    Added p methods edges e (addEdge e s) := by
  unfold addEdge
  obtain ⟨hsource, ⟨hok, hm₁⟩ | ⟨hfull, herror⟩⟩ := addMethod_holds h hm e.source
  · rw [Action.sequence, Action.andThen_of_ok _ hok]
    obtain ⟨htarget, ⟨hok, hm₂⟩ | ⟨hfull, herror⟩⟩ := addMethod_holds hsource hm₁ e.target
    · rw [Action.sequence, Action.andThen_of_ok _ hok]
      obtain ⟨hedge, hdescribed, hok | ⟨hfull, herror⟩⟩ := appendEdge_holds htarget e
      · rw [Action.sequence, Action.andThen_of_ok _ hok]
        exact .ok rfl (hdescribed.trans hm₂) hedge
      · rw [Action.sequence, Action.andThen_of_error _ herror]
        exact .full _ (.inr ⟨hfull, rfl⟩) rfl (hedge.of_full_edges hfull _)
    · rw [Action.sequence, Action.andThen_of_error _ herror]
      exact .full _ (.inl ⟨hfull, rfl⟩) rfl htarget
  · rw [Action.sequence, Action.andThen_of_error _ herror]
    exact .full _ (.inl ⟨hfull, rfl⟩) rfl (hsource.of_full_mapping hfull _)

theorem text_mapping (folder : String) (methods : List Method) :
    (mappingShape folder).openText (methods.map fun m => Json.memberPiece (methodEntry m)) ++ "\x7d" =
      (Json.Value.object (methods.map methodEntry)).render := by
  simp [Document.Shape.openText, mappingShape, Json.Value.render, Json.Value.pieces,
    Json.memberPieces_eq, String.append_assoc, Function.comp_def]

theorem text_edges (folder : String) (edges : List Edge) :
    (edgesShape folder).openText (edges.map fun e => (edgeValue e).pieces) ++ "]" =
      (Json.Value.array (edges.map edgeValue)).render := by
  simp [Document.Shape.openText, edgesShape, Json.Value.render, Json.Value.pieces,
    Json.itemPieces_eq, String.append_assoc, Function.comp_def]

theorem numberless_mapping (methods : List Method) :
    (Json.Value.object (methods.map methodEntry)).Numberless := by
  refine .object fun member hmember => ?_
  obtain ⟨m, -, rfl⟩ := List.mem_map.mp hmember
  refine .object fun field hfield => ?_
  simp at hfield
  rcases hfield with rfl | rfl | rfl <;> exact .text _

theorem numberless_edges (edges : List Edge) :
    (Json.Value.array (edges.map edgeValue)).Numberless := by
  refine .array fun value hvalue => ?_
  obtain ⟨e, -, rfl⟩ := List.mem_map.mp hvalue
  refine .object fun field hfield => ?_
  simp at hfield
  rcases hfield with rfl | rfl | rfl <;> exact .text _

/-- Where a path leads to a file with the text of a value, that value is found. -/
theorem json?_of_text {d : Disk} {path text : String} {place : Place} {v : Json.Value}
    (hv : v.Numberless) (htext : text = v.render) (hleads : d.LeadsTo path place)
    (hplace : place ≠ .full) (hfile : ∀ loc, place = .file loc →
      ∃ executable, d.node? loc = some (.file (.bytes text.toByteArray) executable)) :
    d.json? path = some v := by
  cases place with
  | full => exact absurd rfl hplace
  | file loc =>
    obtain ⟨executable, hnode⟩ := hfile loc rfl
    have hlocate : d.locate path = .ok (.at loc) := hleads
    have hbytes : d.bytes? path = some text.toByteArray := by
      simp [Disk.bytes?, Disk.lookup?, hlocate, hnode]
    have hutf8 : String.fromUTF8? text.toByteArray = some text := by
      simp [String.fromUTF8?, text.isValidUTF8, String.fromUTF8]
    have hchars : text.toList = Json.chars v.pieces := by
      rw [htext, Json.toList_render]
    simp [Disk.json?, hbytes, hutf8, hchars, hv.ofText?_pieces]

structure Closed (p : Places) (methods : List Method) (edges : List Edge) (s : Documents × Disk)
    (r : Except ExportError Unit × Documents × Disk) : Prop where
  mapping : p.mapping ≠ .full →
    r.2.2.json? (mappingPath p.folder) = some (.object (methods.map methodEntry))
  edges : p.edges ≠ .full →
    r.2.2.json? (edgesPath p.folder) = some (.array (edges.map edgeValue))
  result : r.1 = .ok () ∧ p.mapping ≠ .full ∧ p.edges ≠ .full ∨
    ∃ path, p.Fails path ∧ r.1 = .error (.io path .noSpace)

theorem close_closed (h : Holds p methods edges s) : Closed p methods edges s (close s) := by
  obtain ⟨docs, d⟩ := s
  have hmapping := Document.close_closed h.mapping
  rcases hfirst : Document.close (docs.mapping, d) with ⟨result, mapping, d₁⟩
  rw [hfirst] at hmapping
  have hopen := h.edges.elsewhere hmapping.confined fun loc he hp => p.apart loc hp he
  have hedges := Document.close_closed hopen
  rcases hsecond : Document.close (docs.edges, d₁) with ⟨result', edges', d₂⟩
  rw [hsecond] at hedges
  have hclose : close (docs, d) =
      (result.bind fun _ => result', ⟨mapping, edges', docs.described⟩, d₂) := by
    simp [close, onMapping, onEdges, Action.within, hfirst, hsecond]
  rw [hclose]
  -- Each file is closed once and left alone while the other one is.
  refine ⟨fun hfile => ?_, fun hfile => ?_, ?_⟩
  · have hleads := hedges.confined.entries.leadsTo (hmapping.confined.entries.leadsTo h.mapping.leads)
    refine json?_of_text (numberless_mapping methods) (text_mapping p.folder methods) hleads hfile
      fun loc hplace => ?_
    obtain ⟨-, executable, hnode⟩ := hmapping.file loc hplace
    exact ⟨executable, (hedges.confined.elsewhere loc (p.apart loc hplace)).trans hnode⟩
  · have hleads := hedges.confined.entries.leadsTo hopen.leads
    exact json?_of_text (numberless_edges edges) (text_edges p.folder edges) hleads hfile
      fun loc hplace => (hedges.file loc hplace).2
  · rcases hmapping.ok_or_full with ⟨hok, hm⟩ | ⟨hm, herror⟩
    · dsimp only at hok
      subst hok
      rcases hedges.ok_or_full with ⟨hok, he⟩ | ⟨he, herror⟩
      · exact .inl ⟨hok, hm, he⟩
      · exact .inr ⟨_, .inr ⟨he, rfl⟩, herror⟩
    · dsimp only at herror
      subst herror
      exact .inr ⟨_, .inl ⟨hm, rfl⟩, rfl⟩

theorem Closed.ok {r : Except ExportError Unit × Documents × Disk}
    (h : Closed p methods edges s r) (hm : p.mapping ≠ .full) (he : p.edges ≠ .full) :
    r.1 = .ok () := by
  rcases h.result with ⟨hok, -⟩ | ⟨path, hfails, -⟩
  · exact hok
  · exact absurd hfails (p.not_fails hm he path)

def Apart (folder : String) (d : Disk) : Prop :=
  d.isFile (mappingPath folder) → d.isFile (edgesPath folder) →
    d.locate (mappingPath folder) ≠ d.locate (edgesPath folder)

theorem openIn_eq_ok {folder : String} {docs : Documents} {d d' : Disk}
    (h : openIn folder d = (.ok docs, d')) :
    ∃ d₁, Document.create (mappingPath folder) "\x7b" "\x7d" d = (.ok docs.mapping, d₁) ∧
      Document.create (edgesPath folder) "[" "]" d₁ = (.ok docs.edges, d') ∧ docs.described = [] := by
  unfold openIn at h
  rcases hmapping : Document.create (Path.join folder mappingName) "\x7b" "\x7d" d with ⟨_ | mapping, d₁⟩
  · simp [hmapping] at h
  rcases hedges : Document.create (Path.join folder edgesName) "[" "]" d₁ with ⟨_ | edges, d₂⟩
  · simp [hmapping, hedges] at h
  simp only [hmapping, hedges, Prod.mk.injEq, Except.ok.injEq] at h
  obtain ⟨rfl, rfl⟩ := h
  exact ⟨d₁, hmapping, hedges, rfl⟩

/-- Documents that have just been opened are empty. -/
theorem openIn_holds {folder : String} {docs : Documents} {d d' : Disk}
    (h : openIn folder d = (.ok docs, d')) (hapart : Apart folder d') :
    ∃ p : Places, p.folder = folder ∧ Holds p [] [] (docs, d') ∧ Marks [] docs := by
  obtain ⟨d₁, hmapping, hedges, hdescribed⟩ := openIn_eq_ok h
  obtain ⟨pm, hm, -⟩ :=
    Document.create_holds (mappingShape folder) (by simp [mappingShape]) hmapping
  obtain ⟨pe, he, hconf⟩ :=
    Document.create_holds (edgesShape folder) (by simp [edgesShape]) hedges
  have hne : ∀ loc, pm = .file loc → pe ≠ .file loc := by
    rintro loc rfl rfl
    have hleadsm : d'.locate (mappingPath folder) = .ok (.at loc) :=
      hconf.entries.leadsTo hm.leads
    have hleadse : d'.locate (edgesPath folder) = .ok (.at loc) := he.leads
    have hfile : d'.isFile (edgesPath folder) := he.isFile
    refine hapart ?_ hfile (hleadsm.trans hleadse.symm)
    simpa only [Disk.isFile, Disk.lookup?, hleadsm, hleadse] using hfile
  exact ⟨⟨folder, pm, pe, hne⟩, rfl,
    ⟨hm.elsewhere hconf hne, he⟩, hdescribed⟩

theorem openIn_of_create {folder : String} {docs : Documents} {d d' : Disk}
    (h : create folder d = (.ok docs, d')) : ∃ d₁, openIn folder d₁ = (.ok docs, d') := by
  unfold create at h
  rcases hfolder : prepareFolder folder d with ⟨_ | _, d₁⟩
  · simp [hfolder] at h
  · rw [hfolder] at h
    exact ⟨d₁, h⟩

theorem create_holds {folder : String} {docs : Documents} {d d' : Disk}
    (h : create folder d = (.ok docs, d')) (hapart : Apart folder d') :
    ∃ p : Places, p.folder = folder ∧ Holds p [] [] (docs, d') ∧ Marks [] docs := by
  obtain ⟨d₁, hopen⟩ := openIn_of_create h
  exact openIn_holds hopen hapart

/-- The documents hold the edges and describe their ends, and are ready for more. -/
def Ready (p : Places) (edges : List Edge) (s : Documents × Disk) : Prop :=
  Holds p (firstCarriers edges) edges s ∧ Marks (firstCarriers edges) s.1

structure Created (folder : String) (d₀ : Disk) (docs : Documents) (d : Disk) : Prop where
  created : create folder d₀ = (.ok docs, d)
  mapping : d.isFile (mappingPath folder)
  edges : d.isFile (edgesPath folder)
  apart : d.locate (mappingPath folder) ≠ d.locate (edgesPath folder)

theorem Created.ready {folder : String} {d₀ d : Disk} {docs : Documents}
    (h : Created folder d₀ docs d) :
    ∃ p : Places, p.folder = folder ∧ p.mapping ≠ .full ∧ p.edges ≠ .full ∧ Ready p [] (docs, d) := by
  obtain ⟨p, rfl, hholds, hmarks⟩ := create_holds h.created fun _ _ => h.apart
  exact ⟨p, rfl, hholds.mapping.ne_full h.mapping, hholds.edges.ne_full h.edges, hholds, hmarks⟩

theorem created_fresh : ∃ docs d, Created "out" (.fresh ["w"]) docs d := by
  have hrun : Action.leads (create "out") (.fresh ["w"]) (fun _ d =>
      decide (d.isFile (mappingPath "out") ∧ d.isFile (edgesPath "out") ∧
        d.locate (mappingPath "out") ≠ d.locate (edgesPath "out"))) := by decide +kernel
  obtain ⟨docs, d, hcreate, hcheck⟩ := Action.exists_of_leads hrun
  obtain ⟨hm, he, hapart⟩ := of_decide_eq_true hcheck
  exact ⟨docs, d, hcreate, hm, he, hapart⟩

/-- A working folder in which the method document is a link to the edge document. -/
def linkedDisk : Disk :=
  ⟨[(["w"], .folder), (["w", "mapping.json"], .link "edges.json")], ["w"]⟩

def crossCall : Edge :=
  ⟨.inOwnPackage "p.A" "f" "f()", .inOwnPackage "q.B" "g" "g()", .static⟩

end Documents
end CallGraph
