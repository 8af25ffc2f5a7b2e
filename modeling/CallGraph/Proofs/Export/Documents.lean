import CallGraph.Export
import CallGraph.Proofs.Pipeline.Wrapping
import CallGraph.Proofs.Sink.Description

/-! What an export leaves in its two documents, however it ends. -/
namespace CallGraph

def World.offline (d : Disk) : World :=
  ⟨d, ⟨some .networkUnreachable, 260, fun _ _ => .success, []⟩, fun _ _ _ => .error .notFound⟩

def Export.allInto (folder : String) : Export :=
  ⟨.default, .all, .documents folder⟩

namespace Documents

open Pipeline (admitted settled pulled fed firstFailure?)

variable {p : Places}

/-- What is left of an edge that a full device has refused. -/
def Broken (p : Places) (edges : List Edge) (e : Edge) (f : ExportError) (s : Documents × Disk) :
    Prop :=
  Holds p (firstCarriers (edges ++ [e])) edges s ∧ ∃ path, p.Fails path ∧ f = .io path .noSpace

theorem sink_keeps (p : Places) : Pipeline.Keeps sink (Ready p) (Broken p) := by
  intro edges e s h
  rcases addEdge_ready h e with hkept | ⟨path, hfails, herror, hholds⟩
  · exact .inl hkept
  · exact .inr ⟨_, herror, hholds, path, hfails, rfl⟩

theorem sink_keeps_on_files (hm : p.mapping ≠ .full) (he : p.edges ≠ .full) :
    Pipeline.Keeps sink (Ready p) fun _ _ _ _ => False := by
  intro edges e s h
  rcases sink_keeps p edges e s h with hkept | ⟨_, _, _, path, hfails, _⟩
  · exact .inl hkept
  · exact absurd hfails (p.not_fails hm he path)

/-- On files every edge is kept by a destination around the documents, or rejected before them. -/
theorem wraps_keeps {τ : Type} {outer : Sink τ} {get : τ → Documents × Disk}
    (hwraps : outer.Wraps sink get) (hm : p.mapping ≠ .full) (he : p.edges ≠ .full) :
    Pipeline.Keeps outer (fun edges t => Ready p edges (get t))
      (fun edges _ _ t => Ready p edges (get t)) := by
  intro edges e t h
  dsimp only
  rcases hwraps.add e t with ⟨⟨f, hreject⟩, hstate⟩ | ⟨hresult, hstate⟩
  · exact .inr ⟨f, hreject, by rwa [hstate]⟩
  · rcases sink_keeps_on_files hm he edges e (get t) h with ⟨hok, hready⟩ | ⟨_, _, hfalse⟩
    · exact .inl ⟨hresult.trans hok, by rwa [hstate]⟩
    · exact hfalse.elim

/-- However a run into a destination around two files ends, they hold the edges before the failure. -/
theorem run_wraps (admits : Edge → Bool) {τ : Type} {outer : Sink τ} {get : τ → Documents × Disk}
    (hwraps : outer.Wraps sink get) (hm : p.mapping ≠ .full) (he : p.edges ≠ .full) {t : τ}
    (h : Ready p [] (get t)) (source : Source) :
    ∃ s, Ready p (admitted admits (settled admits outer t source.items)) s ∧
      get (Pipeline.run source admits outer t).state = (close s).2 := by
  have hfed : Ready p (admitted admits (settled admits outer t source.items))
      (get (fed outer t (admitted admits (pulled admits outer t source.items)))) := by
    rcases Pipeline.kept_of_keeps admits (wraps_keeps hwraps hm he) h source.items with
      ⟨-, -, hholds⟩ | ⟨-, -, -, -, -, hholds⟩ <;> exact hholds
  refine ⟨_, hfed, ?_⟩
  rw [Pipeline.run_eq]
  dsimp only
  rw [hwraps.close]
  split_ifs
  · have hfinish : get (outer.finish (fed outer t
        (admitted admits (pulled admits outer t source.items)))).2 =
        get (fed outer t (admitted admits (pulled admits outer t source.items))) := by
      rcases hwraps.finish (fed outer t (admitted admits (pulled admits outer t source.items))) with
        ⟨-, hstate⟩ | ⟨-, hstate⟩ <;> exact hstate
    rw [hfinish]
    rfl
  · rfl

/-- Both files hold JSON documents, and the edge document lists these edges. -/
def Intact (folder : String) (edges : List Edge) (d : Disk) : Prop :=
  (d.json? (mappingPath folder)).isSome ∧
    d.json? (edgesPath folder) = some (.array (edges.map edgeValue))

theorem intact_of_ready {edges : List Edge} {s : Documents × Disk} (hm : p.mapping ≠ .full)
    (he : p.edges ≠ .full) (h : Ready p edges s) : Intact p.folder edges (close s).2.2 := by
  have hclosed := close_closed h.1
  refine ⟨?_, hclosed.edges he⟩
  rw [hclosed.mapping hm]
  rfl

/-- A run of edges into documents: what they hold at the end, and why it fails if it does. -/
theorem run_holds (admits : Edge → Bool) {s : Documents × Disk} (h : Ready p [] s) (source : Source)
    (hitems : ∀ f, Except.error f ∉ source.items) :
    ∃ s', Holds p (firstCarriers (admitted admits (pulled admits sink s source.items)))
        (admitted admits (settled admits sink s source.items)) s' ∧
      (Pipeline.run source admits sink s).state = (close s').2 ∧
      (firstFailure? admits sink s source.items = none ∧ p.mapping ≠ .full ∧ p.edges ≠ .full ∨
        ∃ path, p.Fails path ∧
          (Pipeline.run source admits sink s).result = .error (.io path .noSpace)) := by
  have hstate : (Pipeline.run source admits sink s).state =
      (close (fed sink s (admitted admits (pulled admits sink s source.items)))).2 := by
    rw [Pipeline.run_eq]
    dsimp only
    split_ifs <;> rfl
  rcases Pipeline.kept_of_keeps admits (sink_keeps p) h source.items with
    ⟨hpulled, hfailure, hholds⟩ | ⟨i, e, f, hpulled, hfailure, hholds, path, hfails, rfl⟩
  · have hnone : firstFailure? admits sink s source.items = none := by
      cases hfirst : firstFailure? admits sink s source.items with
      | none => rfl
      | some failure => exact absurd (hfailure failure.1 failure.2 hfirst) (hitems _)
    rw [← hpulled] at hholds
    refine ⟨_, hpulled ▸ hholds.1, hstate, ?_⟩
    rcases (close_closed hholds.1).result with ⟨-, hfiles⟩ | ⟨path, hfails, herror⟩
    · exact .inl ⟨hnone, hfiles⟩
    · exact .inr ⟨path, hfails, Pipeline.result_of_close admits sink hnone (fun _ => rfl) herror⟩
  · rw [List.nil_append] at hholds
    rw [← hpulled] at hholds
    exact ⟨_, hholds, hstate,
      .inr ⟨path, hfails, Pipeline.result_of_firstFailure admits sink hfailure⟩⟩

end Documents

namespace Export

variable {ν : Type} {x : Export} {engine : Engine} {w : World ν} {folder : String} {d : Disk} {docs : Documents}

private def inWorld : Sink (Documents × World ν) :=
  Documents.sink.within (fun (docs, w) => (docs, w.disk))
    (fun (_, w) (docs, d) => (docs, w.withDisk d))

private theorem follows_inWorld :
    inWorld.Follows Documents.sink fun ((docs, w) : Documents × World ν) => (docs, w.disk) :=
  Documents.sink.follows_within fun _ _ => rfl

variable [Remote.Driver ν]

/-- An export into documents runs into them once they have been created. -/
private theorem run_of_create (hdest : x.destination = .documents folder)
    (hcreate : Documents.create folder w.disk = (.ok docs, d)) :
    x.run engine w = concluded [Documents.openNote folder]
      (x.runInto engine inWorld (docs, w.withDisk d)) := by
  unfold Documents.create at hcreate
  unfold run toDocuments
  rw [hdest]
  dsimp only
  rcases hfolder : Documents.prepareFolder folder w.disk with ⟨_ | _, d₁⟩
  · rw [hfolder] at hcreate
    cases hcreate
  · rw [hfolder] at hcreate
    dsimp only at hcreate ⊢
    rw [hcreate]
    rfl

theorem run_documents_error {e : ExportError} (hdest : x.destination = .documents folder)
    (hcreate : Documents.create folder w.disk = (.ok docs, d))
    (hsource : engine.source (w.withDisk d) x.settings = .error e) :
    (x.run engine w).state.disk = (Documents.close (docs, d)).2.2 := by
  rw [run_of_create hdest hcreate]
  simp only [concluded, runInto, hsource]
  rfl

/-- An export into documents is a run into them. -/
theorem run_documents {source : Source} (hdest : x.destination = .documents folder)
    (hcreate : Documents.create folder w.disk = (.ok docs, d))
    (hsource : engine.source (w.withDisk d) x.settings = .ok source) :
    (x.run engine w).result =
        (Pipeline.run source x.filter.admits Documents.sink (docs, d)).result ∧
      (x.run engine w).state.disk =
        (Pipeline.run source x.filter.admits Documents.sink (docs, d)).state.2 := by
  have hmatch := Pipeline.run_follows x.filter.admits follows_inWorld source (docs, w.withDisk d)
  rw [run_of_create hdest hcreate]
  simp only [concluded, runInto, hsource]
  exact ⟨hmatch.result, congrArg Prod.snd hmatch.state⟩

/-- The edges that are handed on before the stream fails; none if it cannot be opened. -/
def reaching (x : Export) (engine : Engine) (w : World ν) : List Edge :=
  match engine.source w x.settings with
  | .error _ => []
  | .ok source => Pipeline.admitted x.filter.admits (source.items.takeWhile Except.isOk)

theorem run_intact {d₀ : Disk} (h : Documents.Created folder d₀ docs d)
    (hdest : x.destination = .documents folder) (hdisk : w.disk = d₀) :
    Documents.Intact folder (x.reaching engine (w.withDisk d)) (x.run engine w).state.disk := by
  obtain ⟨p, rfl, hm, he, hready⟩ := h.ready
  have hcreate := hdisk ▸ h.created
  unfold reaching
  cases hsource : engine.source (w.withDisk d) x.settings with
  | error e =>
    rw [run_documents_error hdest hcreate hsource]
    exact Documents.intact_of_ready hm he hready
  | ok source =>
    have hself : Documents.sink.Wraps Documents.sink id :=
      ⟨fun _ _ => .inr ⟨rfl, rfl⟩, fun _ => .inr ⟨rfl, rfl⟩, fun _ => rfl⟩
    obtain ⟨s, hs, hstate⟩ :=
      Documents.run_wraps x.filter.admits hself hm he hready source
    have hkeeps := Documents.sink_keeps_on_files hm he
    rw [(run_documents hdest hcreate hsource).2]
    rw [Pipeline.settled_eq_takeWhile x.filter.admits hkeeps hready] at hs
    exact (congrArg Prod.snd hstate) ▸ Documents.intact_of_ready hm he hs

/-- Documents on two files are whole however they are given up: by an export, whatever its engine
yields, by a run into a destination that rejects some of what it is asked, or by being let go. -/
theorem files_intact {d₀ : Disk} (h : Documents.Created folder d₀ docs d) :
    (∀ (x : Export) (engine : Engine) (w : World ν), x.destination = .documents folder → w.disk = d₀ →
      Documents.Intact folder (x.reaching engine (w.withDisk d)) (x.run engine w).state.disk) ∧
    (∀ (τ : Type) (outer : Sink τ) (get : τ → Documents × Disk), outer.Wraps Documents.sink get →
      ∀ (t : τ) (source : Source) (admits : Edge → Bool), get t = (docs, d) →
        Documents.Intact folder
          (Pipeline.admitted admits (Pipeline.settled admits outer t source.items))
          (get (Pipeline.run source admits outer t).state).2) ∧
    ∀ edges : List Edge, ∃ s, Action.sequence (edges.map Documents.addEdge) (docs, d) = (.ok (), s) ∧
      Documents.Intact folder edges (Documents.drop s.1 s.2) := by
  refine ⟨fun x engine w hdest hdisk => run_intact h hdest hdisk, ?_, fun edges => ?_⟩
  · intro τ outer get hwraps t source admits ht
    obtain ⟨p, rfl, hm, he, hready⟩ := h.ready
    obtain ⟨s, hs, hstate⟩ := Documents.run_wraps admits hwraps hm he (ht ▸ hready) source
    rw [hstate]
    exact Documents.intact_of_ready hm he hs
  · obtain ⟨p, rfl, hm, he, hready⟩ := h.ready
    obtain ⟨s, hadd, hs⟩ := Documents.addAll_ready hm he hready edges
    exact ⟨s, hadd, Documents.intact_of_ready hm he hs⟩

theorem files_intact_crossCall :
    ∃ docs d, Documents.Created "out" (.fresh ["w"]) docs d ∧
      Documents.Intact "out" [Documents.crossCall]
        ((allInto "out").run (.memory [Documents.crossCall] 2) (.offline (.fresh ["w"]))).state.disk ∧
      ((allInto "out").run (.memory [Documents.crossCall] 2)
          (.offline (.fresh ["w"]))).state.disk.json? (Documents.edgesPath "out") =
        some (.array [.object [("src", .text "f()"), ("tgt", .text "g()"), ("kind", .text "STATIC")]]) ∧
      (∀ g rejection source admits, Documents.Intact "out"
        (Pipeline.admitted admits (Pipeline.settled admits (Documents.sink.guarded g rejection)
          ((docs, d), 0) source.items))
        (Pipeline.run source admits (Documents.sink.guarded g rejection) ((docs, d), 0)).state.1.2) ∧
      Documents.Intact "out" [] (Documents.drop docs d) := by
  obtain ⟨docs, d, h⟩ := Documents.created_fresh
  obtain ⟨hexport, hwrapped, hdropped⟩ := @files_intact Remote.Server _ _ _ _ _ h
  obtain ⟨s, hs, hintact⟩ := hdropped []
  cases hs
  have hrun : Documents.Intact "out" [Documents.crossCall]
      ((allInto "out").run (.memory [Documents.crossCall] 2) (.offline (.fresh ["w"]))).state.disk :=
    hexport _ _ _ rfl rfl
  exact ⟨docs, d, h, hrun, hrun.2, fun g rejection source admits => hwrapped _ _ Prod.fst
    (Documents.sink.wraps_guarded g rejection) ((docs, d), 0) source admits rfl, hintact⟩

/-- One file under both names, let go by its documents, does not hold a list. -/
theorem linked_not_intact :
    ∃ docs d s, Documents.create "." Documents.linkedDisk = (.ok docs, d) ∧
      d.isFile (Documents.mappingPath ".") ∧ d.isFile (Documents.edgesPath ".") ∧
      Action.sequence ([Documents.crossCall].map Documents.addEdge) (docs, d) = (.ok (), s) ∧
      (Documents.drop s.1 s.2).json? (Documents.edgesPath ".") = none := by
  have hrun : Action.leads (Documents.create ".") Documents.linkedDisk (fun docs d =>
      d.isFile (Documents.mappingPath ".") && d.isFile (Documents.edgesPath ".") &&
      (Action.sequence ([Documents.crossCall].map Documents.addEdge)).leads (docs, d) (fun _ s =>
        ((Documents.drop s.1 s.2).json? (Documents.edgesPath ".")).isNone)) := by decide +kernel
  obtain ⟨docs, d, hcreate, hcheck⟩ := Action.exists_of_leads hrun
  rw [Bool.and_eq_true, Bool.and_eq_true] at hcheck
  obtain ⟨⟨hm, he⟩, hadded⟩ := hcheck
  obtain ⟨_, s, hadd, hnone⟩ := Action.exists_of_leads hadded
  exact ⟨docs, d, s, hcreate, hm, he, hadd, Option.isNone_iff_eq_none.mp hnone⟩

/-- What becomes of an export into two documents when a path may lead to a full device: which edges
have been taken, which have been handed on, and which there are to export. -/
structure Reported (folder : String) (d : Disk) (taken handed exported : List Edge)
    (r : Outcome ν) : Prop where
  /-- Success means that neither path leads to a full device and that nothing is missing. -/
  complete : ∀ summary, r.result = .ok summary →
    ¬ d.isFullDevice (Documents.mappingPath folder) ∧
    ¬ d.isFullDevice (Documents.edgesPath folder) ∧
    (∃ members, r.state.disk.json? (Documents.mappingPath folder) = some (.object members) ∧
      Documents.Describes exported members) ∧
    r.state.disk.json? (Documents.edgesPath folder) =
      some (.array (exported.map Documents.edgeValue))
  /-- A full device is the cause of failure, and it is named. -/
  named : d.isFullDevice (Documents.mappingPath folder) ∨
      d.isFullDevice (Documents.edgesPath folder) →
    ∃ path, (path = Documents.mappingPath folder ∨ path = Documents.edgesPath folder) ∧
      d.isFullDevice path ∧ r.result = .error (.io path .noSpace)
  edges : d.isFullDevice (Documents.mappingPath folder) →
    ¬ d.isFullDevice (Documents.edgesPath folder) →
    r.state.disk.json? (Documents.edgesPath folder) = some (.array (taken.map Documents.edgeValue))
  mapping : ¬ d.isFullDevice (Documents.mappingPath folder) →
    d.isFullDevice (Documents.edgesPath folder) →
    ∃ members, r.state.disk.json? (Documents.mappingPath folder) = some (.object members) ∧
      Documents.Describes handed members

/-- A full device under either name is reported and does not touch the other document. -/
theorem run_reported (hcreate : Documents.create folder w.disk = (.ok docs, d))
    (hapart : Documents.Apart folder d) (hdest : x.destination = .documents folder)
    {source : Source} (hsource : engine.source (w.withDisk d) x.settings = .ok source)
    {edges : List Edge} (hitems : source.items = edges.map .ok) :
    Reported folder d
      (Pipeline.admitted x.filter.admits
        (Pipeline.settled x.filter.admits Documents.sink (docs, d) source.items))
      (Pipeline.admitted x.filter.admits
        (Pipeline.pulled x.filter.admits Documents.sink (docs, d) source.items))
      (edges.filter x.filter.admits) (x.run engine w) := by
  obtain ⟨p, rfl, hholds, hmarks⟩ := Documents.create_holds hcreate hapart
  obtain ⟨s, hs, hstate, hresult⟩ := Documents.run_holds x.filter.admits ⟨hholds, hmarks⟩ source
    (by simp [hitems])
  obtain ⟨hresult', hdisk⟩ := run_documents hdest hcreate hsource
  have hclosed := Documents.close_closed hs
  have hm : d.isFullDevice (Documents.mappingPath p.folder) ↔ p.mapping = .full :=
    hholds.mapping.isFullDevice_iff
  have he : d.isFullDevice (Documents.edgesPath p.folder) ↔ p.edges = .full :=
    hholds.edges.isFullDevice_iff
  rw [hstate] at hdisk
  refine ⟨fun summary hok => ?_, fun hfull => ?_, fun _ hfile => ?_, fun hfile _ => ?_⟩
  · rcases hresult with ⟨hnone, hmfile, hefile⟩ | ⟨path, -, herror⟩
    · obtain ⟨hsettled, hpulled⟩ := Pipeline.all_of_firstFailure?_eq_none _ _ _ hnone
      have hall : Pipeline.admitted x.filter.admits source.items =
          edges.filter x.filter.admits := by
        rw [hitems, Pipeline.admitted_map_ok]
      rw [hsettled, hpulled, hall] at hclosed
      rw [hdisk]
      exact ⟨mt hm.mp hmfile, mt he.mp hefile,
        ⟨_, hclosed.mapping hmfile, Documents.describes_firstCarriers _⟩, hclosed.edges hefile⟩
    · rw [hresult', herror] at hok
      cases hok
  · rcases hresult with ⟨-, hmfile, hefile⟩ | ⟨path, hfails, herror⟩
    · rcases hfull with hfull | hfull
      · exact absurd (hm.mp hfull) hmfile
      · exact absurd (he.mp hfull) hefile
    · rcases hfails with ⟨hfull, rfl⟩ | ⟨hfull, rfl⟩
      · exact ⟨_, .inl rfl, hm.mpr hfull, hresult'.trans herror⟩
      · exact ⟨_, .inr rfl, he.mpr hfull, hresult'.trans herror⟩
  · rw [hdisk]
    exact hclosed.edges (mt he.mpr hfile)
  · rw [hdisk]
    exact ⟨_, hclosed.mapping (mt hm.mpr hfile), Documents.describes_firstCarriers _⟩

def fullMappingDisk : Disk :=
  (Disk.fresh ["w"]).put ["w", "mapping.json"] (.link "/dev/full")

theorem run_reported_fullMapping :
    ∃ docs d path, Documents.create "." fullMappingDisk = (.ok docs, d) ∧
      d.isFullDevice path ∧
      ((allInto ".").run (.memory [Documents.crossCall] 2) (.offline fullMappingDisk)).result =
        .error (.io path .noSpace) := by
  have hrun : Action.leads (Documents.create ".") fullMappingDisk (fun _ d =>
      d.isFullDevice (Documents.mappingPath ".") && !d.isFile (Documents.mappingPath ".")) := by
    decide +kernel
  obtain ⟨docs, d, hcreate, hcheck⟩ := Action.exists_of_leads hrun
  rw [Bool.and_eq_true, Bool.not_eq_true'] at hcheck
  obtain ⟨hfull, hfile⟩ := hcheck
  have hreported : Reported "." d _ _ _
      ((allInto ".").run (.memory [Documents.crossCall] 2) (.offline fullMappingDisk)) :=
    run_reported hcreate (fun h => absurd h (by simp [hfile])) rfl rfl rfl
  obtain ⟨path, -, hpath, hresult⟩ := hreported.named (.inl hfull)
  exact ⟨docs, d, path, hcreate, hpath, hresult⟩

/-- One file under both names is exported with success, and holds neither document. -/
theorem linked_success_incomplete :
    ∃ docs d, Documents.create "." Documents.linkedDisk = (.ok docs, d) ∧
      d.isFile (Documents.mappingPath ".") ∧ d.isFile (Documents.edgesPath ".") ∧
      ((allInto ".").run (.memory [Documents.crossCall] 2) (.offline Documents.linkedDisk)).result =
        .ok ⟨1, 1, 1⟩ ∧
      ((allInto ".").run (.memory [Documents.crossCall] 2)
        (.offline Documents.linkedDisk)).state.disk.json? (Documents.mappingPath ".") = none := by
  have hrun : Action.leads (Documents.create ".") Documents.linkedDisk (fun _ d =>
      d.isFile (Documents.mappingPath ".") && d.isFile (Documents.edgesPath ".")) := by
    decide +kernel
  have hnone : (((allInto ".").run (.memory [Documents.crossCall] 2)
      (.offline Documents.linkedDisk)).state.disk.json? (Documents.mappingPath ".")).isNone := by
    decide +kernel
  obtain ⟨docs, d, hcreate, hcheck⟩ := Action.exists_of_leads hrun
  rw [Bool.and_eq_true] at hcheck
  exact ⟨docs, d, hcreate, hcheck.1, hcheck.2, by decide +kernel,
    Option.isNone_iff_eq_none.mp hnone⟩

end Export
end CallGraph
