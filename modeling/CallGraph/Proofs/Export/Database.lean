import CallGraph.Proofs.Export.Documents
import CallGraph.Proofs.Export.Opening
import CallGraph.Proofs.Sink.Store
import CallGraph.Proofs.Store.Classes
import CallGraph.Proofs.Store.Filed

/-!
What an export leaves in the tables of a database file. Opening the file empties the tables, so they are
those of this export alone.
-/
namespace CallGraph

namespace Tables

def ofMerges (merges : List Merge) : Tables :=
  merges.foldl mergeCall .empty

theorem ofMerges_concat (merges : List Merge) (m : Merge) :
    ofMerges (merges ++ [m]) = (ofMerges merges).mergeCall m := by
  simp [ofMerges]

theorem stores_ofMerges (merges : List Merge) : (ofMerges merges).Stores merges := by
  induction merges using List.reverseRecOn with
  | nil => exact stores_empty
  | append_singleton merges m ih =>
    rw [ofMerges_concat]
    exact ih.mergeCall m

/-- Calls alone make no class layer. -/
theorem bare_ofMerges (merges : List Merge) :
    (ofMerges merges).classes = [] ∧ (ofMerges merges).dependencies = [] := by
  induction merges using List.reverseRecOn with
  | nil => exact ⟨rfl, rfl⟩
  | append_singleton merges m ih =>
    obtain ⟨call, heq, -⟩ := mergeCall_eq (stores_ofMerges merges).methods m
    rw [ofMerges_concat, heq]
    exact ih

/-- The tables of some calls, with their class layer if it is wanted. -/
def ofExport (merges : List Merge) (layered : Bool) : Tables :=
  if layered then (ofMerges merges).mergeClasses else ofMerges merges

end Tables

namespace Database

open Pipeline (admitted settled pulled fed firstFailure?)

variable {path : String} {loc : Location} {edges : List Edge} {s : StoreSink (Database × Disk)}

/-- An open database file as a destination holds the graph of some edges, without a class layer. -/
structure Holds (path : String) (loc : Location) (edges : List Edge) (s : StoreSink (Database × Disk)) :
    Prop where
  opened : s.closed = false
  filed : Filed path loc (some (.ofMerges (edges.map Edge.merge))) s.inner

theorem Holds.add (h : Holds path loc edges s) (e : Edge) :
    ∃ s', StoreSink.add store e s = (.ok (), s') ∧ Holds path loc (edges ++ [e]) s' := by
  have hmerge : Embedded.store e.merge.request (.opened (some (.ofMerges (edges.map Edge.merge)))) =
      (.ok (), .opened (some (.ofMerges ((edges ++ [e]).map Edge.merge)))) := by
    rw [List.map_append, List.map_singleton, Tables.ofMerges_concat]
    rfl
  obtain ⟨inner, hstore, hfiled⟩ := h.filed.store hmerge
  exact ⟨⟨inner, s.closed⟩, StoreSink.request_of_ok hstore s.closed, h.opened, hfiled⟩

theorem sink_keeps (path : String) (loc : Location) (classGraph : Bool) :
    Pipeline.Keeps (StoreSink.sink store classGraph) (Holds path loc) fun _ _ _ _ => False := by
  intro edges e s h
  obtain ⟨s', hadd, hholds⟩ := h.add e
  have hadd : (StoreSink.sink store classGraph).add e s = (.ok (), s') := hadd
  rw [hadd]
  exact .inl ⟨rfl, hholds⟩

/-- Closing a database leaves the tables in its file. -/
theorem close_filed {tables? : Option Tables} (hopened : s.closed = false)
    (hfiled : Filed path loc tables? s.inner) :
    ∃ s', StoreSink.close store s = (.ok (), s') ∧ s'.inner.2.tables? path = tables? := by
  obtain ⟨inner, hclose, hdisk⟩ := hfiled.close
  refine ⟨⟨inner, true⟩, ?_, ?_⟩
  · rw [StoreSink.close, if_neg (by simp [hopened])]
    exact StoreSink.request_of_ok hclose true
  · rw [← hfiled.tables]
    exact congrArg (Disk.tables? · path) hdisk

/-- The last work on a database derives the class layer if it is wanted, and does not fail. -/
theorem Holds.finish (h : Holds path loc edges s) (classGraph : Bool) :
    ∃ s', (StoreSink.sink store classGraph).finish s = (.ok (), s') ∧ s'.closed = false ∧
      Filed path loc (some (.ofExport (edges.map Edge.merge) classGraph)) s'.inner := by
  cases classGraph with
  | false => exact ⟨s, rfl, h.opened, h.filed⟩
  | true =>
    have hderive : Embedded.store .classes (.opened (some (.ofMerges (edges.map Edge.merge)))) =
        (.ok (), .opened (some (.ofExport (edges.map Edge.merge) true))) := rfl
    obtain ⟨inner, hstore, hfiled⟩ := h.filed.store hderive
    exact ⟨⟨inner, s.closed⟩, StoreSink.request_of_ok hstore s.closed, h.opened, hfiled⟩

/-- A run into a database file: how it ends, and which tables are in the file then. -/
theorem run_filed (admits : Edge → Bool) (classGraph : Bool) (h : Holds path loc [] s) (source : Source) :
    let r := Pipeline.run source admits (StoreSink.sink store classGraph) s
    let failure? := source.items.findSome? causeOf?
    (match failure? with
      | some e => r.result = .error e
      | none => ∃ summary, r.result = .ok summary) ∧
    r.state.inner.2.tables? path = some (.ofExport
      ((admitted admits (source.items.takeWhile Except.isOk)).map Edge.merge)
      (classGraph && failure?.isNone)) := by
  have hkeeps := sink_keeps path loc classGraph
  have hfirst := Pipeline.firstFailure?_eq_findSome? admits hkeeps h source.items
  have hfed : Holds path loc (admitted admits (source.items.takeWhile Except.isOk))
      (fed (StoreSink.sink store classGraph) s
        (admitted admits (pulled admits (StoreSink.sink store classGraph) s source.items))) := by
    rw [← Pipeline.settled_eq_takeWhile admits hkeeps h]
    rcases Pipeline.kept_of_keeps admits hkeeps h source.items with
      ⟨-, -, hholds⟩ | ⟨-, -, -, -, -, hfalse⟩
    · exact hholds
    · exact hfalse.elim
  dsimp only
  rw [← hfirst]
  cases hfailure : firstFailure? admits (StoreSink.sink store classGraph) s source.items with
  | some failure =>
    obtain ⟨s', hclose, htables⟩ := close_filed hfed.opened hfed.filed
    have hclose : (StoreSink.sink store classGraph).close _ = (.ok (), s') := hclose
    refine ⟨Pipeline.result_of_firstFailure admits _ hfailure, ?_⟩
    simp only [Pipeline.run_eq, hfailure, reduceCtorEq, if_false, hclose, htables]
    simp [Tables.ofExport]
  | none =>
    obtain ⟨s₁, hfinish, hopened, hfiled⟩ := hfed.finish classGraph
    obtain ⟨s₂, hclose, htables⟩ := close_filed hopened hfiled
    have hclose : (StoreSink.sink store classGraph).close s₁ = (.ok (), s₂) := hclose
    refine ⟨⟨Pipeline.fullSummary admits source, ?_⟩, ?_⟩
    · simp [Pipeline.run_eq, Pipeline.failures, hfailure, hfinish, hclose, causeOf?]
    · simp only [Pipeline.run_eq, hfailure, if_true, hfinish, hclose, htables]
      simp

end Database

namespace Export

variable {ν : Type} {x : Export} {w : World ν} {path : String} {classGraph : Bool} {o : Opened ν}

private theorem prepare_databaseStore (db : Database) (w : World ν) :
    StoreSink.prepare databaseStore (db, w) =
      ((StoreSink.prepare Database.store (db, w.disk)).1,
        (StoreSink.prepare Database.store (db, w.disk)).2.1,
        w.withDisk (StoreSink.prepare Database.store (db, w.disk)).2.2) := by
  unfold databaseStore
  rw [StoreSink.prepare_within] <;> intros <;> rfl

/-- A database that is opened as a destination does what it does with its own disk. -/
theorem openStore_holds {db : Database} {notes : List Note}
    (hopened : db = ⟨.full, .opened none⟩ ∨ ∃ loc tables?, Database.Filed path loc tables? (db, w.disk))
    (h : openStore databaseStore classGraph notes (db, w) = .ok o) :
    ∃ (get : o.State × World ν → StoreSink (Database × Disk)) (loc : Location),
      o.sink.Follows (StoreSink.sink Database.store classGraph) get ∧
      Database.Holds path loc [] (get o.state) ∧ ∀ s, (get s).inner.2 = s.2.disk := by
  rw [openStore, prepare_databaseStore] at h
  rcases hprepare : StoreSink.prepare Database.store (db, w.disk) with ⟨⟨_ | _, more⟩, s⟩
  · simp only [hprepare] at h
    cases h
  simp only [hprepare] at h
  cases h
  obtain ⟨loc, hfiled⟩ := Database.filed_of_prepare hopened hprepare
  refine ⟨fun ((db, closed), w) => ⟨(db, w.disk), closed⟩, loc, ?_, ⟨rfl, hfiled⟩, fun _ => rfl⟩
  refine ⟨fun _ _ => ⟨rfl, rfl⟩, fun _ => ?_, fun ((db, closed), w) => ?_, rfl⟩
  · cases classGraph <;> exact ⟨rfl, rfl⟩
  · cases closed <;> exact ⟨rfl, rfl⟩

theorem openDatabase_holds (hfile : Database.NamesFile path)
    (h : openDatabase path classGraph w = .ok o) :
    ∃ (get : o.State × World ν → StoreSink (Database × Disk)) (loc : Location),
      o.sink.Follows (StoreSink.sink Database.store classGraph) get ∧
      Database.Holds path loc [] (get o.state) ∧ ∀ s, (get s).inner.2 = s.2.disk := by
  unfold openDatabase at h
  rcases hfolder : prepareDatabaseFolder path w.disk with ⟨_ | _, d⟩ <;> simp only [hfolder] at h
  · cases h
  rcases hopen : Database.openAt path d with ⟨_ | db, d'⟩ <;> simp only [hopen] at h
  · cases h
  exact openStore_holds (Database.filed_of_openAt hfile hopen) h

/-- Why the engine or the stream that it yields fails, if one does. -/
def breach? (x : Export) (engine : Engine) (w : World ν) : Option ExportError :=
  match engine.source w x.settings with
  | .error e => some e
  | .ok source => source.items.findSome? causeOf?

variable [Remote.Driver ν]

/-- How an export into a database file ends, and the tables that are in the file then. -/
theorem run_database (hdest : x.destination = .database path classGraph)
    (hfile : Database.NamesFile path) (hopen : x.opening w = .ok o) (engine : Engine) :
    (match x.breach? engine o.world with
      | some e => (x.run engine w).result = .error e
      | none => ∃ summary, (x.run engine w).result = .ok summary) ∧
    (x.run engine w).state.disk.tables? path = some (.ofExport
      ((x.reaching engine o.world).map Edge.merge)
      (classGraph && (x.breach? engine o.world).isNone)) := by
  rw [run_of_opening x engine hopen]
  unfold opening at hopen
  rw [hdest] at hopen
  obtain ⟨get, loc, hfollows, hholds, hdisk⟩ := openDatabase_holds hfile hopen
  unfold breach? reaching Opened.world
  cases hsource : engine.source o.state.2 x.settings with
  | error e =>
    simp only [concluded, runInto, hsource, true_and]
    obtain ⟨s', hclose, htables⟩ := Database.close_filed hholds.opened hholds.filed
    have hstate := (hfollows.close o.state).2
    have hclose : (StoreSink.sink Database.store classGraph).close _ = (.ok (), s') := hclose
    rw [hclose] at hstate
    rw [← hdisk, hstate, htables]
    simp [Tables.ofExport]
  | ok source =>
    have hmatch := Pipeline.run_follows x.filter.admits hfollows source o.state
    obtain ⟨hresult, htables⟩ := Database.run_filed x.filter.admits classGraph hholds source
    simp only [concluded, runInto, hsource, Pipeline.Run.after]
    rw [hmatch.result, ← hdisk, hmatch.state]
    exact ⟨hresult, htables⟩

/-- The tables after an export: the graph of the edges that have reached it, and their class layer if it
is wanted and nothing has failed. -/
structure Refilled (edges : List Edge) (failure? : Option ExportError) (classGraph : Bool) (t : Tables) :
    Prop where
  graph : t.Represents (edges.map Edge.merge)
  bare : failure? ≠ none ∨ classGraph = false → t.classes = [] ∧ t.dependencies = []
  layered : failure? = none → classGraph = true → t.Layered ∧
    (Consistent (edges.map Edge.merge) → ∀ a b, (a, b) ∈ t.dependencyKeys ↔
      ∃ m ∈ edges.map Edge.merge, (m.source.classKey, m.target.classKey) = (a, b))

theorem refilled_ofExport (edges : List Edge) (failure? : Option ExportError) (classGraph : Bool) :
    Refilled edges failure? classGraph
      (.ofExport (edges.map Edge.merge) (classGraph && failure?.isNone)) := by
  have hstores := Tables.stores_ofMerges (edges.map Edge.merge)
  have hbare := Tables.bare_ofMerges (edges.map Edge.merge)
  unfold Tables.ofExport
  by_cases hlayered : (classGraph && failure?.isNone) = true
  · rw [if_pos hlayered]
    obtain ⟨hwanted, hnone⟩ := Bool.and_eq_true_iff.mp hlayered
    have hlayer := hstores.layered_mergeClasses
    refine ⟨hstores.mergeClasses.represents, ?_, fun _ _ =>
      ⟨hlayer, hstores.mergeClasses.dependencies_of_consistent hlayer⟩⟩
    rintro (hfailure | hunwanted)
    · exact absurd (Option.isNone_iff_eq_none.mp hnone) hfailure
    · rw [hunwanted] at hwanted
      cases hwanted
  · rw [if_neg hlayered]
    refine ⟨hstores.represents, fun _ => hbare, fun hnone hwanted => ?_⟩
    exact absurd (by rw [hnone, hwanted]; rfl) hlayered

/-- Once it has opened a database file, whatever exports have left in it, an export fills its tables anew:
they depend on the source that its engine builds, the filter and the wish for a class layer, and on nothing
else. -/
theorem database_refilled (hdest : x.destination = .database path classGraph)
    (hfile : Database.NamesFile path) (hopen : x.opening w = .ok o) (engine : Engine) :
    (match x.breach? engine o.world with
      | some e => (x.run engine w).result = .error e
      | none => ∃ summary, (x.run engine w).result = .ok summary) ∧
    ∃ t, (x.run engine w).state.disk.tables? path = some t ∧
      Refilled (x.reaching engine o.world) (x.breach? engine o.world) classGraph t ∧
      ∀ (x' : Export) (engine' : Engine) (path' : String) (w' : World ν) (o' : Opened ν),
        x'.destination = .database path' classGraph → Database.NamesFile path' →
        x'.opening w' = .ok o' → x'.filter = x.filter →
        engine'.source o'.world x'.settings = engine.source o.world x.settings →
        (x'.run engine' w').state.disk.tables? path' = some t := by
  obtain ⟨hresult, htables⟩ := run_database hdest hfile hopen engine
  refine ⟨hresult, _, htables, refilled_ofExport .., ?_⟩
  intro x' engine' path' w' o' hdest' hfile' hopen' hfilter hsource
  rw [(run_database hdest' hfile' hopen' engine').2]
  simp only [reaching, breach?, hfilter, hsource]

def after (exports : List (Export × Engine)) (w : World ν) : World ν :=
  exports.foldl (fun w (x, engine) => (x.run engine w).state) w

private def intoFile (classGraph : Bool) : Export :=
  ⟨.default, .all, .database "db/graph.db" classGraph⟩

/-- An export with a class layer, and then one whose engine fails. -/
private def earlier : List (Export × Engine) :=
  [(intoFile true, .memory [Documents.crossCall] 2), (intoFile false, .broken .noHeader)]

private def breaking : Engine :=
  .other [] fun _ _ => .ok ⟨2, 2, [.ok Documents.crossCall, .error (.engine (.other "lost"))]⟩

theorem database_refilled_earlier :
    ((after (earlier.take 1) (.offline (.fresh ["w"]))).disk.tables? "db/graph.db").any
        (·.classes.length = 2) ∧
    (∃ t, ((intoFile false).run (.memory [Documents.crossCall] 2)
        (after earlier (.offline (.fresh ["w"])))).state.disk.tables? "db/graph.db" = some t ∧
      t.Represents [Documents.crossCall.merge] ∧ t.classes = [] ∧ t.dependencies = []) ∧
    ∃ t, ((intoFile true).run breaking
        (after earlier (.offline (.fresh ["w"])))).state.disk.tables? "db/graph.db" = some t ∧
      t.Represents [Documents.crossCall.merge] ∧ t.classes = [] ∧ t.dependencies = [] := by
  have hopens (classGraph : Bool) : ((intoFile classGraph).opening
      (after earlier (.offline (.fresh ["w"])))).toOption.any fun _ => true := by
    cases classGraph <;> decide +kernel
  have hfile : Database.NamesFile "db/graph.db" := ⟨by decide, by decide, by decide⟩
  obtain ⟨o, hopen, -⟩ := exists_ok_of_any (hopens false)
  obtain ⟨-, t, htables, hrefilled, -⟩ := database_refilled rfl hfile hopen
    (.memory [Documents.crossCall] 2)
  obtain ⟨o', hopen', -⟩ := exists_ok_of_any (hopens true)
  obtain ⟨-, t', htables', hrefilled', -⟩ := database_refilled rfl hfile hopen' breaking
  exact ⟨by decide +kernel, ⟨t, htables, hrefilled.graph, hrefilled.bare (.inr rfl)⟩,
    t', htables', hrefilled'.graph, hrefilled'.bare (.inl nofun)⟩

end Export
end CallGraph
