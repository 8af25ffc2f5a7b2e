import CallGraph.Export

/-! An export in two parts: its destination is opened, and then the call graph is run into it. -/
namespace CallGraph

theorem exists_ok_of_any.{u, v} {ε : Type u} {α : Type v} {result : Except ε α} {check : α → Bool}
    (h : result.toOption.any check) : ∃ a, result = .ok a ∧ check a := by
  cases result with
  | error e => cases h
  | ok a => exact ⟨a, rfl, h⟩

/-- A part of a larger state is prepared as it is by itself. -/
theorem StoreSink.prepare_within {σ τ : Type} (store : Store σ) {get : τ → σ} {set : τ → σ → τ}
    (hget : ∀ t s, get (set t s) = s) (hset : ∀ t s s', set (set t s) s' = set t s') (t : τ) :
    prepare (store.within get set) t =
      ((prepare store (get t)).1, set t (prepare store (get t)).2) := by
  unfold prepare
  simp only [Store.within, Action.within]
  rcases store .clear (get t) with ⟨_ | _, s₁⟩
  · simp only [hget, hset]
  · simp only [hget, hset]
    rcases store .schema s₁ with ⟨_ | _, s₂⟩ <;> simp only [hget, hset]

namespace Export

/-- An open destination: its state in a world, what it does, and what has been told by now. -/
structure Opened (ν : Type) where
  State : Type
  sink : Sink (State × World ν)
  state : State × World ν
  notes : List Note

variable {ν : Type}

def Opened.world (o : Opened ν) : World ν :=
  o.state.2

def openDocuments (folder : String) (w : World ν) : Except (Outcome ν) (Opened ν) :=
  match Documents.prepareFolder folder w.disk with
  | (.error e, d) => .error (refused e [] (w.withDisk d))
  | (.ok (), d) =>
    match Documents.openIn folder d with
    | (.error e, d) => .error (refused e [Documents.openNote folder] (w.withDisk d))
    | (.ok docs, d) =>
      let sink : Sink (Documents × World ν) :=
        Documents.sink.within (fun (docs, w) => (docs, w.disk))
          (fun (_, w) (docs, d) => (docs, w.withDisk d))
      .ok ⟨Documents, sink, (docs, w.withDisk d), [Documents.openNote folder]⟩

def openStore {σ : Type} (store : Store (σ × World ν)) (classGraph : Bool) (notes : List Note)
    (s : σ × World ν) : Except (Outcome ν) (Opened ν) :=
  match StoreSink.prepare store s with
  | ((.error e, more), s) => .error (refused e (notes ++ more) s.2)
  | ((.ok (), more), s) =>
    let sink : Sink ((σ × Bool) × World ν) :=
      (StoreSink.sink store classGraph).within (fun ((s, closed), w) => ⟨(s, w), closed⟩)
        (fun _ sink => ((sink.inner.1, sink.closed), sink.inner.2))
    .ok ⟨σ × Bool, sink, ((s.1, false), s.2), notes ++ more⟩

def serverStore [Remote.Driver ν] : Store (Remote.Session ν × World ν) :=
  Store.within Remote.Session.store (fun (s, w) => (s, w.server))
    (fun (_, w) (s, server) => (s, w.withServer server))

def openServer [Remote.Driver ν] (address user password : String) (classGraph : Bool) (w : World ν) :
    Except (Outcome ν) (Opened ν) :=
  let notes :=
    [⟨.info, .export, "Connecting to Neo4j at " ++ address⟩, Remote.Session.startNote address]
  match (Remote.Session.start address user password : Except StoreError (Remote.Session ν)) with
  | .error e => .error (refused (.store e) notes w)
  | .ok session => openStore serverStore classGraph notes (session, w)

def databaseStore : Store (Database × World ν) :=
  Store.within Database.store (fun (db, w) => (db, w.disk))
    (fun (_, w) (db, d) => (db, w.withDisk d))

def openDatabase (path : String) (classGraph : Bool) (w : World ν) :
    Except (Outcome ν) (Opened ν) :=
  match prepareDatabaseFolder path w.disk with
  | (.error e, d) => .error (refused e [] (w.withDisk d))
  | (.ok (), d) =>
    let notes := [⟨.info, .export, "Opening SQLite graph store at " ++ path⟩]
    match Database.openAt path d with
    | (.error e, d) => .error (refused (.store e) notes (w.withDisk d))
    | (.ok db, d) => openStore databaseStore classGraph notes (db, w.withDisk d)

/-- Opens the destination of an export, or tells how the export ends without one. -/
def opening [Remote.Driver ν] (x : Export) (w : World ν) : Except (Outcome ν) (Opened ν) :=
  match x.destination with
  | .documents folder => openDocuments folder w
  | .server address user password classGraph => openServer address user password classGraph w
  | .database path classGraph => openDatabase path classGraph w

variable (x : Export) (engine : Engine)

theorem toStore_eq {σ : Type} (store : Store (σ × World ν)) (classGraph : Bool) (notes : List Note)
    (s : σ × World ν) :
    x.toStore engine store classGraph notes s =
      match openStore store classGraph notes s with
      | .error r => r
      | .ok o => concluded o.notes (x.runInto engine o.sink o.state) := by
  unfold toStore openStore
  rcases StoreSink.prepare store s with ⟨⟨_ | _, more⟩, s'⟩ <;> rfl

/-- An export is what opening its destination comes to, or a run into the open destination. -/
theorem run_eq [Remote.Driver ν] (w : World ν) :
    x.run engine w =
      match x.opening w with
      | .error r => r
      | .ok o => concluded o.notes (x.runInto engine o.sink o.state) := by
  unfold run opening
  cases x.destination with
  | documents folder =>
    dsimp only
    unfold toDocuments openDocuments
    rcases Documents.prepareFolder folder w.disk with ⟨_ | _, d⟩
    · rfl
    · dsimp only
      rcases Documents.openIn folder d with ⟨_ | _, d'⟩ <;> rfl
  | server address user password classGraph =>
    dsimp only
    unfold toServer openServer
    cases (Remote.Session.start address user password : Except StoreError (Remote.Session ν)) with
    | error e => rfl
    | ok session => exact toStore_eq x engine ..
  | database path classGraph =>
    dsimp only
    unfold toDatabase openDatabase
    rcases prepareDatabaseFolder path w.disk with ⟨_ | _, d⟩
    · rfl
    · dsimp only
      rcases Database.openAt path d with ⟨_ | _, d'⟩
      · rfl
      · exact toStore_eq x engine ..

theorem run_of_opening [Remote.Driver ν] {w : World ν} {o : Opened ν} (h : x.opening w = .ok o) :
    x.run engine w = concluded o.notes (x.runInto engine o.sink o.state) := by
  rw [run_eq, h]

theorem start_of_openStore {σ : Type} {store : Store (σ × World ν)} {classGraph : Bool}
    {notes : List Note} {s : σ × World ν} {o : Opened ν} (hstart : ∀ s, (StoreSink.prepare store s).2.2.start = s.2.start)
    (h : openStore store classGraph notes s = .ok o) : o.world.start = s.2.start := by
  have hprepare := hstart s
  unfold openStore at h
  rcases hprepared : StoreSink.prepare store s with ⟨⟨_ | _, more⟩, s'⟩ <;> simp only [hprepared] at h
  · cases h
  · rw [hprepared] at hprepare
    cases h
    exact hprepare

/-- Opening a destination does not touch how programs run. -/
theorem start_of_opening [Remote.Driver ν] {w : World ν} {o : Opened ν} (h : x.opening w = .ok o) :
    o.world.start = w.start := by
  unfold opening at h
  split at h
  · unfold openDocuments at h
    split at h
    · cases h
    · split at h <;> cases h
      rfl
  · unfold openServer at h
    dsimp only at h
    split at h
    · cases h
    · refine start_of_openStore (fun s => ?_) h
      rw [serverStore, StoreSink.prepare_within] <;> intros <;> rfl
  · unfold openDatabase at h
    split at h
    · cases h
    · dsimp only at h
      split at h
      · cases h
      · refine start_of_openStore (fun s => ?_) h
        rw [databaseStore, StoreSink.prepare_within] <;> intros <;> rfl

end Export
end CallGraph
