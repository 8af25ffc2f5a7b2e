import CallGraph.Proofs.Store.Requests

/-!
Operations in any order: the tables of a database always hold the graph of the calls that have been
merged, and what fails leaves everything as it was.
-/
namespace CallGraph

inductive Operation
  | request (r : Request)
  | counts
  | properties (signature : String)
  | classDependencies

namespace Operation

/-- Whether an operation succeeds, and the database after it; a question only looks at the tables. -/
def run : Operation → Action (Database × Disk) StoreError Unit
  | request r => Database.store r
  | counts => fun s => (s.1.embedded.counts.map fun _ => (), s)
  | properties signature => fun s => ((s.1.embedded.properties signature).map fun _ => (), s)
  | classDependencies => fun s => (s.1.embedded.classDependencies.map fun _ => (), s)

def request? : Operation → Option Request
  | request r => some r
  | _ => none

theorem home_run (x : Operation) (s : Database × Disk) : (x.run s).2.1.home = s.1.home := by
  cases x with
  | request r => exact Database.home_store r s
  | _ => rfl

theorem run_failed (x : Operation) {s : Database × Disk} {e : StoreError}
    (h : (x.run s).1 = .error e) : (x.run s).2 = s := by
  cases x with
  | request r => exact Database.store_failed h
  | _ => rfl

end Operation

namespace Database

def afterAll (s : Database × Disk) (operations : List Operation) : Database × Disk :=
  operations.foldl (fun s x => (x.run s).2) s

def carriedOut (s : Database × Disk) : List Operation → List Request
  | [] => []
  | x :: operations =>
    match x.request?, (x.run s).1 with
    | some r, .ok _ => r :: carriedOut (x.run s).2 operations
    | _, _ => carriedOut (x.run s).2 operations

variable {db : Database} {d : Disk} {ledger : Ledger}

theorem home_afterAll (s : Database × Disk) (operations : List Operation) :
    (afterAll s operations).1.home = s.1.home := by
  induction operations generalizing s with
  | nil => rfl
  | cons x operations ih => exact (ih (x.run s).2).trans (x.home_run s)

theorem inStep_afterAll (h : InStep ledger db) (operations : List Operation) :
    InStep ((carriedOut (db, d) operations).foldl Ledger.after ledger)
      (afterAll (db, d) operations).1 := by
  induction operations generalizing db d ledger with
  | nil => exact h
  | cons x operations ih =>
    rw [afterAll, List.foldl_cons, carriedOut]
    cases hresult : (x.run (db, d)).1 with
    | error e =>
      rw [x.run_failed hresult]
      cases x.request? <;> exact ih h
    | ok _ =>
      cases x with
      | request r => exact ih (h.enter hresult)
      | _ => exact ih h

theorem InStep.keeps_afterAll {t : Tables} (h : InStep ledger db) (operations : List Operation)
    (hoperations : ∀ x ∈ operations, x ≠ .request .clear) (hkeeps : db.embedded.Keeps t) :
    (afterAll (db, d) operations).1.embedded.Keeps t := by
  induction operations generalizing db d ledger with
  | nil => exact hkeeps
  | cons x operations ih =>
    have hrest : ∀ y ∈ operations, y ≠ .request .clear :=
      fun y hy => hoperations y (List.mem_cons_of_mem x hy)
    rw [afterAll, List.foldl_cons]
    cases hresult : (x.run (db, d)).1 with
    | error e =>
      rw [x.run_failed hresult]
      exact ih h hrest hkeeps
    | ok _ =>
      cases x with
      | request r =>
        have hr : r ≠ .clear := by
          rintro rfl
          exact hoperations _ List.mem_cons_self rfl
        have hkept : (store r (db, d)).2.1.embedded.Keeps t := by
          rw [(takes_of_ok hresult).state]
          exact Ledger.keeps_store h.fits hr hkeeps
        exact ih (h.enter hresult) hrest hkept
      | _ => exact ih h hrest hkeeps

/-- What holds of every operation that a database may be asked for next. -/
structure Lawful (s : Database × Disk) : Prop where
  cleared : s.1.embedded ≠ .closed → (store .clear s).1 = .ok ()
  prepared : s.1.embedded ≠ .closed → (store .schema s).1 = .ok ()
  /-- Tables that are there stay as they are when they are prepared again. -/
  schema : ∀ t, s.1.embedded = .opened (some t) → store .schema s = (.ok (), s)
  call : ∀ m : Merge, (store m.request s).1 = .ok () ↔ ∃ t, s.1.embedded = .opened (some t)
  classes : (store .classes s).1 = .ok () ↔ ∃ t, s.1.embedded = .opened (some t)
  /-- As long as the graph is not cleared, every row stays in its place. -/
  kept : ∀ operations, (∀ x ∈ operations, x ≠ .request .clear) →
    ∀ t, s.1.embedded = .opened (some t) → (afterAll s operations).1.embedded.Keeps t
  failed : ∀ (x : Operation) e, (x.run s).1 = .error e → (x.run s).2 = s

theorem InStep.lawful (h : InStep ledger db) (hhome : db.home ≠ .full) : Lawful (db, d) where
  cleared := h.store_clear
  prepared := store_schema hhome
  schema _ ht := store_schema_again ht
  call m := h.store_ok_iff (.inl ⟨m, rfl⟩)
  classes := h.store_ok_iff (.inr rfl)
  kept operations hoperations t ht := by
    apply h.keeps_afterAll operations hoperations
    rw [ht]
    exact .refl t
  failed := fun x _ hfailed => x.run_failed hfailed

/-- Whatever an empty database is asked for, it holds the graph of the calls merged since it was
last cleared, and what may be asked of it next is lawful. It has to lie in memory or in a file that takes
what is written: faults of the medium are none of the laws. -/
theorem operations_represent (hopen : db.embedded = .opened none) (hhome : db.home ≠ .full)
    (operations : List Operation) :
    ((carriedOut (db, d) operations).foldl Ledger.after .bare).Fits Tables.Represents
        (afterAll (db, d) operations).1.embedded ∧
      Lawful (afterAll (db, d) operations) := by
  have hempty : InStep .bare db := ⟨hopen, fun _ t ht => by simp [hopen] at ht⟩
  have hreached := inStep_afterAll hempty operations (d := d)
  have hkept : (afterAll (db, d) operations).1.home ≠ .full := by
    rwa [home_afterAll]
  exact ⟨hreached.fits.mono fun _ _ h => h.represents, hreached.lawful hkept⟩

/-- A method that calls itself, and another method under its signature that calls a third. -/
def sampleMerges : List Merge :=
  [⟨.inOwnPackage "p.A" "f" "f()", .inOwnPackage "p.A" "f" "f()", "STATIC"⟩,
    ⟨.inOwnPackage "q.B" "f" "f()", .inOwnPackage "q.C" "g" "g()", "STATIC"⟩]

/-- Calls that come too early are lost, the ones after the tables are kept. -/
def sampleOperations : List Operation :=
  sampleMerges.map (.request ·.request) ++ [.request .clear, .request .schema] ++
    sampleMerges.map (.request ·.request) ++ [.request .classes, .counts]

theorem operations_represent_sample :
    inMemory.embedded = .opened none ∧ inMemory.home ≠ .full ∧
      (Ledger.graph sampleMerges).Fits Tables.Represents
        (afterAll (inMemory, .fresh ["w"]) sampleOperations).1.embedded ∧
      Lawful (afterAll (inMemory, .fresh ["w"]) sampleOperations) := by
  have hledger : (carriedOut (inMemory, .fresh ["w"]) sampleOperations).foldl Ledger.after .bare =
      .graph sampleMerges := by
    rfl
  have hrun := @operations_represent inMemory (.fresh ["w"]) rfl nofun sampleOperations
  rw [hledger] at hrun
  exact ⟨rfl, nofun, hrun⟩

end Database
end CallGraph
