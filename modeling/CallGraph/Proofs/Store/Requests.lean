import CallGraph.Proofs.Store.Contents
import CallGraph.Proofs.Step
import CallGraph.Store.Database

/-!
One request after another. A ledger says which calls have been merged by now; the tables of a database
that is in step with it hold the graph of these calls.
-/
namespace CallGraph

def Merge.request (m : Merge) : Request :=
  .call m.source m.target m.kind

def Request.merge? : Request → Option Merge
  | .call source target kind => some ⟨source, target, kind⟩
  | _ => none

def Request.isAddition : Request → Bool
  | .call _ _ _ | .classes => true
  | _ => false

theorem isAddition_of_mem_requests {merges : List Merge} {r : Request}
    (hr : r ∈ merges.map Merge.request) : r.isAddition := by
  obtain ⟨m, -, rfl⟩ := List.mem_map.mp hr
  rfl

theorem merges_of_requests (merges : List Merge) :
    (merges.map Merge.request).filterMap Request.merge? = merges := by
  rw [List.filterMap_map]
  exact List.filterMap_some

namespace Embedded

/-- Tables that refer to others are gone before them, so no table is refused. -/
theorem removeAll_eq (tables? : Option Tables) : removeAll tables? = (.ok (), none) := by
  cases tables? with
  | none => rfl
  | some t =>
    simp [removeAll, Action.sequence, Action.andThen, Action.done, Table.removalOrder, removal,
      Tables.isReferredTo, Tables.emptied, Tables.isEndpoint]

/-- Calls and classes are carried out where there are tables, and only there. -/
theorem store_ok_iff {r : Request} (hr : (∃ m : Merge, r = m.request) ∨ r = .classes)
    (s : Embedded) : (store r s).1 = .ok () ↔ ∃ t, s = .opened (some t) := by
  constructor
  · intro hok
    rcases s with ⟨_ | t⟩ | _
    · rcases hr with ⟨m, rfl⟩ | rfl <;> cases hok
    · exact ⟨t, rfl⟩
    · rcases hr with ⟨m, rfl⟩ | rfl <;> cases hok
  · rintro ⟨t, rfl⟩
    rcases hr with ⟨m, rfl⟩ | rfl <;> rfl

/-- A request that fails changes nothing. -/
theorem store_failed {r : Request} {s : Embedded} {e : StoreError} (h : (store r s).1 = .error e) :
    (store r s).2 = s := by
  cases s with
  | closed => cases r <;> rfl
  | opened tables? =>
    cases r with
    | clear => simp [store, perform, removeAll_eq, Except.mapError] at h
    | schema => cases h
    | close => cases h
    | call source target kind =>
      cases tables? with
      | none => rfl
      | some t => cases h
    | classes =>
      cases tables? with
      | none => rfl
      | some t => cases h

/-- Every row that was there is in its place, unless the store has been closed. -/
def Keeps (t : Tables) : Embedded → Prop
  | closed => True
  | opened none => False
  | opened (some t') => t.Within t'

theorem store_clear (tables? : Option Tables) :
    store .clear (opened tables?) = (.ok (), opened none) := by
  simp [store, perform, removeAll_eq, Except.mapError]

end Embedded

namespace Database

variable {db : Database} {d : Disk} {r : Request}

/-- A database does to its tables what it is asked for, and its disk follows. -/
structure Takes (r : Request) (db : Database) (d : Disk) : Prop where
  result : (store r (db, d)).1 = (Embedded.store r db.embedded).1
  state : (store r (db, d)).2.1 = { db with embedded := (Embedded.store r db.embedded).2 }
  disk : (Embedded.store r db.embedded).2 = db.embedded → (store r (db, d)).2.2 = d
  full : db.home = .full →
    (Embedded.store r db.embedded).2 = db.embedded ∨ (Embedded.store r db.embedded).2 = .closed

theorem takes_of_eq {result : Except StoreError Unit} {embedded : Embedded} {d' : Disk}
    (hstore : Embedded.store r db.embedded = (result, embedded))
    (heq : store r (db, d) = (result, { db with embedded }, d'))
    (hdisk : embedded = db.embedded → d' = d)
    (hfull : db.home = .full → embedded = db.embedded ∨ embedded = .closed) : Takes r db d := by
  constructor <;> rw [hstore]
  · rw [heq]
  · rw [heq]
  · rw [heq]
    exact hdisk
  · exact hfull

/-- Only a full device refuses a request that the tables would allow, and only if they would change. -/
theorem store_cases (r : Request) (db : Database) (d : Disk) :
    Takes r db d ∨ db.home = .full ∧ (Embedded.store r db.embedded).2 ≠ db.embedded ∧
      store r (db, d) = (.error (.database .full), db, d) := by
  obtain ⟨home, embedded⟩ := db
  rcases hstore : Embedded.store r embedded with ⟨result, embedded'⟩
  cases home with
  | memory => exact .inl (takes_of_eq hstore (by simp [store, hstore]) (fun _ => rfl) nofun)
  | file loc =>
    left
    cases embedded' with
    | closed => exact takes_of_eq hstore (by simp [store, hstore]) (fun _ => rfl) nofun
    | opened tables? =>
      by_cases hsame : .opened tables? = embedded
      · subst hsame
        exact takes_of_eq hstore (by simp [store, hstore]) (fun _ => rfl) nofun
      · have hsaved : store r (⟨.file loc, embedded⟩, d) =
            (result, ⟨.file loc, .opened tables?⟩, save loc tables? d) := by
          simp [store, hstore, hsame]
        exact takes_of_eq hstore hsaved (fun h => absurd h hsame) nofun
  | full =>
    cases embedded' with
    | closed =>
      left
      exact takes_of_eq hstore (by simp [store, hstore]) (fun _ => rfl) fun _ => .inr rfl
    | opened tables? =>
      by_cases hsame : .opened tables? = embedded
      · subst hsame
        left
        exact takes_of_eq hstore (by simp [store, hstore]) (fun _ => rfl) fun _ => .inl rfl
      · right
        exact ⟨rfl, hsame, by simp [store, hstore, hsame]⟩

theorem home_store (r : Request) (s : Database × Disk) : (store r s).2.1.home = s.1.home := by
  obtain ⟨db, d⟩ := s
  rcases store_cases r db d with htakes | ⟨-, -, hrefused⟩
  · rw [htakes.state]
  · rw [hrefused]

theorem takes_of_home (hhome : db.home ≠ .full) (r : Request) (d : Disk) : Takes r db d := by
  rcases store_cases r db d with htakes | ⟨hfull, -, -⟩
  · exact htakes
  · exact absurd hfull hhome

theorem takes_of_ok (h : (store r (db, d)).1 = .ok ()) : Takes r db d := by
  rcases store_cases r db d with htakes | ⟨-, -, hrefused⟩
  · exact htakes
  · rw [hrefused] at h
    cases h

theorem store_of_same (h : (Embedded.store r db.embedded).2 = db.embedded) (d : Disk) :
    store r (db, d) = ((Embedded.store r db.embedded).1, db, d) := by
  rcases store_cases r db d with htakes | ⟨-, hchanged, -⟩
  · have hdb : (store r (db, d)).2.1 = db := by
      rw [htakes.state, h]
    exact Prod.ext htakes.result (Prod.ext hdb (htakes.disk h))
  · exact absurd h hchanged

/-- What a database or its disk holds stays if a request fails. -/
theorem store_failed {s : Database × Disk} {e : StoreError} (h : (store r s).1 = .error e) :
    (store r s).2 = s := by
  obtain ⟨db, d⟩ := s
  rcases store_cases r db d with htakes | ⟨-, -, hrefused⟩
  · have hsame := Embedded.store_failed (htakes.result.symm.trans h)
    rw [store_of_same hsame]
  · rw [hrefused]

end Database

/-- The state of a store: closed, without tables, or with these calls merged since it was cleared. -/
inductive Ledger
  | closed
  | bare
  | graph (merges : List Merge)

namespace Ledger

def after : Ledger → Request → Ledger
  | .closed, _ => .closed
  | _, .close => .closed
  | _, .clear => .bare
  | .bare, .schema => .graph []
  | .graph merges, .call source target kind => .graph (merges ++ [⟨source, target, kind⟩])
  | ledger, _ => ledger

/-- A store is in the state of the ledger, and its tables are right for the merged calls. -/
def Fits (right : List Merge → Tables → Prop) : Ledger → Embedded → Prop
  | .closed, s => s = .closed
  | .bare, s => s = .opened none
  | .graph merges, s => ∃ t : Tables, s = .opened (some t) ∧ right merges t

variable {ledger : Ledger} {s : Embedded}

theorem Fits.mono {right right' : List Merge → Tables → Prop} (h : ledger.Fits right s)
    (himp : ∀ merges t, right merges t → right' merges t) : ledger.Fits right' s := by
  cases ledger with
  | closed => exact h
  | bare => exact h
  | graph merges =>
    obtain ⟨t, hs, ht⟩ := h
    exact ⟨t, hs, himp merges t ht⟩

theorem fits_after (h : ledger.Fits Tables.Stores s) (r : Request) :
    (ledger.after r).Fits Tables.Stores (Embedded.store r s).2 := by
  cases ledger with
  | closed =>
    cases h
    cases r <;> rfl
  | bare =>
    cases h
    cases r with
    | schema => exact ⟨.empty, rfl, Tables.stores_empty⟩
    | clear => rw [Embedded.store_clear]; rfl
    | _ => rfl
  | graph merges =>
    obtain ⟨t, rfl, hstores⟩ := h
    cases r with
    | clear => rw [Embedded.store_clear]; rfl
    | schema => exact ⟨t, rfl, hstores⟩
    | call source target kind => exact ⟨_, rfl, hstores.mergeCall ⟨source, target, kind⟩⟩
    | classes => exact ⟨_, rfl, hstores.mergeClasses⟩
    | close => rfl

/-- Rows are only lost by clearing and closing. -/
theorem keeps_store (h : ledger.Fits Tables.Stores s) {r : Request} (hr : r ≠ .clear) {t : Tables}
    (hkeeps : s.Keeps t) : (Embedded.store r s).2.Keeps t := by
  cases ledger with
  | closed =>
    rw [show s = .closed from h]
    cases r <;> trivial
  | bare =>
    rw [show s = .opened none from h] at hkeeps
    exact hkeeps.elim
  | graph merges =>
    obtain ⟨t', rfl, hstores⟩ := h
    have hwithin : t.Within t' := hkeeps
    cases r with
    | clear => exact absurd rfl hr
    | schema => exact hwithin
    | call source target kind =>
      exact hwithin.trans (Tables.within_mergeCall hstores.methods ⟨source, target, kind⟩)
    | classes => exact hwithin.trans hstores.within_mergeClasses
    | close => trivial

end Ledger

namespace Database

variable {db : Database} {d : Disk} {ledger : Ledger}

/-- A database is in step with a ledger; on a full device it never has tables. -/
structure InStep (ledger : Ledger) (db : Database) : Prop where
  fits : ledger.Fits Tables.Stores db.embedded
  full : db.home = .full → ∀ t, db.embedded ≠ .opened (some t)

/-- A request that is carried out is entered into the ledger. -/
theorem InStep.enter (h : InStep ledger db) {r : Request} (hok : (store r (db, d)).1 = .ok ()) :
    InStep (ledger.after r) (store r (db, d)).2.1 := by
  have htakes := takes_of_ok hok
  rw [htakes.state]
  constructor
  · exact Ledger.fits_after h.fits r
  · intro hfull t ht
    rcases htakes.full hfull with hsame | hclosed
    · exact h.full hfull t (hsame.symm.trans ht)
    · rw [hclosed] at ht
      cases ht

theorem InStep.store_ok_iff (h : InStep ledger db) {r : Request}
    (hr : (∃ m : Merge, r = m.request) ∨ r = .classes) :
    (store r (db, d)).1 = .ok () ↔ ∃ t, db.embedded = .opened (some t) := by
  rw [← Embedded.store_ok_iff hr]
  constructor
  · intro hok
    rw [← (takes_of_ok hok).result]
    exact hok
  · intro hok
    obtain ⟨t, ht⟩ := (Embedded.store_ok_iff hr _).mp hok
    have hhome : db.home ≠ .full := fun hfull => h.full hfull t ht
    rw [(takes_of_home hhome r d).result]
    exact hok

theorem InStep.store_clear (h : InStep ledger db) (hopen : db.embedded ≠ .closed) :
    (store .clear (db, d)).1 = .ok () := by
  obtain ⟨tables?, htables⟩ : ∃ tables?, db.embedded = .opened tables? := by
    cases hembedded : db.embedded with
    | closed => exact absurd hembedded hopen
    | opened tables? => exact ⟨tables?, rfl⟩
  have hcleared : Embedded.store .clear db.embedded = (.ok (), .opened none) := by
    rw [htables, Embedded.store_clear]
  rcases store_cases .clear db d with htakes | ⟨hfull, hchanged, -⟩
  · rw [htakes.result, hcleared]
  · -- There are no tables on a full device, so nothing would change.
    cases tables? with
    | none => exact absurd (by rw [hcleared, htables]) hchanged
    | some t => exact absurd htables (h.full hfull t)

theorem store_schema (hhome : db.home ≠ .full) (hopen : db.embedded ≠ .closed) :
    (store .schema (db, d)).1 = .ok () := by
  rw [(takes_of_home hhome .schema d).result]
  cases hembedded : db.embedded with
  | closed => exact absurd hembedded hopen
  | opened tables? => rfl

theorem store_schema_again {t : Tables} (ht : db.embedded = .opened (some t)) :
    store .schema (db, d) = (.ok (), db, d) := by
  have hsame : Embedded.store .schema db.embedded = (.ok (), db.embedded) := by
    rw [ht]
    rfl
  rw [store_of_same (congrArg Prod.snd hsame), hsame]

theorem inStep_of_clear {s : Database × Disk} (hok : (store .clear s).1 = .ok ()) :
    InStep .bare (store .clear s).2.1 := by
  obtain ⟨db, d⟩ := s
  have htakes := takes_of_ok hok
  have hbare : (store .clear (db, d)).2.1.embedded = .opened none := by
    rw [htakes.result] at hok
    rw [htakes.state]
    cases hembedded : db.embedded with
    | closed =>
      rw [hembedded] at hok
      cases hok
    | opened tables? => rw [Embedded.store_clear]
  exact ⟨hbare, fun _ t ht => by simp [hbare] at ht⟩

theorem inStep_of_prepared {s s' : Database × Disk}
    (h : Action.sequence [store .clear, store .schema] s = (.ok (), s')) :
    InStep (.graph []) s'.1 := by
  cases hclear : (store .clear s).1 with
  | error e =>
    rw [Action.sequence, Action.andThen_of_error _ hclear] at h
    cases h
  | ok _ =>
    rw [Action.sequence, Action.andThen_of_ok _ hclear] at h
    cases hschema : (store .schema (store .clear s).2).1 with
    | error e =>
      rw [Action.sequence, Action.andThen_of_error _ hschema] at h
      cases h
    | ok _ =>
      rw [Action.sequence, Action.andThen_of_ok _ hschema] at h
      cases h
      exact (inStep_of_clear hclear).enter hschema

theorem InStep.tables {merges : List Merge} (h : InStep (.graph merges) db) :
    ∃ t : Tables, db.embedded = .opened (some t) ∧ t.Stores merges :=
  h.fits

/-- Where there are tables, anything can be added, and what is merged is entered. -/
theorem InStep.add_all {merges : List Merge} (h : InStep (.graph merges) db)
    (requests : List Request) (hadditions : ∀ r ∈ requests, r.isAddition) :
    ∃ s', Action.sequence (requests.map store) (db, d) = (.ok (), s') ∧
      InStep (.graph (merges ++ requests.filterMap Request.merge?)) s'.1 := by
  induction requests generalizing merges db d with
  | nil => exact ⟨(db, d), rfl, by rwa [List.filterMap_nil, List.append_nil]⟩
  | cons r requests ih =>
    have hrest : ∀ r' ∈ requests, r'.isAddition :=
      fun r' hr' => hadditions r' (List.mem_cons_of_mem r hr')
    obtain ⟨t, ht, -⟩ := h.tables
    have hok : (store r (db, d)).1 = .ok () ∧
        (Ledger.graph merges).after r = .graph (merges ++ [r].filterMap Request.merge?) := by
      cases r with
      | call source target kind =>
        exact ⟨(h.store_ok_iff (.inl ⟨⟨source, target, kind⟩, rfl⟩)).mpr ⟨t, ht⟩, rfl⟩
      | classes =>
        refine ⟨(h.store_ok_iff (.inr rfl)).mpr ⟨t, ht⟩, ?_⟩
        exact congrArg Ledger.graph (List.append_nil merges).symm
      | _ => cases hadditions _ List.mem_cons_self
    have hentered := h.enter (d := d) hok.1
    rw [hok.2] at hentered
    obtain ⟨s', hmore, hstep⟩ := ih hentered hrest (d := (store r (db, d)).2.2)
    refine ⟨s', ?_, ?_⟩
    · rw [List.map_cons, Action.sequence, Action.andThen_of_ok _ hok.1]
      exact hmore
    · rwa [List.append_assoc, ← List.filterMap_append, List.singleton_append] at hstep

/-- Where there are tables, any calls can be merged. -/
theorem InStep.merge_all {merges : List Merge} (h : InStep (.graph merges) db) (more : List Merge) :
    ∃ s', Action.sequence (more.map (store ·.request)) (db, d) = (.ok (), s') ∧
      InStep (.graph (merges ++ more)) s'.1 := by
  have hadded := h.add_all (more.map Merge.request) (fun _ => isAddition_of_mem_requests) (d := d)
  rwa [merges_of_requests, List.map_map] at hadded

theorem InStep.derive {merges : List Merge} (h : InStep (.graph merges) db) :
    ∃ s' t, store .classes (db, d) = (.ok (), s') ∧ t.Stores merges ∧
      s'.1.embedded = .opened (some (Tables.mergeClasses t)) := by
  obtain ⟨t, ht, hstores⟩ := h.tables
  have hok : (store .classes (db, d)).1 = .ok () :=
    (h.store_ok_iff (.inr rfl)).mpr ⟨t, ht⟩
  refine ⟨(store .classes (db, d)).2, t, Prod.ext hok rfl, hstores, ?_⟩
  rw [(takes_of_ok hok).state, ht]
  rfl

end Database
end CallGraph
