import CallGraph.Proofs.Store.Classes
import Mathlib.Data.List.Perm.Basic

/-!
What is stored does not hang on the order in which it is added. Row numbers do, so tables are compared
by what their rows say; a class layer that has been derived is settled by the methods and calls.
-/
namespace CallGraph

namespace Tables

variable {t t' : Tables} {merges merges' : List Merge}

/-- Two sets of tables have the same rows, in whatever order and under whatever numbers. -/
structure SameContents (t t' : Tables) : Prop where
  methods : t.methodTuples.Perm t'.methodTuples
  calls : t.callTuples.Perm t'.callTuples
  classes : t.classTuples.Perm t'.classTuples
  dependencies : t.dependencyKeys.Perm t'.dependencyKeys

theorem mem_methodTuples {signature name className package : String} :
    [signature, name, className, package] ∈ t.methodTuples ↔
      ∃ row ∈ t.methods, row.signature = signature ∧ row.name = name ∧
        row.classKey = ⟨className, package⟩ := by
  unfold methodTuples MethodRow.classKey
  rw [List.mem_map]
  constructor
  · rintro ⟨row, hrow, htuple⟩
    simp only [List.cons.injEq, and_true] at htuple
    obtain ⟨rfl, rfl, rfl, rfl⟩ := htuple
    exact ⟨row, hrow, rfl, rfl, rfl⟩
  · rintro ⟨row, hrow, rfl, rfl, hclass⟩
    cases hclass
    exact ⟨row, hrow, rfl⟩

theorem mem_classTuples {name package : String} :
    [name, package] ∈ t.classTuples ↔ ∃ row ∈ t.classes, row.key = ⟨name, package⟩ := by
  unfold classTuples ClassRow.key
  rw [List.mem_map]
  constructor
  · rintro ⟨row, hrow, htuple⟩
    simp only [List.cons.injEq, and_true] at htuple
    obtain ⟨rfl, rfl⟩ := htuple
    exact ⟨row, hrow, rfl⟩
  · rintro ⟨row, hrow, hkey⟩
    cases hkey
    exact ⟨row, hrow, rfl⟩

theorem Stores.mem_callTuples_iff_rows (h : t.Stores merges) {source target kind : String} :
    [source, target, kind] ∈ t.callTuples ↔ ∃ call ∈ t.calls, call.kind = kind ∧
      ∃ s ∈ t.methods, s.id = call.source ∧ s.signature = source ∧
        ∃ d ∈ t.methods, d.id = call.target ∧ d.signature = target := by
  unfold callTuples
  rw [List.mem_filterMap]
  constructor
  · rintro ⟨call, hcall, htuple⟩
    simp only [Option.bind_eq_bind, Option.bind_eq_some_iff, Option.pure_def, Option.some.injEq,
      List.cons.injEq, and_true] at htuple
    obtain ⟨s, hs, d, hd, rfl, rfl, rfl⟩ := htuple
    obtain ⟨hsmem, hsid⟩ := mem_of_methodById? hs
    obtain ⟨hdmem, hdid⟩ := mem_of_methodById? hd
    exact ⟨call, hcall, rfl, s, hsmem, hsid, rfl, d, hdmem, hdid, rfl⟩
  · rintro ⟨call, hcall, rfl, s, hs, hsid, rfl, d, hd, hdid, rfl⟩
    refine ⟨call, hcall, ?_⟩
    simp only [← hsid, ← hdid, h.methodById?_of_mem hs, h.methodById?_of_mem hd, bind, Option.bind,
      pure]

theorem Stores.nodup_methodTuples (h : t.Stores merges) : t.methodTuples.Nodup := by
  refine (h.nodup_signatures.of_map _).map_on ?_
  intro row hrow row' hrow' htuple
  simp only [List.cons.injEq] at htuple
  exact List.inj_on_of_nodup_map h.nodup_signatures hrow hrow' htuple.1

theorem Stores.nodup_classTuples (h : t.Stores merges) : t.classTuples.Nodup := by
  refine (h.nodup_classKeys.of_map _).map_on ?_
  intro row hrow row' hrow' htuple
  simp only [List.cons.injEq, and_true] at htuple
  have hkey : row.key = row'.key := by
    unfold ClassRow.key
    rw [htuple.1, htuple.2]
  exact List.inj_on_of_nodup_map h.nodup_classKeys hrow hrow' hkey

/-- A class layer, by the methods and calls without their numbers. -/
theorem Stores.mem_dependencyKeys_iff_tuples (h : t.Stores merges) (hlayered : t.Layered)
    {a b : ClassKey} :
    (a, b) ∈ t.dependencyKeys ↔ ∃ source target kind, [source, target, kind] ∈ t.callTuples ∧
      (∃ name, [source, name, a.name, a.package] ∈ t.methodTuples) ∧
        ∃ name, [target, name, b.name, b.package] ∈ t.methodTuples := by
  rw [hlayered.dependencies]
  constructor
  · rintro ⟨call, hcall, s, hs, hsid, rfl, d, hd, hdid, rfl⟩
    refine ⟨s.signature, d.signature, call.kind, ?_, ⟨s.name, ?_⟩, d.name, ?_⟩
    · exact h.mem_callTuples_iff_rows.mpr ⟨call, hcall, rfl, s, hs, hsid, rfl, d, hd, hdid, rfl⟩
    · exact mem_methodTuples.mpr ⟨s, hs, rfl, rfl, rfl⟩
    · exact mem_methodTuples.mpr ⟨d, hd, rfl, rfl, rfl⟩
  · rintro ⟨source, target, kind, hcall, ⟨name, hsource⟩, name', htarget⟩
    obtain ⟨call, hcall, -, s, hs, hsid, hssig, d, hd, hdid, hdsig⟩ :=
      h.mem_callTuples_iff_rows.mp hcall
    obtain ⟨s', hs', hssig', -, ha⟩ := mem_methodTuples.mp hsource
    obtain ⟨d', hd', hdsig', -, hb⟩ := mem_methodTuples.mp htarget
    -- Signatures are unique, so the rows that the call refers to are those of the tuples.
    have hss := List.inj_on_of_nodup_map h.nodup_signatures hs' hs (hssig'.trans hssig.symm)
    have hdd := List.inj_on_of_nodup_map h.nodup_signatures hd' hd (hdsig'.trans hdsig.symm)
    subst hss hdd
    exact ⟨call, hcall, s', hs, hsid, ha, d', hd, hdid, hb⟩

theorem Layered.mem_classTuples_iff (hlayered : t.Layered) {name package : String} :
    [name, package] ∈ t.classTuples ↔
      ∃ signature simpleName, [signature, simpleName, name, package] ∈ t.methodTuples := by
  rw [mem_classTuples, hlayered.classes]
  constructor
  · rintro ⟨row, hrow, hkey⟩
    exact ⟨row.signature, row.name, mem_methodTuples.mpr ⟨row, hrow, rfl, rfl, hkey⟩⟩
  · rintro ⟨signature, simpleName, htuple⟩
    obtain ⟨row, hrow, -, -, hkey⟩ := mem_methodTuples.mp htuple
    exact ⟨row, hrow, hkey⟩

theorem exists_of_mem_classTuples {tuple : List String} (h : tuple ∈ t.classTuples) :
    ∃ name package, tuple = [name, package] := by
  obtain ⟨row, -, rfl⟩ := List.mem_map.mp h
  exact ⟨row.name, row.package, rfl⟩

theorem classTuples_subset (hlayered : t.Layered) (hlayered' : t'.Layered)
    (hmethods : ∀ tuple, tuple ∈ t.methodTuples → tuple ∈ t'.methodTuples) {tuple : List String}
    (htuple : tuple ∈ t.classTuples) : tuple ∈ t'.classTuples := by
  obtain ⟨name, package, rfl⟩ := exists_of_mem_classTuples htuple
  obtain ⟨signature, simpleName, hmethod⟩ := hlayered.mem_classTuples_iff.mp htuple
  exact hlayered'.mem_classTuples_iff.mpr ⟨signature, simpleName, hmethods _ hmethod⟩

/-- Where the class layer has been derived, the same methods and calls make the same classes and
dependencies. -/
theorem Stores.sameContents_of_layered (h : t.Stores merges) (h' : t'.Stores merges')
    (hlayered : t.Layered) (hlayered' : t'.Layered)
    (hmethods : t.methodTuples.Perm t'.methodTuples) (hcalls : t.callTuples.Perm t'.callTuples) :
    t.SameContents t' := by
  refine ⟨hmethods, hcalls, ?_, ?_⟩
  · apply (List.perm_ext_iff_of_nodup h.nodup_classTuples h'.nodup_classTuples).mpr
    intro tuple
    constructor
    · exact classTuples_subset hlayered hlayered' fun _ => hmethods.mem_iff.mp
    · exact classTuples_subset hlayered' hlayered fun _ => hmethods.mem_iff.mpr
  · apply (List.perm_ext_iff_of_nodup h.nodup_dependencyKeys h'.nodup_dependencyKeys).mpr
    rintro ⟨a, b⟩
    rw [h.mem_dependencyKeys_iff_tuples hlayered, h'.mem_dependencyKeys_iff_tuples hlayered']
    simp only [hmethods.mem_iff, hcalls.mem_iff]

/-- The same calls in any order and number make the same rows of calls. -/
theorem Stores.callTuples_perm (h : t.Stores merges) (h' : t'.Stores merges')
    (hsame : ∀ m, m ∈ merges ↔ m ∈ merges') : t.callTuples.Perm t'.callTuples := by
  apply (List.perm_ext_iff_of_nodup h.nodup_callTuples h'.nodup_callTuples).mpr
  intro tuple
  rw [h.mem_callTuples, h'.mem_callTuples]
  simp only [hsame]

end Tables

def Uniform (merges : List Merge) : Prop :=
  ∀ m ∈ merges.flatMap Merge.endpoints, ∀ m' ∈ merges.flatMap Merge.endpoints,
    m.signature = m'.signature → m.name = m'.name ∧ m.classKey = m'.classKey

/-- Where signatures determine methods, whatever method is merged is stored as it is. -/
theorem Tables.Stores.mem_methodTuples_of_uniform {t : Tables} {merges : List Merge}
    (h : t.Stores merges) (huniform : Uniform merges) {tuple : List String} :
    tuple ∈ t.methodTuples ↔ ∃ m ∈ merges.flatMap Merge.endpoints,
      tuple = [m.signature, m.name, m.className, m.package] := by
  rw [h.methodTuples, List.mem_map]
  constructor
  · rintro ⟨m, hm, rfl⟩
    have hcarried := List.mem_of_find?_eq_some (find?_of_mem_foldl_describe hm)
    exact ⟨m, hcarried, rfl⟩
  · rintro ⟨m, hm, rfl⟩
    have hsignature : m.signature ∈ (carriers merges).map Method.signature := by
      rw [signatures_carriers, List.mem_eraseDups]
      exact List.mem_map_of_mem hm
    obtain ⟨m', hm', hsame⟩ := List.mem_map.mp hsignature
    have hcarried := List.mem_of_find?_eq_some (find?_of_mem_foldl_describe hm')
    obtain ⟨hname, hclass⟩ := huniform m' hcarried m hm hsame
    obtain ⟨hclassName, hpackage⟩ := ClassKey.mk.inj hclass
    exact ⟨m', hm', by rw [hsame, hname, hclassName, hpackage]⟩

theorem mem_endpoints_of_same {merges merges' : List Merge} (hsame : ∀ m, m ∈ merges ↔ m ∈ merges')
    (method : Method) :
    method ∈ merges.flatMap Merge.endpoints ↔ method ∈ merges'.flatMap Merge.endpoints := by
  simp only [List.mem_flatMap, hsame]

theorem Uniform.of_same {merges merges' : List Merge} (h : Uniform merges)
    (hsame : ∀ m, m ∈ merges ↔ m ∈ merges') : Uniform merges' := by
  intro m hm m' hm'
  exact h m ((mem_endpoints_of_same hsame m).mpr hm) m' ((mem_endpoints_of_same hsame m').mpr hm')

theorem Tables.Stores.methodTuples_perm {t t' : Tables} {merges merges' : List Merge}
    (h : t.Stores merges) (h' : t'.Stores merges') (hsame : ∀ m, m ∈ merges ↔ m ∈ merges')
    (huniform : Uniform merges) : t.methodTuples.Perm t'.methodTuples := by
  apply (List.perm_ext_iff_of_nodup h.nodup_methodTuples h'.nodup_methodTuples).mpr
  intro tuple
  rw [h.mem_methodTuples_of_uniform huniform,
    h'.mem_methodTuples_of_uniform (huniform.of_same hsame)]
  simp only [mem_endpoints_of_same hsame]

namespace Request

/-- Without the requests for the class layer, additions are the calls that they merge. -/
theorem merges_without_classes (requests : List Request) :
    (requests.filter (· ≠ .classes)).filterMap merge? = requests.filterMap merge? := by
  induction requests with
  | nil => rfl
  | cons r requests ih =>
    by_cases hclasses : r = .classes
    · subst hclasses
      rw [List.filter_cons_of_neg (by simp), ih]
      rfl
    · rw [List.filter_cons_of_pos (by simpa using hclasses), List.filterMap_cons,
        List.filterMap_cons, ih]

end Request

namespace Database

def Reaches (s : Database × Disk) (requests : List Request) (t : Tables) : Prop :=
  ∃ s', Action.sequence (requests.map store) s = (.ok (), s') ∧
    s'.1.embedded = .opened (some t)

variable {db : Database} {d : Disk} {requests : List Request}

/-- Requests lead to one state of the tables at most. -/
theorem Reaches.unique {s : Database × Disk} {t t' : Tables} (h : Reaches s requests t)
    (h' : Reaches s requests t') : t = t' := by
  obtain ⟨s₁, hrun, htables⟩ := h
  obtain ⟨s₂, hrun', htables'⟩ := h'
  obtain rfl : s₁ = s₂ := congrArg Prod.snd (hrun.symm.trans hrun')
  simpa using htables.symm.trans htables'

theorem InStep.reaches (h : InStep (.graph []) db) (hadditions : ∀ r ∈ requests, r.isAddition) :
    ∃ t : Tables, Reaches (db, d) requests t ∧ t.Stores (requests.filterMap Request.merge?) := by
  obtain ⟨s', hrun, hstep⟩ := h.add_all requests hadditions (d := d)
  obtain ⟨t, ht, hstores⟩ := hstep.tables
  exact ⟨t, ⟨s', hrun, ht⟩, hstores⟩

theorem InStep.reaches_classes (h : InStep (.graph []) db)
    (hadditions : ∀ r ∈ requests, r.isAddition) :
    ∃ t : Tables, Reaches (db, d) (requests ++ [.classes]) t ∧
      t.Stores (requests.filterMap Request.merge?) ∧ t.Layered := by
  obtain ⟨⟨db', d'⟩, hrun, hstep⟩ := h.add_all requests hadditions (d := d)
  obtain ⟨s', t, hderived, hstores, ht⟩ := hstep.derive (d := d')
  refine ⟨t.mergeClasses, ⟨s', ?_, ht⟩, hstores.mergeClasses, hstores.layered_mergeClasses⟩
  rw [List.map_append, Action.sequence_append_of_ok _ hrun, List.map_singleton, Action.sequence,
    Action.andThen, hderived]
  rfl

/-- What is added to prepared databases is stored alike, in whatever order and however often calls are
merged, and whenever the class layer is derived before the end. -/
theorem additions_alike {s₀ s₀' s s' : Database × Disk}
    (hprepared : Action.sequence [store .clear, store .schema] s₀ = (.ok (), s))
    (hprepared' : Action.sequence [store .clear, store .schema] s₀' = (.ok (), s')) :
    (∀ merges merges' : List Merge, (∀ m, m ∈ merges ↔ m ∈ merges') → Uniform merges →
      (∃ t t', Reaches s (merges.map Merge.request) t ∧ Reaches s' (merges'.map Merge.request) t' ∧
        t.methodTuples.Perm t'.methodTuples ∧ t.callTuples.Perm t'.callTuples) ∧
      ∃ t t', Reaches s (merges.map Merge.request ++ [.classes]) t ∧
        Reaches s' (merges'.map Merge.request ++ [.classes]) t' ∧ t.SameContents t') ∧
    ∀ requests : List Request, (∀ r ∈ requests, r.isAddition) →
      ∃ t t', Reaches s (requests ++ [.classes]) t ∧
        Reaches s' (requests.filter (· ≠ .classes) ++ [.classes]) t' ∧
        t.methods = t'.methods ∧ t.SameContents t' := by
  have hstart : InStep (.graph []) s.1 := inStep_of_prepared hprepared
  have hstart' : InStep (.graph []) s'.1 := inStep_of_prepared hprepared'
  constructor
  · intro merges merges' hsame huniform
    have hadditions : ∀ r ∈ merges.map Merge.request, r.isAddition :=
      fun _ => isAddition_of_mem_requests
    have hadditions' : ∀ r ∈ merges'.map Merge.request, r.isAddition :=
      fun _ => isAddition_of_mem_requests
    constructor
    · obtain ⟨t, hreaches, hstores⟩ := hstart.reaches hadditions (d := s.2)
      obtain ⟨t', hreaches', hstores'⟩ := hstart'.reaches hadditions' (d := s'.2)
      rw [merges_of_requests] at hstores hstores'
      exact ⟨t, t', hreaches, hreaches', hstores.methodTuples_perm hstores' hsame huniform,
        hstores.callTuples_perm hstores' hsame⟩
    · obtain ⟨t, hreaches, hstores, hlayered⟩ := hstart.reaches_classes hadditions (d := s.2)
      obtain ⟨t', hreaches', hstores', hlayered'⟩ :=
        hstart'.reaches_classes hadditions' (d := s'.2)
      rw [merges_of_requests] at hstores hstores'
      exact ⟨t, t', hreaches, hreaches', hstores.sameContents_of_layered hstores' hlayered
        hlayered' (hstores.methodTuples_perm hstores' hsame huniform)
        (hstores.callTuples_perm hstores' hsame)⟩
  · intro requests hadditions
    have hcalls : ∀ r ∈ requests.filter (· ≠ .classes), r.isAddition :=
      fun r hr => hadditions r (List.mem_of_mem_filter hr)
    obtain ⟨t, hreaches, hstores, hlayered⟩ := hstart.reaches_classes hadditions (d := s.2)
    obtain ⟨t', hreaches', hstores', hlayered'⟩ := hstart'.reaches_classes hcalls (d := s'.2)
    rw [Request.merges_without_classes] at hstores'
    have hmethods : t.methods = t'.methods := hstores.methods.trans hstores'.methods.symm
    have htuples : t.methodTuples = t'.methodTuples := by
      unfold Tables.methodTuples
      rw [hmethods]
    exact ⟨t, t', hreaches, hreaches', hmethods, hstores.sameContents_of_layered hstores' hlayered
      hlayered' (htuples ▸ List.Perm.refl _) (hstores.callTuples_perm hstores' fun _ => Iff.rfl)⟩

/-- The class layer is derived twice, and between that a method comes under a signature that is taken. -/
def interleavedRequests : List Request :=
  [.call (.inOwnPackage "p.A" "f" "f()") (.inOwnPackage "q.C" "g" "g()") "STATIC", .classes,
    .call (.inOwnPackage "r.B" "h" "g()") (.inOwnPackage "p.A" "f" "f()") "VIRTUAL", .classes]

/-- What they lead to, however often the classes are derived: the first method keeps its signature. -/
def interleavedTables : Tables where
  methods := [⟨1, "f()", "f", "A", "p"⟩, ⟨2, "g()", "g", "C", "q"⟩]
  calls := [⟨1, 2, "STATIC"⟩, ⟨2, 1, "VIRTUAL"⟩]
  classes := [⟨1, "A", "p"⟩, ⟨2, "C", "q"⟩]
  dependencies := [⟨1, 2⟩, ⟨2, 1⟩]

theorem additions_alike_interleaved :
    ∃ s, Action.sequence [store .clear, store .schema] (inMemory, .fresh ["w"]) = (.ok (), s) ∧
      (∃ t', Reaches s (namesakeMerges.map Merge.request ++ [.classes]) namesakeTables ∧
        Reaches s ((namesakeMerges.reverse ++ namesakeMerges).map Merge.request ++ [.classes]) t' ∧
        namesakeTables.SameContents t' ∧
        t'.methods = [⟨1, "g()", "g", "A", "q"⟩, ⟨2, "f()", "f", "A", "p"⟩]) ∧
      Reaches s (interleavedRequests ++ [.classes]) interleavedTables ∧
      ∃ t', Reaches s (interleavedRequests.filter (· ≠ .classes) ++ [.classes]) t' ∧
        interleavedTables.methods = t'.methods ∧ interleavedTables.SameContents t' := by
  have huniform : Uniform namesakeMerges := by
    unfold Uniform
    decide +kernel
  have hsame : ∀ m, m ∈ namesakeMerges ↔ m ∈ namesakeMerges.reverse ++ namesakeMerges := by
    simp
  obtain ⟨hrearranged, hinterleaved⟩ := additions_alike prepared_inMemory prepared_inMemory
  refine ⟨_, prepared_inMemory, ?_, ?_⟩
  · obtain ⟨t, t', ht, ht', hcontents⟩ := (hrearranged _ _ hsame huniform).2
    obtain rfl : t = namesakeTables := ht.unique ⟨_, rfl, rfl⟩
    exact ⟨t', ht, ht', hcontents, ht'.unique ⟨_, rfl, rfl⟩ ▸ rfl⟩
  · obtain ⟨t, t', ht, ht', hmethods, hcontents⟩ := hinterleaved interleavedRequests (by decide)
    obtain rfl : t = interleavedTables := ht.unique ⟨_, rfl, rfl⟩
    exact ⟨ht, t', ht', hmethods, hcontents⟩

end Database
end CallGraph
