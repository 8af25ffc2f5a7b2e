import CallGraph.Proofs.Store.Requests
import CallGraph.Proofs.Text.ByteOrder

/-! The class layer is exact: it says what the stored calls say about classes, and no more. -/
namespace CallGraph

namespace Tables

variable {t : Tables} {merges : List Merge}

/-- Methods are stored together with a call that they are an endpoint of. -/
theorem Stores.isEndpoint_of_mem (h : t.Stores merges) {row : MethodRow} (hrow : row ∈ t.methods) :
    t.isEndpoint row := by
  have hcarried : row.signature ∈ (carriers merges).map Method.signature := by
    rw [← h.signatures]
    exact List.mem_map_of_mem hrow
  obtain ⟨m, hm, hend⟩ := mem_signatures_carriers.mp hcarried
  obtain ⟨call, hjoins⟩ := exists_joins h.signatures hm
  have hcall : call ∈ t.calls := (h.mem_calls call).mpr ⟨m, hm, hjoins⟩
  obtain ⟨s, d, hs, hd, rfl⟩ := hjoins
  have hfound := h.method?_of_mem hrow
  apply List.any_eq_true.mpr
  refine ⟨_, hcall, ?_⟩
  rcases hend with hend | hend
  · rw [hend, hs] at hfound
    cases hfound
    simp
  · rw [hend, hd] at hfound
    cases hfound
    simp

theorem Stores.keys_deriveClasses (h : t.Stores merges) (key : ClassKey) :
    (∃ row ∈ t.deriveClasses.classes, row.key = key) ↔ ∃ m ∈ t.methods, m.classKey = key := by
  constructor
  · rintro ⟨row, hrow, rfl⟩
    obtain ⟨m, hm, hkey⟩ := h.deriveClasses.classes_stored row hrow
    have hmethods : t.deriveClasses.methods = t.methods :=
      h.deriveClasses.methods.trans h.methods.symm
    exact ⟨m, hmethods ▸ hm, hkey⟩
  · rintro ⟨m, hm, rfl⟩
    obtain ⟨keys, -, hclasses⟩ := h.classes
    have hadded : m.classKey ∈
        ((t.methods.filter t.isEndpoint).map (·.classKey)).foldl addRow keys := by
      apply mem_foldl_addRow.mpr
      exact .inr (List.mem_map_of_mem (List.mem_filter.mpr ⟨hm, h.isEndpoint_of_mem hm⟩))
    rw [deriveClasses_eq hclasses]
    rw [← keys_classRows (((t.methods.filter t.isEndpoint).map (·.classKey)).foldl addRow keys)]
      at hadded
    exact List.mem_map.mp hadded

theorem Stores.mem_dependencyKeys (h : t.Stores merges) {a b : ClassKey} :
    (a, b) ∈ t.dependencyKeys ↔ ∃ source ∈ t.classes, source.key = a ∧
      ∃ target ∈ t.classes, target.key = b ∧ ⟨source.id, target.id⟩ ∈ t.dependencies := by
  unfold dependencyKeys
  rw [List.mem_filterMap]
  constructor
  · rintro ⟨row, hrow, hkeys⟩
    simp only [Option.bind_eq_bind, Option.bind_eq_some_iff, Option.pure_def,
      Option.some.injEq, Prod.mk.injEq] at hkeys
    obtain ⟨source, hsource, target, htarget, hakey, hbkey⟩ := hkeys
    obtain ⟨hsmem, hsid⟩ := mem_of_classById? hsource
    obtain ⟨htmem, htid⟩ := mem_of_classById? htarget
    refine ⟨source, hsmem, hakey, target, htmem, hbkey, ?_⟩
    rw [hsid, htid]
    exact hrow
  · rintro ⟨source, hsource, rfl, target, htarget, rfl, hrow⟩
    refine ⟨_, hrow, ?_⟩
    simp only [h.classById?_of_mem hsource, h.classById?_of_mem htarget, bind, Option.bind, pure]

theorem Stores.nodup_dependencyKeys (h : t.Stores merges) : t.dependencyKeys.Nodup := by
  refine h.dependencies_nodup.filterMap ?_
  intro row row' keys hkeys hkeys'
  simp only [Option.mem_def, Option.bind_eq_bind, Option.bind_eq_some_iff, Option.pure_def,
    Option.some.injEq] at hkeys hkeys'
  obtain ⟨source, hsource, target, htarget, rfl⟩ := hkeys
  obtain ⟨source', hsource', target', htarget', hsame⟩ := hkeys'
  obtain ⟨hsmem, hsid⟩ := mem_of_classById? hsource
  obtain ⟨htmem, htid⟩ := mem_of_classById? htarget
  obtain ⟨hsmem', hsid'⟩ := mem_of_classById? hsource'
  obtain ⟨htmem', htid'⟩ := mem_of_classById? htarget'
  obtain ⟨hskey, htkey⟩ := Prod.mk.inj hsame
  have hs := List.inj_on_of_nodup_map h.nodup_classKeys hsmem' hsmem hskey
  have ht := List.inj_on_of_nodup_map h.nodup_classKeys htmem' htmem htkey
  subst hs ht
  cases row
  cases row'
  simp_all

/-- The class layer of the stored calls: the classes of all stored methods, and a dependency wherever
a stored call leads from one class to another. -/
structure Layered (t : Tables) : Prop where
  classes : ∀ key, (∃ row ∈ t.classes, row.key = key) ↔ ∃ m ∈ t.methods, m.classKey = key
  dependencies : ∀ a b, (a, b) ∈ t.dependencyKeys ↔ ∃ call ∈ t.calls,
    ∃ s ∈ t.methods, s.id = call.source ∧ s.classKey = a ∧
      ∃ d ∈ t.methods, d.id = call.target ∧ d.classKey = b

/-- Whatever class layer there was, deriving it makes it exact. -/
theorem Stores.layered_mergeClasses (h : t.Stores merges) : t.mergeClasses.Layered := by
  have hclasses := h.keys_deriveClasses
  have hderived := h.deriveClasses
  have hmethods : t.deriveClasses.methods = t.methods := hderived.methods.trans h.methods.symm
  have hmerged := h.mergeClasses
  constructor
  · intro key
    have hkey := hclasses key
    rw [← hmethods] at hkey
    exact hkey
  · intro a b
    rw [hmerged.mem_dependencyKeys]
    constructor
    · rintro ⟨source, hsource, rfl, target, htarget, rfl, hrow⟩
      obtain ⟨call, hcall, hof⟩ := hmerged.dependencies_derived _ hrow
      obtain ⟨s, d, hs, hd, a, ha, hakey, b, hb, hbkey, hsame⟩ := mem_dependenciesOf.mp hof
      -- Numbers are unique, so the row refers to the classes that its call gave rise to.
      obtain ⟨hsid, htid⟩ := DependencyRow.mk.inj hsame
      have hsource' := List.inj_on_of_nodup_map hmerged.nodup_classIds hsource ha hsid
      have htarget' := List.inj_on_of_nodup_map hmerged.nodup_classIds htarget hb htid
      subst hsource' htarget'
      obtain ⟨hsmem, hsid⟩ := mem_of_methodById? hs
      obtain ⟨hdmem, hdid⟩ := mem_of_methodById? hd
      exact ⟨call, hcall, s, hsmem, hsid, hakey.symm, d, hdmem, hdid, hbkey.symm⟩
    · rintro ⟨call, hcall, s, hs, hsid, rfl, d, hd, hdid, rfl⟩
      obtain ⟨source, hsource, hskey⟩ := (hclasses s.classKey).mpr ⟨s, hmethods ▸ hs, rfl⟩
      obtain ⟨target, htarget, htkey⟩ := (hclasses d.classKey).mpr ⟨d, hmethods ▸ hd, rfl⟩
      refine ⟨source, hsource, hskey, target, htarget, htkey, ?_⟩
      apply mem_deriveDependencies.mpr
      refine .inr ⟨call, hcall, mem_dependenciesOf.mpr ?_⟩
      refine ⟨s, d, ?_, ?_, source, hsource, hskey, target, htarget, htkey, rfl⟩
      · rw [← hsid]
        exact hderived.methodById?_of_mem hs
      · rw [← hdid]
        exact hderived.methodById?_of_mem hd

end Tables

def Consistent (merges : List Merge) : Prop :=
  ∀ m ∈ merges.flatMap Merge.endpoints, ∀ m' ∈ merges.flatMap Merge.endpoints,
    m.signature = m'.signature → m.classKey = m'.classKey

namespace Tables

variable {t : Tables} {merges : List Merge}

theorem Stores.exists_carrier (h : t.Stores merges) {row : MethodRow} (hrow : row ∈ t.methods) :
    ∃ m ∈ merges.flatMap Merge.endpoints, m.signature = row.signature ∧
      m.classKey = row.classKey := by
  rw [h.methods] at hrow
  obtain ⟨i, hi, rfl⟩ := List.mem_iff_getElem.mp hrow
  rw [List.length_mapIdx] at hi
  have hcarried := find?_of_mem_foldl_describe (List.getElem_mem hi)
  rw [List.getElem_mapIdx]
  exact ⟨(carriers merges)[i], List.mem_of_find?_eq_some hcarried, rfl, rfl⟩

theorem Stores.classKey_of_method? (h : t.Stores merges) (hconsistent : Consistent merges)
    {m : Method} (hm : m ∈ merges.flatMap Merge.endpoints) {row : MethodRow}
    (hrow : t.method? m.signature = some row) : row.classKey = m.classKey := by
  obtain ⟨hmem, hsignature⟩ := mem_of_method? hrow
  obtain ⟨m', hm', hsignature', hclass⟩ := h.exists_carrier hmem
  rw [← hclass]
  exact hconsistent m' hm' m hm (hsignature'.trans hsignature)

/-- Where signatures determine classes, the dependencies are those of the merged calls. -/
theorem Stores.dependencies_of_consistent (h : t.Stores merges) (hlayered : t.Layered)
    (hconsistent : Consistent merges) (a b : ClassKey) :
    (a, b) ∈ t.dependencyKeys ↔ ∃ m ∈ merges, (m.source.classKey, m.target.classKey) = (a, b) := by
  rw [hlayered.dependencies]
  constructor
  · rintro ⟨call, hcall, s, hs, hsid, rfl, d, hd, hdid, rfl⟩
    obtain ⟨m, hm, s', d', hs', hd', rfl⟩ := (h.mem_calls call).mp hcall
    have hss := List.inj_on_of_nodup_map h.nodup_ids hs (mem_of_method? hs').1 hsid
    have hdd := List.inj_on_of_nodup_map h.nodup_ids hd (mem_of_method? hd').1 hdid
    subst hss hdd
    refine ⟨m, hm, ?_⟩
    rw [h.classKey_of_method? hconsistent (Merge.source_mem_endpoints hm) hs',
      h.classKey_of_method? hconsistent (Merge.target_mem_endpoints hm) hd']
  · rintro ⟨m, hm, hkeys⟩
    obtain ⟨rfl, rfl⟩ := Prod.mk.inj hkeys
    obtain ⟨call, hjoins⟩ := exists_joins h.signatures hm
    have hcall : call ∈ t.calls := (h.mem_calls call).mpr ⟨m, hm, hjoins⟩
    obtain ⟨s, d, hs, hd, rfl⟩ := hjoins
    have hskey := h.classKey_of_method? hconsistent (Merge.source_mem_endpoints hm) hs
    have hdkey := h.classKey_of_method? hconsistent (Merge.target_mem_endpoints hm) hd
    exact ⟨_, hcall, s, (mem_of_method? hs).1, rfl, hskey, d, (mem_of_method? hd).1, rfl, hdkey⟩

/-! ### The order of the dependencies -/

theorem dependencyColumns_injective : Function.Injective dependencyColumns := by
  rintro ⟨⟨_, _⟩, ⟨_, _⟩⟩ ⟨⟨_, _⟩, ⟨_, _⟩⟩ h
  simpa [dependencyColumns, and_assoc] using h

theorem tupleLe_iff {x y : List String} : tupleLe x y ↔ x ≤ y := by
  simp [tupleLe]

/-- Listed dependencies ascend by the bytes of their columns. -/
theorem Stores.ascending_classDependencies (h : t.Stores merges) :
    t.classDependencies.Pairwise fun x y =>
      (dependencyColumns x).map bytesOf < (dependencyColumns y).map bytesOf := by
  have hascend : t.classDependencies.Pairwise fun x y => dependencyColumns x < dependencyColumns y :=
    pairwise_lt_mergeSort (fun _ _ => tupleLe_iff) dependencyColumns_injective h.nodup_dependencyKeys
  exact hascend.imp map_bytesOf_lt

end Tables

namespace Database

structure Lists (listed : List (ClassKey × ClassKey)) (t : Tables) : Prop where
  mem : ∀ keys, keys ∈ listed ↔ keys ∈ t.dependencyKeys
  nodup : listed.Nodup
  ascending : listed.Pairwise fun x y =>
    (Tables.dependencyColumns x).map bytesOf < (Tables.dependencyColumns y).map bytesOf

/-- The class layer that is derived from any calls on a prepared database is exact. -/
theorem classes_exact {s₀ s : Database × Disk}
    (hprepared : Action.sequence [store .clear, store .schema] s₀ = (.ok (), s))
    (merges : List Merge) :
    ∃ s' t listed,
      Action.sequence (merges.map (store ·.request) ++ [store .classes]) s = (.ok (), s') ∧
        s'.1.embedded = .opened (some t) ∧ t.Represents merges ∧ t.Layered ∧
        (Consistent merges → ∀ a b, (a, b) ∈ t.dependencyKeys ↔
          ∃ m ∈ merges, (m.source.classKey, m.target.classKey) = (a, b)) ∧
        s'.1.embedded.classDependencies = .ok listed ∧ Lists listed t := by
  obtain ⟨db, d⟩ := s
  have hstart : InStep (.graph []) db := inStep_of_prepared hprepared
  obtain ⟨⟨db₁, d₁⟩, hmerged, hstep⟩ := hstart.merge_all merges (d := d)
  obtain ⟨s', t, hderived, hstores, hembedded⟩ := hstep.derive (d := d₁)
  have hlayered := hstores.layered_mergeClasses
  have hafter := hstores.mergeClasses
  refine ⟨s', t.mergeClasses, t.mergeClasses.classDependencies, ?_, hembedded, hafter.represents,
    hlayered, hafter.dependencies_of_consistent hlayered, ?_, ?_⟩
  · rw [Action.sequence_append_of_ok _ hmerged, Action.sequence, Action.andThen, hderived]
    rfl
  · rw [hembedded]
    rfl
  · constructor
    · intro keys
      exact List.mem_mergeSort
    · exact (List.mergeSort_perm _ _).nodup_iff.mpr hafter.nodup_dependencyKeys
    · exact hafter.ascending_classDependencies

theorem prepared_inMemory :
    Action.sequence [store .clear, store .schema] (inMemory, .fresh ["w"]) =
      (.ok (), ⟨.memory, .opened (some .empty)⟩, .fresh ["w"]) := by
  rfl

def namesakeMerges : List Merge :=
  [⟨.inOwnPackage "p.A" "f" "f()", .inOwnPackage "q.A" "g" "g()", "STATIC"⟩,
    ⟨.inOwnPackage "q.A" "g" "g()", .inOwnPackage "q.A" "g" "g()", "STATIC"⟩]

/-- What the calls lead to: two classes that only their packages tell apart. -/
def namesakeTables : Tables where
  methods := [⟨1, "f()", "f", "A", "p"⟩, ⟨2, "g()", "g", "A", "q"⟩]
  calls := [⟨1, 2, "STATIC"⟩, ⟨2, 2, "STATIC"⟩]
  classes := [⟨1, "A", "p"⟩, ⟨2, "A", "q"⟩]
  dependencies := [⟨1, 2⟩, ⟨2, 2⟩]

theorem classes_exact_namesakes :
    ∃ s, Action.sequence [store .clear, store .schema] (inMemory, .fresh ["w"]) = (.ok (), s) ∧
      ∃ s', Action.sequence (namesakeMerges.map (store ·.request) ++ [store .classes]) s =
          (.ok (), s') ∧
        s'.1.embedded = .opened (some namesakeTables) ∧ namesakeTables.Layered ∧
        (∀ a b, (a, b) ∈ namesakeTables.dependencyKeys ↔
          ∃ m ∈ namesakeMerges, (m.source.classKey, m.target.classKey) = (a, b)) ∧
        s'.1.embedded.classDependencies =
          .ok [(⟨"A", "p"⟩, ⟨"A", "q"⟩), (⟨"A", "q"⟩, ⟨"A", "q"⟩)] := by
  have hconsistent : Consistent namesakeMerges := by
    unfold Consistent
    decide +kernel
  have hreached : Action.sequence (namesakeMerges.map (store ·.request) ++ [store .classes])
      (⟨.memory, .opened (some .empty)⟩, .fresh ["w"]) =
        (.ok (), ⟨.memory, .opened (some namesakeTables)⟩, .fresh ["w"]) := by
    rfl
  have hordered : Tables.tupleLe ["A", "p", "A", "q"] ["A", "q", "A", "q"] := by
    decide +kernel
  have hlisted : namesakeTables.classDependencies =
      [(⟨"A", "p"⟩, ⟨"A", "q"⟩), (⟨"A", "q"⟩, ⟨"A", "q"⟩)] := by
    have hkeys : namesakeTables.dependencyKeys =
        [(⟨"A", "p"⟩, ⟨"A", "q"⟩), (⟨"A", "q"⟩, ⟨"A", "q"⟩)] := by
      decide
    simp [Tables.classDependencies, hkeys, List.mergeSort, Tables.dependencyColumns, hordered]
  obtain ⟨s', t, listed, hrun, htables, -, hlayered, hdependencies, -⟩ :=
    classes_exact prepared_inMemory namesakeMerges
  obtain rfl : (⟨.memory, .opened (some namesakeTables)⟩, .fresh ["w"]) = s' :=
    congrArg Prod.snd (hreached.symm.trans hrun)
  obtain rfl : namesakeTables = t := by simpa using htables
  exact ⟨_, prepared_inMemory, _, hrun, htables, hlayered, hdependencies hconsistent, congrArg _ hlisted⟩

end Database
end CallGraph
