import CallGraph.Proofs.Store.Rows

/-!
The graph that the tables hold. Every statement only adds rows at the ends of the tables; the invariant
`Stores` ties the rows to the calls that have been merged, and each change of rows keeps it.
-/
namespace CallGraph

structure Merge where
  source : Method
  target : Method
  kind : String

namespace Merge

def endpoints (m : Merge) : List Method :=
  [m.source, m.target]

def tuple (m : Merge) : List String :=
  [m.source.signature, m.target.signature, m.kind]

variable {merges : List Merge} {m : Merge}

theorem source_mem_endpoints (hm : m ∈ merges) : m.source ∈ merges.flatMap endpoints :=
  List.mem_flatMap.mpr ⟨m, hm, by simp [endpoints]⟩

theorem target_mem_endpoints (hm : m ∈ merges) : m.target ∈ merges.flatMap endpoints :=
  List.mem_flatMap.mpr ⟨m, hm, by simp [endpoints]⟩

end Merge

/-- The methods that merged calls bring along, the first under each signature. -/
def carriers (merges : List Merge) : List Method :=
  (merges.flatMap Merge.endpoints).foldl describe []

theorem carriers_concat (merges : List Merge) (m : Merge) :
    carriers (merges ++ [m]) = describe (describe (carriers merges) m.source) m.target := by
  simp [carriers, List.foldl_append, Merge.endpoints]

theorem signatures_carriers (merges : List Merge) :
    (carriers merges).map Method.signature =
      ((merges.flatMap Merge.endpoints).map Method.signature).eraseDups :=
  signatures_foldl_describe _

theorem mem_signatures_carriers {merges : List Merge} {signature : String} :
    signature ∈ (carriers merges).map Method.signature ↔
      ∃ m ∈ merges, signature = m.source.signature ∨ signature = m.target.signature := by
  rw [signatures_carriers, List.mem_eraseDups, List.mem_map]
  constructor
  · rintro ⟨method, hmethod, rfl⟩
    obtain ⟨m, hm, hend⟩ := List.mem_flatMap.mp hmethod
    have hends : method = m.source ∨ method = m.target := by simpa [Merge.endpoints] using hend
    rcases hends with rfl | rfl
    · exact ⟨m, hm, .inl rfl⟩
    · exact ⟨m, hm, .inr rfl⟩
  · rintro ⟨m, hm, rfl | rfl⟩
    · exact ⟨m.source, Merge.source_mem_endpoints hm, rfl⟩
    · exact ⟨m.target, Merge.target_mem_endpoints hm, rfl⟩

namespace Tables

variable {t t' t'' : Tables} {merges : List Merge} {m : Merge}

structure Within (t t' : Tables) : Prop where
  methods : t.methods <+: t'.methods
  calls : t.calls <+: t'.calls
  classes : t.classes <+: t'.classes
  dependencies : t.dependencies <+: t'.dependencies

theorem Within.refl (t : Tables) : t.Within t :=
  ⟨List.prefix_refl _, List.prefix_refl _, List.prefix_refl _, List.prefix_refl _⟩

theorem Within.trans (h : t.Within t') (h' : t'.Within t'') : t.Within t'' :=
  ⟨h.methods.trans h'.methods, h.calls.trans h'.calls, h.classes.trans h'.classes,
    h.dependencies.trans h'.dependencies⟩

theorem Within.method? (h : t.Within t') {signature : String} {row : MethodRow}
    (hrow : t.method? signature = some row) : t'.method? signature = some row :=
  h.methods.find?_eq_some hrow

theorem Within.methodById? (h : t.Within t') {id : ℕ} {row : MethodRow}
    (hrow : t.methodById? id = some row) : t'.methodById? id = some row :=
  h.methods.find?_eq_some hrow

/-- The row of a call that is merged: it refers to the rows of both signatures. -/
def Joins (t : Tables) (m : Merge) (call : CallRow) : Prop :=
  ∃ s d, t.method? m.source.signature = some s ∧ t.method? m.target.signature = some d ∧
    call = ⟨s.id, d.id, m.kind⟩

theorem Joins.mono (h : t.Within t') {call : CallRow} (hjoins : t.Joins m call) :
    t'.Joins m call := by
  obtain ⟨s, d, hs, hd, rfl⟩ := hjoins
  exact ⟨s, d, h.method? hs, h.method? hd, rfl⟩

theorem Joins.unique {call call' : CallRow} (h : t.Joins m call) (h' : t.Joins m call') :
    call = call' := by
  obtain ⟨s, d, hs, hd, rfl⟩ := h
  obtain ⟨s', d', hs', hd', rfl⟩ := h'
  cases hs.symm.trans hs'
  cases hd.symm.trans hd'
  rfl

theorem mem_dependenciesOf {call : CallRow} {dependency : DependencyRow} :
    dependency ∈ t.dependenciesOf call ↔
      ∃ s d, t.methodById? call.source = some s ∧ t.methodById? call.target = some d ∧
        ∃ a ∈ t.classes, a.key = s.classKey ∧ ∃ b ∈ t.classes, b.key = d.classKey ∧
          dependency = ⟨a.id, b.id⟩ := by
  unfold dependenciesOf
  constructor
  · intro h
    split at h
    · rename_i s d hs hd
      simp only [List.mem_flatMap, List.mem_map, List.mem_filter, beq_iff_eq] at h
      obtain ⟨a, ⟨ha, hakey⟩, b, ⟨hb, hbkey⟩, rfl⟩ := h
      exact ⟨s, d, hs, hd, a, ha, hakey, b, hb, hbkey, rfl⟩
    · cases h
  · rintro ⟨s, d, hs, hd, a, ha, hakey, b, hb, hbkey, rfl⟩
    simp only [hs, hd, List.mem_flatMap, List.mem_map, List.mem_filter, beq_iff_eq]
    exact ⟨a, ⟨ha, hakey⟩, b, ⟨hb, hbkey⟩, rfl⟩

theorem dependenciesOf_mono (h : t.Within t') {call : CallRow} {dependency : DependencyRow}
    (hmem : dependency ∈ t.dependenciesOf call) : dependency ∈ t'.dependenciesOf call := by
  obtain ⟨s, d, hs, hd, a, ha, hakey, b, hb, hbkey, rfl⟩ := mem_dependenciesOf.mp hmem
  exact mem_dependenciesOf.mpr ⟨s, d, h.methodById? hs, h.methodById? hd, a,
    h.classes.subset ha, hakey, b, h.classes.subset hb, hbkey, rfl⟩

/-- The tables hold the merged calls, and of the class layer nothing that these do not give rise to. -/
structure Stores (merges : List Merge) (t : Tables) : Prop where
  methods : t.methods = (carriers merges).mapIdx methodRow
  calls_nodup : t.calls.Nodup
  mem_calls : ∀ call, call ∈ t.calls ↔ ∃ m ∈ merges, t.Joins m call
  classes : ∃ keys : List ClassKey, keys.Nodup ∧ t.classes = keys.mapIdx classRow
  classes_stored : ∀ row ∈ t.classes, ∃ m ∈ t.methods, m.classKey = row.key
  dependencies_nodup : t.dependencies.Nodup
  dependencies_derived : ∀ dependency ∈ t.dependencies,
    ∃ call ∈ t.calls, dependency ∈ t.dependenciesOf call

theorem stores_empty : Stores [] empty :=
  ⟨rfl, List.nodup_nil, by simp [empty], ⟨[], List.nodup_nil, rfl⟩, by simp [empty],
    List.nodup_nil, by simp [empty]⟩

namespace Stores

theorem signatures (h : t.Stores merges) :
    t.methods.map (·.signature) = (carriers merges).map Method.signature := by
  rw [h.methods, signatures_methodRows]

theorem nodup_signatures (h : t.Stores merges) : (t.methods.map (·.signature)).Nodup := by
  rw [h.signatures]
  exact CallGraph.nodup_signatures _

theorem nodup_ids (h : t.Stores merges) : (t.methods.map (·.id)).Nodup := by
  rw [h.methods]
  apply nodup_numbers
  intro _ _
  rfl

theorem nodup_classKeys (h : t.Stores merges) : (t.classes.map (·.key)).Nodup := by
  obtain ⟨keys, hkeys, hclasses⟩ := h.classes
  rw [hclasses, keys_classRows]
  exact hkeys

theorem nodup_classIds (h : t.Stores merges) : (t.classes.map (·.id)).Nodup := by
  obtain ⟨keys, -, hclasses⟩ := h.classes
  rw [hclasses]
  apply nodup_numbers
  intro _ _
  rfl

theorem method?_of_mem (h : t.Stores merges) {row : MethodRow} (hrow : row ∈ t.methods) :
    t.method? row.signature = some row :=
  find?_key_of_mem h.nodup_signatures hrow

theorem methodById?_of_mem (h : t.Stores merges) {row : MethodRow} (hrow : row ∈ t.methods) :
    t.methodById? row.id = some row :=
  find?_key_of_mem h.nodup_ids hrow

theorem classById?_of_mem (h : t.Stores merges) {row : ClassRow} (hrow : row ∈ t.classes) :
    t.classById? row.id = some row :=
  find?_key_of_mem h.nodup_classIds hrow

end Stores

theorem mem_of_method? {signature : String} {row : MethodRow} (h : t.method? signature = some row) :
    row ∈ t.methods ∧ row.signature = signature :=
  ⟨List.mem_of_find?_eq_some h, by simpa using List.find?_some h⟩

theorem mem_of_methodById? {id : ℕ} {row : MethodRow} (h : t.methodById? id = some row) :
    row ∈ t.methods ∧ row.id = id :=
  ⟨List.mem_of_find?_eq_some h, by simpa using List.find?_some h⟩

theorem mem_of_classById? {id : ℕ} {row : ClassRow} (h : t.classById? id = some row) :
    row ∈ t.classes ∧ row.id = id :=
  ⟨List.mem_of_find?_eq_some h, by simpa using List.find?_some h⟩

theorem method?_of_signature {signature : String} (h : signature ∈ t.methods.map (·.signature)) :
    ∃ row, t.method? signature = some row := by
  obtain ⟨row, hrow, rfl⟩ := List.mem_map.mp h
  exact Option.isSome_iff_exists.mp (List.find?_isSome.mpr ⟨row, hrow, by simp⟩)

/-- Where both signatures have rows, a merged call has one row. -/
theorem exists_joins
    (hmethods : t.methods.map (·.signature) = (carriers merges).map Method.signature)
    (hm : m ∈ merges) : ∃ call, t.Joins m call := by
  have hsource : m.source.signature ∈ t.methods.map (·.signature) := by
    rw [hmethods]
    exact mem_signatures_carriers.mpr ⟨m, hm, .inl rfl⟩
  have htarget : m.target.signature ∈ t.methods.map (·.signature) := by
    rw [hmethods]
    exact mem_signatures_carriers.mpr ⟨m, hm, .inr rfl⟩
  obtain ⟨s, hs⟩ := method?_of_signature hsource
  obtain ⟨d, hd⟩ := method?_of_signature htarget
  exact ⟨_, s, d, hs, hd, rfl⟩

/-! What is known of the rows stays known when more rows are added. -/

namespace Stores

theorem joins_iff (h : t.Stores merges) (hwithin : t.Within t') (hm : m ∈ merges)
    {call : CallRow} : t'.Joins m call ↔ t.Joins m call := by
  constructor
  · intro hjoins
    obtain ⟨call', hcall'⟩ := exists_joins h.signatures hm
    rw [hjoins.unique (hcall'.mono hwithin)]
    exact hcall'
  · exact Joins.mono hwithin

theorem classes_stored_within (h : t.Stores merges) (hwithin : t.Within t') {row : ClassRow}
    (hrow : row ∈ t.classes) : ∃ m ∈ t'.methods, m.classKey = row.key := by
  obtain ⟨m, hm, hkey⟩ := h.classes_stored row hrow
  exact ⟨m, hwithin.methods.subset hm, hkey⟩

theorem dependencies_derived_within (h : t.Stores merges) (hwithin : t.Within t')
    {dependency : DependencyRow} (hdependency : dependency ∈ t.dependencies) :
    ∃ call ∈ t'.calls, dependency ∈ t'.dependenciesOf call := by
  obtain ⟨call, hcall, hderived⟩ := h.dependencies_derived dependency hdependency
  exact ⟨call, hwithin.calls.subset hcall, dependenciesOf_mono hwithin hderived⟩

end Stores

def mergeCall (t : Tables) (m : Merge) : Tables :=
  ((t.insertMethod m.source).insertMethod m.target).insertCall m.source.signature m.target.signature
    m.kind

theorem mergeCall_eq (h : t.methods = (carriers merges).mapIdx methodRow) (m : Merge) :
    ∃ call, t.mergeCall m = { t with
        methods := (carriers (merges ++ [m])).mapIdx methodRow
        calls := addRow t.calls call } ∧
      (t.mergeCall m).Joins m call := by
  have hinserted : (t.insertMethod m.source).insertMethod m.target =
      { t with methods := (carriers (merges ++ [m])).mapIdx methodRow } := by
    rw [insertMethod_eq h, insertMethod_eq rfl, carriers_concat]
  obtain ⟨call, s, d, hs, hd, rfl⟩ := exists_joins
    (t := { t with methods := (carriers (merges ++ [m])).mapIdx methodRow })
    (signatures_methodRows _) (List.mem_append_right merges (List.mem_singleton_self m))
  refine ⟨_, ?_, s, d, ?_, ?_, rfl⟩ <;> simp only [mergeCall, hinserted, insertCall, hs, hd]
  · exact hs
  · exact hd

theorem prefix_describe (methods : List Method) (m : Method) : methods <+: describe methods m := by
  unfold describe
  split_ifs
  · exact List.prefix_refl methods
  · exact List.prefix_append methods [m]

theorem within_mergeCall (h : t.methods = (carriers merges).mapIdx methodRow) (m : Merge) :
    t.Within (t.mergeCall m) := by
  obtain ⟨call, heq, -⟩ := mergeCall_eq h m
  rw [heq]
  refine ⟨?_, prefix_addRow t.calls call, List.prefix_refl _, List.prefix_refl _⟩
  rw [h, carriers_concat]
  exact prefix_mapIdx ((prefix_describe _ _).trans (prefix_describe _ _))

theorem Stores.mergeCall (h : t.Stores merges) (m : Merge) :
    (t.mergeCall m).Stores (merges ++ [m]) := by
  obtain ⟨call, heq, hjoins⟩ := mergeCall_eq h.methods m
  have hwithin := within_mergeCall h.methods m
  have hcalls : (t.mergeCall m).calls = addRow t.calls call := by rw [heq]
  have hclasses : (t.mergeCall m).classes = t.classes := by rw [heq]
  have hdependencies : (t.mergeCall m).dependencies = t.dependencies := by rw [heq]
  refine ⟨by rw [heq], ?_, ?_, ?_, ?_, ?_, ?_⟩
  · rw [hcalls]
    exact nodup_addRow h.calls_nodup call
  · -- Methods are only added after those that are there, so the old calls keep their rows.
    intro other
    rw [hcalls, mem_addRow, h.mem_calls]
    constructor
    · rintro (⟨m', hm', hother⟩ | rfl)
      · exact ⟨m', List.mem_append_left _ hm', hother.mono hwithin⟩
      · exact ⟨m, List.mem_append_right _ (List.mem_singleton_self m), hjoins⟩
    · rintro ⟨m', hm', hother⟩
      rcases List.mem_append.mp hm' with hm' | hm'
      · exact .inl ⟨m', hm', (h.joins_iff hwithin hm').mp hother⟩
      · rw [List.mem_singleton] at hm'
        subst hm'
        exact .inr (hother.unique hjoins)
  · rw [hclasses]
    exact h.classes
  · rw [hclasses]
    intro row hrow
    exact h.classes_stored_within hwithin hrow
  · rw [hdependencies]
    exact h.dependencies_nodup
  · rw [hdependencies]
    intro dependency hdependency
    exact h.dependencies_derived_within hwithin hdependency

theorem deriveClasses_eq {keys : List ClassKey} (h : t.classes = keys.mapIdx classRow) :
    t.deriveClasses = { t with classes :=
      (((t.methods.filter t.isEndpoint).map (·.classKey)).foldl addRow keys).mapIdx classRow } :=
  foldl_insertClass_eq h _

theorem Stores.within_deriveClasses (h : t.Stores merges) : t.Within t.deriveClasses := by
  obtain ⟨keys, -, hclasses⟩ := h.classes
  rw [deriveClasses_eq hclasses]
  refine ⟨List.prefix_refl _, List.prefix_refl _, ?_, List.prefix_refl _⟩
  rw [hclasses]
  exact prefix_mapIdx (prefix_foldl_addRow keys _)

theorem Stores.deriveClasses (h : t.Stores merges) : t.deriveClasses.Stores merges := by
  have hwithin := h.within_deriveClasses
  obtain ⟨keys, hkeys, hclasses⟩ := h.classes
  have heq := deriveClasses_eq hclasses
  have hmethods : t.deriveClasses.methods = t.methods := by rw [heq]
  have hcalls : t.deriveClasses.calls = t.calls := by rw [heq]
  refine ⟨hmethods.trans h.methods, hcalls ▸ h.calls_nodup, ?_, ?_, ?_, ?_, ?_⟩
  · intro call
    rw [hcalls, h.mem_calls]
    constructor
    · rintro ⟨m, hm, hjoins⟩
      exact ⟨m, hm, hjoins.mono hwithin⟩
    · rintro ⟨m, hm, hjoins⟩
      exact ⟨m, hm, (h.joins_iff hwithin hm).mp hjoins⟩
  · exact ⟨_, nodup_foldl_addRow hkeys _, by rw [heq]⟩
  · intro row hrow
    rw [heq] at hrow
    rw [hmethods]
    rcases mem_foldl_addRow.mp (key_mem_of_mem_classRows hrow) with hold | hnew
    · rw [← keys_classRows keys, ← hclasses] at hold
      obtain ⟨old, hold, hsame⟩ := List.mem_map.mp hold
      rw [← hsame]
      exact h.classes_stored old hold
    · obtain ⟨method, hmethod, hclass⟩ := List.mem_map.mp hnew
      exact ⟨method, (List.mem_filter.mp hmethod).1, hclass⟩
  · rw [heq]
    exact h.dependencies_nodup
  · intro dependency hdependency
    rw [heq] at hdependency
    exact h.dependencies_derived_within hwithin hdependency

theorem within_deriveDependencies (t : Tables) : t.Within t.deriveDependencies :=
  ⟨List.prefix_refl _, List.prefix_refl _, List.prefix_refl _, prefix_foldl_addRow _ _⟩

theorem mem_deriveDependencies {dependency : DependencyRow} :
    dependency ∈ t.deriveDependencies.dependencies ↔
      dependency ∈ t.dependencies ∨ ∃ call ∈ t.calls, dependency ∈ t.dependenciesOf call := by
  rw [deriveDependencies, mem_foldl_addRow, List.mem_flatMap]

theorem Stores.deriveDependencies (h : t.Stores merges) : t.deriveDependencies.Stores merges := by
  refine ⟨h.methods, h.calls_nodup, h.mem_calls, h.classes, h.classes_stored,
    nodup_foldl_addRow h.dependencies_nodup _, fun dependency hdependency => ?_⟩
  rcases mem_deriveDependencies.mp hdependency with hold | hnew
  · exact h.dependencies_derived dependency hold
  · exact hnew

def mergeClasses (t : Tables) : Tables :=
  t.deriveClasses.deriveDependencies

theorem Stores.mergeClasses (h : t.Stores merges) : t.mergeClasses.Stores merges :=
  h.deriveClasses.deriveDependencies

theorem Stores.within_mergeClasses (h : t.Stores merges) : t.Within t.mergeClasses :=
  h.within_deriveClasses.trans (within_deriveDependencies _)

end Tables
end CallGraph
