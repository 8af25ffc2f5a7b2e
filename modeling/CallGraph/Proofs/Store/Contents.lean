import CallGraph.Proofs.Store.Graph

/-! What the rows say without their numbers. -/
namespace CallGraph

namespace Tables

variable {t : Tables} {merges : List Merge}

theorem Stores.methodTuples (h : t.Stores merges) :
    t.methodTuples =
      (carriers merges).map fun m => [m.signature, m.name, m.className, m.package] := by
  rw [Tables.methodTuples, h.methods]
  apply List.ext_getElem <;> simp [methodRow]

/-- The calls between signatures are those that have been merged. -/
theorem Stores.mem_callTuples (h : t.Stores merges) {tuple : List String} :
    tuple ∈ t.callTuples ↔ ∃ m ∈ merges, m.tuple = tuple := by
  unfold callTuples
  rw [List.mem_filterMap]
  constructor
  · rintro ⟨call, hcall, htuple⟩
    obtain ⟨m, hm, s, d, hs, hd, rfl⟩ := (h.mem_calls call).mp hcall
    obtain ⟨hsmem, hssig⟩ := mem_of_method? hs
    obtain ⟨hdmem, hdsig⟩ := mem_of_method? hd
    simp only [h.methodById?_of_mem hsmem, h.methodById?_of_mem hdmem, hssig, hdsig, bind,
      Option.bind, pure] at htuple
    exact ⟨m, hm, Option.some.inj htuple⟩
  · rintro ⟨m, hm, rfl⟩
    obtain ⟨call, hjoins⟩ := exists_joins h.signatures hm
    refine ⟨call, (h.mem_calls call).mpr ⟨m, hm, hjoins⟩, ?_⟩
    obtain ⟨s, d, hs, hd, rfl⟩ := hjoins
    obtain ⟨hsmem, hssig⟩ := mem_of_method? hs
    obtain ⟨hdmem, hdsig⟩ := mem_of_method? hd
    simp only [h.methodById?_of_mem hsmem, h.methodById?_of_mem hdmem, hssig, hdsig, bind,
      Option.bind, pure, Merge.tuple]

theorem Stores.call_refers (h : t.Stores merges) {call : CallRow} (hcall : call ∈ t.calls) :
    (∃ row ∈ t.methods, row.id = call.source) ∧ ∃ row ∈ t.methods, row.id = call.target := by
  obtain ⟨m, -, s, d, hs, hd, rfl⟩ := (h.mem_calls call).mp hcall
  exact ⟨⟨s, (mem_of_method? hs).1, rfl⟩, ⟨d, (mem_of_method? hd).1, rfl⟩⟩

theorem Stores.dependency_refers (h : t.Stores merges) {dependency : DependencyRow}
    (hdependency : dependency ∈ t.dependencies) :
    (∃ row ∈ t.classes, row.id = dependency.source) ∧
      ∃ row ∈ t.classes, row.id = dependency.target := by
  obtain ⟨call, -, hderived⟩ := h.dependencies_derived dependency hdependency
  obtain ⟨-, -, -, -, a, ha, -, b, hb, -, rfl⟩ := mem_dependenciesOf.mp hderived
  exact ⟨⟨a, ha, rfl⟩, ⟨b, hb, rfl⟩⟩

theorem Stores.nodup_callTuples (h : t.Stores merges) : t.callTuples.Nodup := by
  refine h.calls_nodup.filterMap ?_
  intro call call' tuple htuple htuple'
  simp only [Option.mem_def, Option.bind_eq_bind, Option.bind_eq_some_iff, Option.pure_def,
    Option.some.injEq] at htuple htuple'
  obtain ⟨s, hs, d, hd, rfl⟩ := htuple
  obtain ⟨s', hs', d', hd', hsame⟩ := htuple'
  obtain ⟨hsmem, hsid⟩ := mem_of_methodById? hs
  obtain ⟨hdmem, hdid⟩ := mem_of_methodById? hd
  obtain ⟨hsmem', hsid'⟩ := mem_of_methodById? hs'
  obtain ⟨hdmem', hdid'⟩ := mem_of_methodById? hd'
  injection hsame with hsource hsame
  injection hsame with htarget hsame
  injection hsame with hkind
  have hss := List.inj_on_of_nodup_map h.nodup_signatures hsmem' hsmem hsource
  have hdd := List.inj_on_of_nodup_map h.nodup_signatures hdmem' hdmem htarget
  subst hss hdd
  cases call
  cases call'
  simp_all

end Tables

/-- The tables as a graph: what they say of the methods and calls that have been merged, and that
every number in them refers to a row. -/
structure Tables.Represents (merges : List Merge) (t : Tables) : Prop where
  /-- One row for each signature, in the order of first occurrence. -/
  signatures : t.methods.map (·.signature) =
    ((merges.flatMap Merge.endpoints).map Method.signature).eraseDups
  /-- What is stored for a signature is what the first method had that carried it. -/
  properties : ∀ signature, t.properties? signature =
    ((merges.flatMap Merge.endpoints).find? (·.signature == signature)).map fun m =>
      (m.name, m.className, m.package)
  ids : (t.methods.map (·.id)).Nodup
  mem_calls : ∀ tuple, tuple ∈ t.callTuples ↔ ∃ m ∈ merges, m.tuple = tuple
  calls : t.callTuples.Nodup
  calls_refer : ∀ call ∈ t.calls,
    (∃ row ∈ t.methods, row.id = call.source) ∧ ∃ row ∈ t.methods, row.id = call.target
  classes : (t.classes.map (·.key)).Nodup
  classIds : (t.classes.map (·.id)).Nodup
  dependencies : t.dependencies.Nodup
  dependencies_refer : ∀ dependency ∈ t.dependencies,
    (∃ row ∈ t.classes, row.id = dependency.source) ∧
      ∃ row ∈ t.classes, row.id = dependency.target

namespace Tables.Stores

variable {t : Tables} {merges : List Merge}

theorem properties?_eq (h : t.Stores merges) (signature : String) :
    t.properties? signature =
      ((merges.flatMap Merge.endpoints).find? (·.signature == signature)).map fun m =>
        (m.name, m.className, m.package) := by
  rw [← find?_foldl_describe, properties?, method?, h.methods]
  exact find?_methodRows _ _ 0

theorem represents (h : t.Stores merges) : t.Represents merges where
  signatures := h.signatures.trans (signatures_carriers merges)
  properties := h.properties?_eq
  ids := h.nodup_ids
  mem_calls := fun _ => h.mem_callTuples
  calls := h.nodup_callTuples
  calls_refer := fun _ => h.call_refers
  classes := h.nodup_classKeys
  classIds := h.nodup_classIds
  dependencies := h.dependencies_nodup
  dependencies_refer := fun _ => h.dependency_refers

end Tables.Stores

end CallGraph
