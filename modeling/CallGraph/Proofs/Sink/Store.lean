import CallGraph.Proofs.Store.Requests
import CallGraph.Sink.Store

/-! A database as a destination: the edges it is given are the calls that are merged in it. -/
namespace CallGraph

def Edge.merge (e : Edge) : Merge :=
  ⟨e.source, e.target, e.kind.label⟩

theorem endpoints_merges (edges : List Edge) :
    (edges.map Edge.merge).flatMap Merge.endpoints = edges.flatMap Edge.endpoints := by
  rw [List.flatMap_map]
  rfl

namespace StoreSink

variable {σ : Type} {store : Store σ} {s s' : σ}

theorem request_of_ok {r : Request} (h : store r s = (.ok (), s')) (closed : Bool) :
    request store r ⟨s, closed⟩ = (.ok (), ⟨s', closed⟩) := by
  simp [request, Action.within, Action.mapError, h, Except.mapError]

theorem addAll_of_ok {edges : List Edge}
    (h : Action.sequence (edges.map fun e => store e.merge.request) s = (.ok (), s'))
    (closed : Bool) :
    Action.sequence (edges.map (add store)) ⟨s, closed⟩ = (.ok (), ⟨s', closed⟩) := by
  induction edges generalizing s with
  | nil =>
    cases h
    rfl
  | cons e edges ih =>
    rw [List.map_cons, Action.sequence] at h ⊢
    rcases hstore : store e.merge.request s with ⟨result, s₁⟩
    cases result with
    | error f =>
      rw [Action.andThen, hstore] at h
      cases h
    | ok _ =>
      rw [Action.andThen, hstore] at h
      have hadd : add store e ⟨s, closed⟩ = (.ok (), ⟨s₁, closed⟩) := request_of_ok hstore closed
      rw [Action.andThen, hadd]
      exact ih h

/-- A store is opened as a destination by clearing and preparing it. -/
theorem sequence_of_prepare {notes : List Note}
    (h : prepare store s = ((.ok (), notes), s')) :
    Action.sequence [store .clear, store .schema] s = (.ok (), s') := by
  unfold prepare at h
  rcases hclear : store .clear s with ⟨_ | _, s₁⟩
  · simp [hclear] at h
  · rcases hschema : store .schema s₁ with ⟨_ | _, s₂⟩
    · simp [hclear, hschema] at h
    · simp only [hclear, hschema, Prod.mk.injEq] at h
      obtain ⟨-, rfl⟩ := h
      simp [Action.sequence, Action.andThen, Action.done, hclear, hschema]

/-- An opened database takes any edges and, at their end, holds their graph. -/
theorem database_stores {db inner : Database × Disk} {notes : List Note}
    (hopened : prepare Database.store db = ((.ok (), notes), inner)) (edges : List Edge)
    (classGraph : Bool) :
    ∃ taken finished t, Action.sequence (edges.map (sink Database.store classGraph).add) ⟨inner, false⟩ =
        (.ok (), taken) ∧
      (sink Database.store classGraph).finish taken = (.ok (), finished) ∧
      finished.inner.1.embedded = .opened (some t) ∧ t.Stores (edges.map Edge.merge) := by
  obtain ⟨db, d⟩ := inner
  have hstart : Database.InStep (.graph []) db :=
    Database.inStep_of_prepared (sequence_of_prepare hopened)
  obtain ⟨⟨db₁, d₁⟩, hmerged, hstep⟩ := hstart.merge_all (edges.map Edge.merge) (d := d)
  rw [List.map_map] at hmerged
  have htaken := addAll_of_ok hmerged false
  cases classGraph with
  | false =>
    obtain ⟨t, ht, hstores⟩ := hstep.tables
    exact ⟨_, _, t, htaken, rfl, ht, hstores⟩
  | true =>
    obtain ⟨s, t, hderived, hstores, ht⟩ := hstep.derive (d := d₁)
    exact ⟨_, _, _, htaken, request_of_ok hderived false, ht, hstores.mergeClasses⟩

end StoreSink
end CallGraph
