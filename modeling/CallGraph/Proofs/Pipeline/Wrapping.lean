import CallGraph.Proofs.Pipeline.Run
import CallGraph.Sink.Guarded

/-! Runs into destinations around others, and what a destination keeps while it is fed. -/
namespace CallGraph

namespace Sink

variable {σ τ : Type}

/-- A destination around another: it rejects edges and the last work before they get there, or hands
them on with what comes of them; closing gets there in any case. -/
structure Wraps (outer : Sink τ) (inner : Sink σ) (get : τ → σ) : Prop where
  add : ∀ e t, (∃ f, (outer.add e t).1 = .error f) ∧ get (outer.add e t).2 = get t ∨
    (outer.add e t).1 = (inner.add e (get t)).1 ∧
      get (outer.add e t).2 = (inner.add e (get t)).2
  finish : ∀ t, (∃ f, (outer.finish t).1 = .error f) ∧ get (outer.finish t).2 = get t ∨
    (outer.finish t).1 = (inner.finish (get t)).1 ∧
      get (outer.finish t).2 = (inner.finish (get t)).2
  close : ∀ t, get (outer.close t).2 = (inner.close (get t)).2

structure Follows (outer : Sink τ) (inner : Sink σ) (get : τ → σ) : Prop where
  add : ∀ e t, (outer.add e t).1 = (inner.add e (get t)).1 ∧
    get (outer.add e t).2 = (inner.add e (get t)).2
  finish : ∀ t, (outer.finish t).1 = (inner.finish (get t)).1 ∧
    get (outer.finish t).2 = (inner.finish (get t)).2
  close : ∀ t, (outer.close t).1 = (inner.close (get t)).1 ∧
    get (outer.close t).2 = (inner.close (get t)).2
  finishNotes : outer.finishNotes = inner.finishNotes

theorem wraps_guarded (g : Guard) (rejection : String → ExportError) (sink : Sink σ) :
    (sink.guarded g rejection).Wraps sink Prod.fst := by
  refine ⟨fun e (s, passed) => ?_, fun (s, passed) => ?_, fun (s, passed) => rfl⟩
  · by_cases hreject : g.adds? = some passed
    · exact .inl ⟨⟨rejection "add", by simp [guarded, reject, hreject]⟩,
        by simp [guarded, reject, hreject]⟩
    · exact .inr (by simp [guarded, hreject])
  · by_cases hreject : g.finish
    · exact .inl ⟨⟨rejection "finish", by simp [guarded, reject, hreject]⟩,
        by simp [guarded, reject, hreject]⟩
    · exact .inr (by simp [guarded, hreject])

theorem follows_within (sink : Sink σ) {get : τ → σ} {set : τ → σ → τ}
    (hget : ∀ t s, get (set t s) = s) : (sink.within get set).Follows sink get :=
  ⟨fun _ _ => ⟨rfl, hget _ _⟩, fun _ => ⟨rfl, hget _ _⟩, fun _ => ⟨rfl, hget _ _⟩, rfl⟩

end Sink

namespace Pipeline

variable {σ τ : Type} (admits : Edge → Bool)

structure Run.Matches {α : Type} (get : τ → σ) (outer : Run τ α) (inner : Run σ α) : Prop where
  result : outer.result = inner.result
  trace : outer.trace = inner.trace
  state : get outer.state = inner.state

theorem Run.Matches.after {α : Type} {get : τ → σ} {outer : Run τ α} {inner : Run σ α}
    (h : outer.Matches get inner) (events : List Event) :
    (outer.after events).Matches get (inner.after events) :=
  ⟨h.result, congrArg (events ++ ·) h.trace, h.state⟩

variable {outer : Sink τ} {inner : Sink σ} {get : τ → σ}

theorem feed_follows (h : outer.Follows inner get) (tally : Tally) (t : τ) (items : List Item) :
    (feed admits outer tally t items).Matches get (feed admits inner tally (get t) items) := by
  induction items generalizing tally t with
  | nil => exact ⟨rfl, rfl, rfl⟩
  | cons item items ih =>
    cases item with
    | error e => exact ⟨rfl, rfl, rfl⟩
    | ok e =>
      by_cases ha : admits e
      · obtain ⟨hresult, hstate⟩ := h.add e t
        simp only [feed, if_pos ha]
        rcases houter : outer.add e t with ⟨result, t'⟩
        rcases hinner : inner.add e (get t) with ⟨result', s'⟩
        rw [houter, hinner] at hresult hstate
        dsimp only at hresult hstate
        subst hresult hstate
        cases result with
        | error f => exact ⟨rfl, rfl, rfl⟩
        | ok _ => exact (ih _ t').after _
      · simp only [feed, if_neg ha]
        exact (ih _ t).after _

theorem close_follows (h : outer.Follows inner get) {ro : Run τ Summary} {ri : Run σ Summary}
    (hmatch : ro.Matches get ri) : (close outer ro).Matches get (close inner ri) := by
  obtain ⟨hresult, hstate⟩ := h.close ro.state
  rw [hmatch.state] at hresult hstate
  unfold close
  rcases houter : outer.close ro.state with ⟨closed, t⟩
  rcases hinner : inner.close ri.state with ⟨closed', s⟩
  rw [houter, hinner] at hresult hstate
  dsimp only at hresult hstate
  subst hresult hstate
  rw [hmatch.result, hmatch.trace]
  dsimp only
  split <;> exact ⟨rfl, rfl, rfl⟩

/-- A destination that hands everything on makes no difference to a run. -/
theorem run_follows (h : outer.Follows inner get) (source : Source) (t : τ) :
    (run source admits outer t).Matches get (run source admits inner (get t)) := by
  have hfeed := feed_follows admits h (.start source.edgeCount) t source.items
  refine (close_follows h ?_).after _
  rw [hfeed.result]
  cases (feed admits inner (.start source.edgeCount) (get t) source.items).result with
  | error e => exact ⟨rfl, hfeed.trace, hfeed.state⟩
  | ok tally =>
    obtain ⟨hresult, hstate⟩ := h.finish (feed admits outer (.start source.edgeCount) t source.items).state
    rw [hfeed.state] at hresult hstate
    dsimp only
    rw [hfeed.trace]
    refine Run.Matches.after ⟨?_, ?_, hstate⟩ _
    · simp only [finish, hresult]
    · simp only [finish, h.finishNotes]

section Keeping

variable (sink : Sink σ) (holds : List Edge → σ → Prop)
  (broken : List Edge → Edge → ExportError → σ → Prop)

/-- What a destination has kept when a stream has been fed to it: the admitted edges before the first
failure, and something of an edge that fails itself. -/
inductive Kept (edges : List Edge) (s : σ) (items : List Item) : Prop
  | whole (hpulled : admitted admits (pulled admits sink s items) =
      admitted admits (settled admits sink s items))
    (hfailure : ∀ i f, firstFailure? admits sink s items = some (i, f) → .error f ∈ items)
    (hholds : holds (edges ++ admitted admits (settled admits sink s items))
      (fed sink s (admitted admits (pulled admits sink s items))))
  | part (i : ℕ) (e : Edge) (f : ExportError)
    (hpulled : admitted admits (pulled admits sink s items) =
      admitted admits (settled admits sink s items) ++ [e])
    (hfailure : firstFailure? admits sink s items = some (i, f))
    (hbroken : broken (edges ++ admitted admits (settled admits sink s items)) e f
      (fed sink s (admitted admits (pulled admits sink s items))))

def Keeps : Prop :=
  ∀ edges e s, holds edges s →
    (sink.add e s).1 = .ok () ∧ holds (edges ++ [e]) (sink.add e s).2 ∨
    ∃ f, (sink.add e s).1 = .error f ∧ broken edges e f (sink.add e s).2

variable {sink holds broken} {edges : List Edge} {s : σ} {item : Item}

theorem kept_of_failure (hkeeps : Keeps sink holds broken) (h : holds edges s) {f : ExportError}
    (hf : failure? admits sink s item = some f) (items : List Item) :
    Kept admits sink holds broken edges s (item :: items) := by
  have hpulled := pulled_cons_of_failure admits sink s items hf
  have hsettled := settled_cons_of_failure admits sink s items hf
  have hfirst : firstFailure? admits sink s (item :: items) = some (0, f) := by
    rw [firstFailure?_cons, hf]
  cases item with
  | error f' =>
    cases hf
    refine .whole (by rw [hpulled, hsettled]; rfl) ?_ ?_
    · intro i f'' hi
      rw [hfirst] at hi
      cases hi
      exact List.mem_cons_self ..
    · rw [hpulled, hsettled, admitted_nil, List.append_nil]
      exact h
  | ok e =>
    have ha : admits e := by
      by_contra ha
      simp [failure?, ha] at hf
    have hedge : admitted admits [Except.ok e] = [e] := by
      simp [admitted, Except.toOption, ha]
    rcases hkeeps edges e s h with ⟨hok, -⟩ | ⟨f', herror, hbroken⟩
    · simp [failure?, ha, hok, causeOf?] at hf
    · simp only [failure?, ha, if_true, herror, causeOf?, Option.some.injEq] at hf
      subst hf
      refine .part 0 e f' (by rw [hpulled, hsettled, hedge]; rfl) hfirst ?_
      rw [hpulled, hsettled, hedge, admitted_nil, List.append_nil]
      exact hbroken

theorem holds_of_settled (hkeeps : Keeps sink holds broken) (h : holds edges s)
    (hf : failure? admits sink s item = none) :
    holds (edges ++ admitted admits [item]) (fed sink s (admitted admits [item])) := by
  cases item with
  | error f => cases hf
  | ok e =>
    by_cases ha : admits e
    · rcases hkeeps edges e s h with ⟨-, hholds⟩ | ⟨f, herror, -⟩
      · simpa [admitted, Except.toOption, ha, fed, Sink.replay, Sink.perform] using hholds
      · simp [failure?, ha, herror, causeOf?] at hf
    · simpa [admitted, Except.toOption, ha, fed, Sink.replay] using h

theorem Kept.cons (hf : failure? admits sink s item = none) {items : List Item}
    (h : Kept admits sink holds broken (edges ++ admitted admits [item])
      (fed sink s (admitted admits [item])) items) :
    Kept admits sink holds broken edges s (item :: items) := by
  have hpulled := (congrArg (admitted admits) (pulled_cons admits sink s items hf)).trans
    (admitted_cons admits item _)
  have hsettled := (congrArg (admitted admits) (settled_cons admits sink s items hf)).trans
    (admitted_cons admits item _)
  have hfirst := firstFailure?_cons admits sink s item items
  rw [hf] at hfirst
  rcases h with ⟨hsame, hfailure, hholds⟩ | ⟨i, e, f, hmore, hfailure, hbroken⟩
  · refine .whole ?_ ?_ ?_
    · rw [hpulled, hsettled, hsame]
    · intro i f hi
      rw [hfirst] at hi
      obtain ⟨⟨i', f'⟩, hi', heq⟩ := Option.map_eq_some_iff.mp hi
      cases heq
      exact List.mem_cons_of_mem _ (hfailure i' f' hi')
    · rw [hpulled, hsettled, fed_append, ← List.append_assoc]
      exact hholds
  · refine .part (i + 1) e f ?_ ?_ ?_
    · rw [hpulled, hsettled, hmore, List.append_assoc]
    · rw [hfirst, hfailure, Option.map_some]
    · rw [hpulled, hsettled, fed_append, ← List.append_assoc]
      exact hbroken

/-- A destination that keeps each edge has kept a stream as far as it was settled. -/
theorem kept_of_keeps (hkeeps : Keeps sink holds broken) (h : holds edges s) (items : List Item) :
    Kept admits sink holds broken edges s items := by
  induction items generalizing edges s with
  | nil =>
    refine .whole rfl (by simp [firstFailure?]) ?_
    have hnone : admitted admits (settled admits sink s []) = [] := rfl
    rw [hnone, List.append_nil]
    exact h
  | cons item items ih =>
    cases hf : failure? admits sink s item with
    | some f => exact kept_of_failure admits hkeeps h hf items
    | none => exact .cons admits hf (ih (holds_of_settled admits hkeeps h hf))

theorem failure?_ok_eq_none (hkeeps : Keeps sink holds fun _ _ _ _ => False) (h : holds edges s)
    (e : Edge) : failure? admits sink s (.ok e) = none := by
  rcases hkeeps edges e s h with ⟨hok, -⟩ | ⟨f, -, hfalse⟩
  · simp [failure?, hok, causeOf?]
  · exact hfalse.elim

/-- A stream into a destination that refuses nothing is settled up to its first failed item. -/
theorem settled_eq_takeWhile (hkeeps : Keeps sink holds fun _ _ _ _ => False) (h : holds edges s)
    (items : List Item) : settled admits sink s items = items.takeWhile Except.isOk := by
  induction items generalizing edges s with
  | nil => rfl
  | cons item items ih =>
    cases item with
    | error f => exact settled_cons_of_failure admits sink s items rfl
    | ok e =>
      have hf := failure?_ok_eq_none admits hkeeps h e
      rw [settled_cons admits sink s items hf, ih (holds_of_settled admits hkeeps h hf)]
      rfl

/-- A stream into a destination that refuses nothing fails as its first failed item does. -/
theorem firstFailure?_eq_findSome? (hkeeps : Keeps sink holds fun _ _ _ _ => False) (h : holds edges s)
    (items : List Item) :
    (firstFailure? admits sink s items).map (·.2) = items.findSome? causeOf? := by
  induction items generalizing edges s with
  | nil => rfl
  | cons item items ih =>
    cases item with
    | error f =>
      rw [firstFailure?_cons]
      rfl
    | ok e =>
      have hf := failure?_ok_eq_none admits hkeeps h e
      have hrest := ih (holds_of_settled admits hkeeps h hf)
      rw [firstFailure?_cons, hf, List.findSome?_cons]
      simp [causeOf?, ← hrest, Function.comp_def]

end Keeping

/-- A run into a destination that takes everything fails only where its stream does. -/
theorem run_accepting (source : Source) : (run source admits Sink.accepting ()).result =
    match source.items.findSome? causeOf? with
    | some e => .error e
    | none => .ok (fullSummary admits source) := by
  have hkeeps : Keeps Sink.accepting (fun _ _ => True) fun _ _ _ _ => False :=
    fun _ _ _ _ => .inl ⟨rfl, trivial⟩
  have hcause : (firstFailure? admits Sink.accepting () source.items).map (·.2) =
      source.items.findSome? causeOf? :=
    @firstFailure?_eq_findSome? _ admits _ _ [] _ hkeeps trivial source.items
  rw [← hcause, run_eq, failures]
  cases firstFailure? admits Sink.accepting () source.items <;> rfl

end Pipeline
end CallGraph
