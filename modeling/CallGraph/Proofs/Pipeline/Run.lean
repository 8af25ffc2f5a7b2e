import CallGraph.Proofs.Pipeline.Feed

/-! The exact course of a run: its events, its calls on the destination, and its result. -/
namespace CallGraph.Pipeline

variable {σ : Type} (admits : Edge → Bool) (sink : Sink σ)

theorem feed_cons_of_failure (t : Tally) (s : σ) {item : Item} (items : List Item) {e : ExportError}
    (h : failure? admits sink s item = some e) :
    feed admits sink t s (item :: items) =
      ⟨.error e, attempt admits item, fed sink s (admitted admits [item])⟩ := by
  cases item with
  | error f =>
    cases h
    rfl
  | ok edge =>
    by_cases ha : admits edge
    · simp only [failure?, ha, if_true] at h
      rcases hadd : sink.add edge s with ⟨result, s'⟩
      rw [hadd] at h
      cases result with
      | ok _ => cases h
      | error f =>
        cases h
        simp [feed, attempt, fed, admitted, Except.toOption, Sink.replay, Sink.perform, ha, hadd]
    · simp [failure?, ha] at h

theorem feed_cons (t : Tally) (s : σ) {item : Item} (items : List Item)
    (h : failure? admits sink s item = none) :
    feed admits sink t s (item :: items) =
      (feed admits sink ⟨t.tracker.advance.2, t.admitted + (admitted admits [item]).length⟩
        (fed sink s (admitted admits [item])) items).after
        (attempt admits item ++ milestonesAt t.tracker 0) := by
  cases item with
  | error f => cases h
  | ok edge =>
    by_cases ha : admits edge
    · simp only [failure?, ha, if_true] at h
      rcases hadd : sink.add edge s with ⟨result, s'⟩
      rw [hadd] at h
      cases result with
      | error f => cases h
      | ok _ =>
        simp [feed, attempt, fed, admitted, Except.toOption, Sink.replay, Sink.perform, ha, hadd,
          Tally.count, milestonesAt, Tracker.after]
    · simp [feed, attempt, fed, admitted, Except.toOption, Sink.replay, ha, Tally.count,
        milestonesAt, Tracker.after]

/-- Feeding a stream hands on the admitted edges up to the first failure and tells what it does. -/
theorem feed_eq (t : Tally) (s : σ) (items : List Item) :
    feed admits sink t s items =
      { result := match firstFailure? admits sink s items with
          | some f => .error f.2
          | none => .ok ⟨t.tracker.after items.length,
              t.admitted + (admitted admits items).length⟩
        trace := settledEvents admits t.tracker (settled admits sink s items) ++
          ((pulled admits sink s items).drop (settled admits sink s items).length).flatMap
            (attempt admits)
        state := fed sink s (admitted admits (pulled admits sink s items)) } := by
  induction items generalizing t s with
  | nil => rfl
  | cons item items ih =>
    cases h : failure? admits sink s item with
    | some e =>
      rw [feed_cons_of_failure admits sink t s items h, firstFailure?_cons, h,
        settled_cons_of_failure admits sink s items h, pulled_cons_of_failure admits sink s items h]
      simp [settledEvents]
    | none =>
      rw [feed_cons admits sink t s items h, ih, firstFailure?_cons, h,
        settled_cons admits sink s items h, pulled_cons admits sink s items h]
      simp only [Run.after, Run.mk.injEq]
      refine ⟨?_, ?_, ?_⟩
      · cases firstFailure? admits sink (fed sink s (admitted admits [item])) items with
        | some f => rfl
        | none =>
          simp only [Option.map_none, admitted_cons admits item items, List.length_append,
            List.length_cons, Tracker.after_succ, Nat.add_assoc]
      · simp [settledEvents, List.mapIdx_cons, milestonesAt, Tracker.after_succ]
      · rw [admitted_cons admits item (pulled ..), fed_append]

def fullSummary (source : Source) : Summary :=
  ⟨source.edgeCount, source.items.length, (admitted admits source.items).length⟩

/-- What fails in a run, in the order of time. -/
def failures (source : Source) (s : σ) : List ExportError :=
  let s' := fed sink s (admitted admits (pulled admits sink s source.items))
  match firstFailure? admits sink s source.items with
  | some f => f.2 :: (causeOf? (sink.close s').1).toList
  | none =>
    (causeOf? (sink.finish s').1).toList ++ (causeOf? (sink.close (sink.finish s').2).1).toList

def closingNotes (source : Source) (s : σ) : List Note :=
  match failures admits sink source s with
  | [] => [doneNote (fullSummary admits source)]
  | [_] => []
  | _ :: f :: _ => [closeNote f]

def finishing (source : Source) (s : σ) : List Event :=
  match firstFailure? admits sink s source.items with
  | some _ => []
  | none => .finish :: sink.finishNotes.map .note

def timeline (source : Source) (s : σ) : List Event :=
  (openingNotes source).map .note ++
    settledEvents admits (.start source.edgeCount) (settled admits sink s source.items) ++
    ((pulled admits sink s source.items).drop (settled admits sink s source.items).length).flatMap
      (attempt admits) ++
    finishing admits sink source s ++ .close :: (closingNotes admits sink source s).map .note

theorem run_eq (source : Source) (s : σ) :
    run source admits sink s =
      { result := match failures admits sink source s with
          | [] => .ok (fullSummary admits source)
          | e :: _ => .error e
        trace := timeline admits sink source s
        state := (sink.close (if firstFailure? admits sink s source.items = none
          then (sink.finish (fed sink s (admitted admits (pulled admits sink s source.items)))).2
          else fed sink s (admitted admits (pulled admits sink s source.items)))).2 } := by
  have hc := Tracker.after_counts (.start source.edgeCount) source.items.length
  unfold run timeline closingNotes finishing failures
  simp only [feed_eq]
  generalize fed sink s (admitted admits (pulled admits sink s source.items)) = s'
  cases firstFailure? admits sink s source.items with
  | some f =>
    rcases hclose : sink.close s' with ⟨closed, _⟩
    cases closed <;> simp [Run.after, close, hclose, causeOf?, Tally.start]
  | none =>
    rcases hfinish : sink.finish s' with ⟨finished, s''⟩
    rcases hclose : sink.close s'' with ⟨closed, _⟩
    have hs : Tally.summary ⟨(Tracker.start source.edgeCount).after source.items.length,
        (Tally.start source.edgeCount).admitted + (admitted admits source.items).length⟩ =
        fullSummary admits source := by
      simp only [Tally.summary, hc.1, hc.2]
      simp [fullSummary, Tracker.start, Tally.start]
    cases finished <;> cases closed <;>
      simp_all [Run.after, close, finish, causeOf?, Except.map, Tally.start]

theorem result_of_firstFailure {source : Source} {s : σ} {i : ℕ} {f : ExportError}
    (h : firstFailure? admits sink s source.items = some (i, f)) :
    (run source admits sink s).result = .error f := by
  simp only [run_eq, failures, h]

theorem result_of_close {source : Source} {s : σ} {f : ExportError}
    (h : firstFailure? admits sink s source.items = none) (hfinish : ∀ s, sink.finish s = (.ok (), s))
    (hclose : (sink.close (fed sink s (admitted admits (pulled admits sink s source.items)))).1 =
      .error f) :
    (run source admits sink s).result = .error f := by
  simp only [run_eq, failures, h, hfinish, hclose, causeOf?]
  rfl

end CallGraph.Pipeline
