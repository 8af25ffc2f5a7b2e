import CallGraph.Proofs.Pipeline.Run
import CallGraph.Proofs.Split

/-! A run as its observers see it: the calls on the destination, the milestones, and the result. -/
namespace CallGraph

def Event.isCall : Event → Bool
  | .add _ | .finish | .close => true
  | _ => false

theorem Sink.replay_calls {σ : Type} (sink : Sink σ) (s : σ) (events : List Event) :
    sink.replay s (events.filter Event.isCall) = sink.replay s events := by
  induction events generalizing s with
  | nil => rfl
  | cons event events ih => cases event <;> exact ih _

namespace Pipeline

variable {σ : Type} (admits : Edge → Bool) (sink : Sink σ)

theorem settledEvents_cons (t : Tracker) (item : Item) (items : List Item) :
    settledEvents admits t (item :: items) =
      attempt admits item ++ (milestonesAt t 0 ++ settledEvents admits t.advance.2 items) := by
  simp [settledEvents, List.mapIdx_cons, milestonesAt, Tracker.after_succ]

theorem calls_attempt (item : Item) :
    (attempt admits item).filter Event.isCall = (admitted admits [item]).map .add := by
  cases item with
  | error e => rfl
  | ok e => by_cases ha : admits e <;> simp [attempt, admitted, Except.toOption, Event.isCall, ha]

theorem calls_attempts (items : List Item) :
    (items.flatMap (attempt admits)).filter Event.isCall = (admitted admits items).map .add := by
  induction items with
  | nil => rfl
  | cons item items ih =>
    rw [List.flatMap_cons, List.filter_append, calls_attempt, ih, admitted_cons admits item items,
      List.map_append]

theorem calls_settledEvents (t : Tracker) (items : List Item) :
    (settledEvents admits t items).filter Event.isCall = (admitted admits items).map .add := by
  induction items generalizing t with
  | nil => rfl
  | cons item items ih =>
    have hm : (milestonesAt t 0).filter Event.isCall = [] := by
      simp [milestonesAt, List.filter_eq_nil_iff, Event.isCall]
    rw [settledEvents_cons, List.filter_append, List.filter_append, hm, calls_attempt, ih,
      admitted_cons admits item items, List.map_append]
    rfl

theorem settled_append_drop (s : σ) (items : List Item) :
    settled admits sink s items ++
      (pulled admits sink s items).drop (settled admits sink s items).length =
        pulled admits sink s items := by
  induction items generalizing s with
  | nil => rfl
  | cons item items ih =>
    cases h : failure? admits sink s item with
    | some e =>
      rw [settled_cons_of_failure admits sink s items h, pulled_cons_of_failure admits sink s items h]
      rfl
    | none =>
      rw [settled_cons admits sink s items h, pulled_cons admits sink s items h]
      simpa using ih _

/-- A settled item is an edge that the stream yields at that position, and it does not fail. -/
theorem edge_of_settled {s : σ} {items : List Item} {i : ℕ} {item : Item}
    (h : (settled admits sink s items)[i]? = some item) :
    ∃ e, item = .ok e ∧ items[i]? = some item ∧ failureAt? admits sink s items i = none := by
  induction items generalizing s i with
  | nil => cases h
  | cons first items ih =>
    cases hf : failure? admits sink s first with
    | some e =>
      rw [settled_cons_of_failure admits sink s items hf] at h
      cases h
    | none =>
      rw [settled_cons admits sink s items hf] at h
      cases i with
      | zero =>
        cases h
        cases item with
        | error e => cases hf
        | ok e => exact ⟨e, rfl, rfl, hf⟩
      | succ i =>
        rw [failureAt?_succ]
        exact ih h

/-- A milestone among settled items stands right behind the item that reaches it. -/
theorem milestone_of_settledEvents {t : Tracker} {items : List Item} {before after : List Event}
    {m : Milestone} (h : settledEvents admits t items = before ++ .milestone m :: after) :
    ∃ i item, items[i]? = some item ∧ m.processed = t.processed + i + 1 ∧
      before.count .pull = i + 1 ∧ attempt admits item <:+ before := by
  induction items generalizing t before with
  | nil => exact absurd h (by simp [settledEvents])
  | cons item items ih =>
    have hm : Event.milestone m ∉ attempt admits item := by
      cases item with
      | error e => simp [attempt]
      | ok e => by_cases ha : admits e <;> simp [attempt, ha]
    have hp : (attempt admits item).count .pull = 1 := by
      cases item with
      | error e => rfl
      | ok e => by_cases ha : admits e <;> simp [attempt, ha]
    rw [settledEvents_cons] at h
    obtain ⟨between, rfl, hrest⟩ := split_after_prefix hm h
    -- The milestone is the one of this item, or it belongs to a later one.
    have later : ∀ {between'}, settledEvents admits t.advance.2 items =
        between' ++ .milestone m :: after → between'.count .pull = between.count .pull →
        between' <:+ between → ∃ i item', (item :: items)[i]? = some item' ∧
          m.processed = t.processed + i + 1 ∧
          (attempt admits item ++ between).count .pull = i + 1 ∧
          attempt admits item' <:+ attempt admits item ++ between := by
      intro between' hs hc hsuffix
      obtain ⟨i, item', hi, hproc, hcount, hend⟩ := ih hs
      refine ⟨i + 1, item', hi, ?_, ?_, ?_⟩
      · rw [hproc, Tracker.advance_processed]
        omega
      · rw [List.count_append, hp, ← hc, hcount]
        omega
      · exact (hend.trans hsuffix).trans (List.suffix_append ..)
    cases hadv : t.advance.1 with
    | none =>
      simp only [milestonesAt, Tracker.after, Function.iterate_zero, id, hadv, Option.toList_none,
        List.map_nil, List.nil_append] at hrest
      exact later hrest rfl (List.suffix_refl _)
    | some m' =>
      simp only [milestonesAt, Tracker.after, Function.iterate_zero, id, hadv, Option.toList_some,
        List.map_cons, List.map_nil, List.singleton_append] at hrest
      cases between with
      | nil =>
        obtain ⟨hmm, -⟩ := List.cons.inj hrest
        cases hmm
        refine ⟨0, item, rfl, Tracker.processed_of_advance hadv, ?_, ?_⟩
        · simpa using hp
        · simp
      | cons event between =>
        obtain ⟨rfl, htail⟩ := List.cons.inj hrest
        exact later htail (by simp) (List.suffix_cons ..)

theorem milestone_of_timeline {source : Source} {s : σ} {before after : List Event} {m : Milestone}
    (h : timeline admits sink source s = before ++ .milestone m :: after) :
    ∃ i e, m.processed = i + 1 ∧ before.count .pull = i + 1 ∧ source.items[i]? = some (.ok e) ∧
      failureAt? admits sink s source.items i = none ∧ attempt admits (.ok e) <:+ before := by
  have hopen : Event.milestone m ∉ (openingNotes source).map Event.note := by simp
  have hrest : Event.milestone m ∉
      ((pulled admits sink s source.items).drop (settled admits sink s source.items).length).flatMap
        (attempt admits) ++
      (finishing admits sink source s ++
        .close :: (closingNotes admits sink source s).map .note) := by
    simp only [List.mem_append, List.mem_flatMap, not_or, not_exists, not_and]
    refine ⟨fun item _ => ?_, ?_, by simp⟩
    · cases item with
      | error e => simp [attempt]
      | ok e => by_cases ha : admits e <;> simp [attempt, ha]
    · unfold finishing
      split <;> simp
  simp only [timeline, List.append_assoc] at h
  obtain ⟨between, rfl, hbetween⟩ := split_after_prefix hopen h
  obtain ⟨_, hsettled, -⟩ := split_before_suffix hrest hbetween
  obtain ⟨i, item, hi, hproc, hcount, hend⟩ := milestone_of_settledEvents admits hsettled
  obtain ⟨e, rfl, hitem, hfail⟩ := edge_of_settled admits sink hi
  have hnone : ((openingNotes source).map Event.note).count .pull = 0 :=
    List.count_eq_zero.mpr (by simp)
  refine ⟨i, e, ?_, ?_, hitem, hfail, hend.trans (List.suffix_append ..)⟩
  · rw [hproc]
    simp [Tracker.start]
  · rw [List.count_append, hnone, hcount, Nat.zero_add]

theorem calls_timeline (source : Source) (s : σ) :
    (timeline admits sink source s).filter Event.isCall =
      (admitted admits (pulled admits sink s source.items)).map .add ++
        (if firstFailure? admits sink s source.items = none then [.finish] else []) ++ [.close] := by
  have hnotes : ∀ notes : List Note, (notes.map Event.note).filter Event.isCall = [] := by
    simp [List.filter_eq_nil_iff, Event.isCall]
  have hadds : (admitted admits (pulled admits sink s source.items)).map Event.add =
      (admitted admits (settled admits sink s source.items)).map .add ++
        (admitted admits ((pulled admits sink s source.items).drop
          (settled admits sink s source.items).length)).map .add := by
    conv_lhs => rw [← settled_append_drop]
    simp only [admitted, List.filterMap_append, List.filter_append, List.map_append]
  have hfinish : (finishing admits sink source s).filter Event.isCall =
      if firstFailure? admits sink s source.items = none then [.finish] else [] := by
    unfold finishing
    split <;> rename_i h <;> simp [h, hnotes, Event.isCall, List.filter_cons]
  simp only [timeline, List.filter_append, hnotes, calls_settledEvents, calls_attempts, hfinish,
    hadds, List.nil_append]
  simp [Event.isCall, List.filter_cons, hnotes]

/-- The course of a run: the order of its events, what its destination is asked, which item a
milestone belongs to, and what comes out. -/
structure Course (source : Source) (s : σ) (r : Run σ Summary) : Prop where
  /-- Settled items come with their milestones, the failing one without; then the destination is
  finished if nothing has failed, and closed. -/
  trace : r.trace = timeline admits sink source s
  /-- Admitted edges up to the first failure, in order, are handed on; a stream without failure is
  finished after the last of them, and closing comes last. -/
  calls : r.trace.filter Event.isCall =
    (admitted admits (pulled admits sink s source.items)).map .add ++
      (if firstFailure? admits sink s source.items = none then [.finish] else []) ++ [.close]
  /-- The calls that the trace tells are those that the destination has seen. -/
  state : r.state = sink.replay s r.trace
  /-- A milestone comes right behind its edge, which has not failed, and before the next pull. -/
  milestone : ∀ before m after, r.trace = before ++ .milestone m :: after →
    ∃ i e, m.processed = i + 1 ∧ before.count .pull = i + 1 ∧ source.items[i]? = some (.ok e) ∧
      failureAt? admits sink s source.items i = none ∧ attempt admits (.ok e) <:+ before
  /-- The first failure in time is the result; without one, all items count. -/
  result : r.result =
    match failures admits sink source s with
    | [] => .ok ⟨source.edgeCount, source.items.length, (admitted admits source.items).length⟩
    | e :: _ => .error e

/-- Every run takes this course, whatever its destination refuses. -/
theorem run_course (source : Source) (s : σ) :
    Course admits sink source s (run source admits sink s) := by
  have hrun := run_eq admits sink source s
  refine ⟨?_, ?_, ?_, ?_, ?_⟩
  · rw [hrun]
  · rw [hrun]
    exact calls_timeline admits sink source s
  · rw [hrun, ← sink.replay_calls]
    dsimp only
    rw [calls_timeline, Sink.replay_append, Sink.replay_append]
    split_ifs <;> rfl
  · intro before m after h
    rw [hrun] at h
    exact milestone_of_timeline admits sink h
  · rw [hrun]
    rfl

end Pipeline
end CallGraph
