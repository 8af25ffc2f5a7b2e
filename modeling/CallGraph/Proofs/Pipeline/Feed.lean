import CallGraph.Pipeline
import Mathlib.Logic.Function.Iterate
import Mathlib.Tactic.Common

/-! How a stream is worked off: item by item, up to the first one that fails. -/
namespace CallGraph

def causeOf? {ε α : Type} : Except ε α → Option ε
  | .error e => some e
  | .ok _ => none

namespace Sink

variable {σ : Type}

def perform (sink : Sink σ) (s : σ) : Event → σ
  | .add e => (sink.add e s).2
  | .finish => (sink.finish s).2
  | .close => (sink.close s).2
  | _ => s

def replay (sink : Sink σ) (s : σ) (events : List Event) : σ :=
  events.foldl sink.perform s

theorem replay_append (sink : Sink σ) (s : σ) (events more : List Event) :
    sink.replay s (events ++ more) = sink.replay (sink.replay s events) more :=
  List.foldl_append

end Sink

namespace Tracker

def after (t : Tracker) (edges : ℕ) : Tracker :=
  (fun t => t.advance.2)^[edges] t

theorem after_succ (t : Tracker) (edges : ℕ) : t.after (edges + 1) = t.advance.2.after edges :=
  Function.iterate_succ_apply ..

theorem advance_processed (t : Tracker) : t.advance.2.processed = t.processed + 1 := by
  unfold advance
  dsimp only
  split_ifs <;> rfl

theorem advance_total (t : Tracker) : t.advance.2.total = t.total := by
  unfold advance
  dsimp only
  split_ifs <;> rfl

theorem after_counts (t : Tracker) (edges : ℕ) :
    (t.after edges).processed = t.processed + edges ∧ (t.after edges).total = t.total := by
  induction edges generalizing t with
  | zero => exact ⟨rfl, rfl⟩
  | succ n ih =>
    obtain ⟨hp, ht⟩ := ih t.advance.2
    rw [after_succ, hp, ht, advance_processed, advance_total]
    exact ⟨by omega, rfl⟩

theorem processed_of_advance {t : Tracker} {m : Milestone} (h : t.advance.1 = some m) :
    m.processed = t.processed + 1 := by
  unfold advance at h
  dsimp only at h
  split_ifs at h
  cases h
  rfl

end Tracker

namespace Pipeline

abbrev Item := Except ExportError Edge

variable {σ : Type} (admits : Edge → Bool) (sink : Sink σ) (s : σ)

def admitted (items : List Item) : List Edge :=
  (items.filterMap Except.toOption).filter admits

def fed (edges : List Edge) : σ :=
  sink.replay s (edges.map .add)

/-- Why an item fails: it is a failure itself, or an admitted edge that the destination refuses. -/
def failure? : Item → Option ExportError
  | .error e => some e
  | .ok e => if admits e then causeOf? (sink.add e s).1 else none

/-- Why the item at a position fails, once the edges before it have been handed on. -/
def failureAt? (items : List Item) (i : ℕ) : Option ExportError :=
  items[i]?.bind (failure? admits sink (fed sink s (admitted admits (items.take i))))

def firstFailure? (items : List Item) : Option (ℕ × ExportError) :=
  (List.range items.length).findSome? fun i => (failureAt? admits sink s items i).map (i, ·)

/-- The items before the first that fails. -/
def settled (items : List Item) : List Item :=
  items.take (((firstFailure? admits sink s items).map (·.1)).getD items.length)

/-- The items up to the first that fails, which is one of them. -/
def pulled (items : List Item) : List Item :=
  items.take (((firstFailure? admits sink s items).map (·.1 + 1)).getD items.length)

def attempt : Item → List Event
  | .error _ => [.pull]
  | .ok e => if admits e then [.pull, .add e] else [.pull]

/-- The milestone that the item at a position reaches if it does not fail. -/
def milestonesAt (t : Tracker) (i : ℕ) : List Event :=
  (t.after i).advance.1.toList.map .milestone

def settledEvents (t : Tracker) (items : List Item) : List Event :=
  (items.mapIdx fun i item => attempt admits item ++ milestonesAt t i).flatten

@[simp] theorem admitted_nil : admitted admits [] = [] :=
  rfl

theorem admitted_cons (item : Item) (items : List Item) :
    admitted admits (item :: items) = admitted admits [item] ++ admitted admits items := by
  simp only [admitted, ← List.filter_append, ← List.filterMap_append, List.singleton_append]

theorem admitted_map_ok (edges : List Edge) :
    admitted admits (edges.map .ok) = edges.filter admits := by
  induction edges with
  | nil => rfl
  | cons e edges ih =>
    rw [List.map_cons, admitted_cons, ih]
    by_cases ha : admits e <;> simp [admitted, Except.toOption, ha]

theorem all_of_firstFailure?_eq_none {items : List Item}
    (h : firstFailure? admits sink s items = none) :
    settled admits sink s items = items ∧ pulled admits sink s items = items := by
  simp [settled, pulled, h]

theorem fed_append (edges more : List Edge) :
    fed sink s (edges ++ more) = fed sink (fed sink s edges) more := by
  simp only [fed, List.map_append, Sink.replay_append]

theorem failureAt?_succ (item : Item) (items : List Item) (i : ℕ) :
    failureAt? admits sink s (item :: items) (i + 1) =
      failureAt? admits sink (fed sink s (admitted admits [item])) items i := by
  simp only [failureAt?, List.getElem?_cons_succ, List.take_succ_cons]
  rw [admitted_cons, fed_append]

/-- The first item either fails, or is settled and leaves the search to the rest. -/
theorem firstFailure?_cons (item : Item) (items : List Item) :
    firstFailure? admits sink s (item :: items) =
      match failure? admits sink s item with
      | some e => some (0, e)
      | none => (firstFailure? admits sink (fed sink s (admitted admits [item])) items).map
          fun f => (f.1 + 1, f.2) := by
  have h0 : failureAt? admits sink s (item :: items) 0 = failure? admits sink s item := rfl
  unfold firstFailure?
  rw [List.length_cons, List.range_succ_eq_map, List.findSome?_cons, h0]
  cases failure? admits sink s item with
  | some e => rfl
  | none =>
    simp only [Option.map_none, List.findSome?_map, Function.comp_def, failureAt?_succ,
      List.map_findSome?, Option.map_map]

theorem settled_cons_of_failure {item : Item} {e : ExportError} (items : List Item)
    (h : failure? admits sink s item = some e) : settled admits sink s (item :: items) = [] := by
  simp [settled, firstFailure?_cons, h]

theorem pulled_cons_of_failure {item : Item} {e : ExportError} (items : List Item)
    (h : failure? admits sink s item = some e) : pulled admits sink s (item :: items) = [item] := by
  simp [pulled, firstFailure?_cons, h]

theorem settled_cons {item : Item} (items : List Item)
    (h : failure? admits sink s item = none) :
    settled admits sink s (item :: items) =
      item :: settled admits sink (fed sink s (admitted admits [item])) items := by
  simp only [settled, firstFailure?_cons, h]
  cases firstFailure? admits sink (fed sink s (admitted admits [item])) items <;> simp

theorem pulled_cons {item : Item} (items : List Item)
    (h : failure? admits sink s item = none) :
    pulled admits sink s (item :: items) =
      item :: pulled admits sink (fed sink s (admitted admits [item])) items := by
  simp only [pulled, firstFailure?_cons, h]
  cases firstFailure? admits sink (fed sink s (admitted admits [item])) items <;> simp

end Pipeline
end CallGraph
