import CallGraph.Proofs.Pipeline.Run
import CallGraph.Proofs.Step
import CallGraph.Sink.Store
import Mathlib.Data.List.Induction
import Mathlib.Data.List.TakeWhile

/-!
What a store is asked while it is a destination: to be cleared and prepared, then what the calls of the
owner are about, and once to close. Whatever it answers is what its owner is told.
-/
namespace CallGraph

def Store.after {σ : Type} (store : Store σ) (s : σ) (requests : List Request) : σ :=
  requests.foldl (fun s r => (store r s).2) s

theorem Store.after_append {σ : Type} (store : Store σ) (s : σ) (requests more : List Request) :
    store.after s (requests ++ more) = store.after (store.after s requests) more :=
  List.foldl_append

theorem Store.after_recorded {σ : Type} (store : Store σ) (s : σ) (log requests : List Request) :
    store.recorded.after (s, log) requests = (store.after s requests, log ++ requests) := by
  induction requests generalizing s log with
  | nil => exact congrArg (Prod.mk s) (List.append_nil log).symm
  | cons r requests ih =>
    have hfirst : store.recorded.after (s, log) (r :: requests) =
        store.recorded.after ((store r s).2, log ++ [r]) requests := rfl
    rw [hfirst, ih, List.append_assoc]
    rfl

namespace StoreSink

inductive Call
  | add (e : Edge)
  | finish
  | classes
  | close
  deriving DecidableEq

variable {σ : Type} (store : Store σ) (classGraph : Bool)

namespace Call

def perform : Call → Action (StoreSink σ) ExportError Unit
  | add e => (sink store classGraph).add e
  | finish => (sink store classGraph).finish
  | classes => deriveClasses store
  | close => (sink store classGraph).close

/-- What a call asks of the store, if anything; closing asks for something only once. -/
def ask (closed : Bool) : Call → Option Request
  | add e => some (.call e.source e.target e.kind.label)
  | finish => if classGraph then some .classes else none
  | classes => some .classes
  | close => if closed then none else some .close

end Call

def work (calls : List Call) : List Request :=
  calls.filterMap (Call.ask classGraph true)

/-- What calls ask of the store: the first that closes it asks for that. -/
def asked (calls : List Call) : List Request :=
  work classGraph (calls.takeWhile (· ≠ .close)) ++
    if .close ∈ calls then .close :: work classGraph (calls.dropWhile (· ≠ .close)) else []

def answer (s : σ) : Option Request → Except ExportError Unit
  | none => .ok ()
  | some r => (store r s).1.mapError .store

/-- A destination is closed when it is dropped, whatever comes of that. -/
def drop (opened : StoreSink σ) : StoreSink σ :=
  (close store opened).2

theorem perform_eq (call : Call) (s : σ) (closed : Bool) :
    call.perform store classGraph ⟨s, closed⟩ =
      (answer store s (call.ask classGraph closed),
        ⟨store.after s (call.ask classGraph closed).toList, closed || call = .close⟩) := by
  cases call with
  | add e => cases closed <;> rfl
  | finish => cases classGraph <;> cases closed <;> rfl
  | classes => cases closed <;> rfl
  | close => cases closed <;> rfl

theorem work_append (calls more : List Call) :
    work classGraph (calls ++ more) = work classGraph calls ++ work classGraph more :=
  List.filterMap_append

theorem ask_true (call : Call) : (call.ask classGraph true).toList = work classGraph [call] := by
  unfold work
  rw [List.filterMap_cons]
  cases call.ask classGraph true <;> rfl

theorem ask_of_ne_close {call : Call} (h : call ≠ .close) (closed : Bool) :
    call.ask classGraph closed = call.ask classGraph true := by
  cases call with
  | close => exact absurd rfl h
  | _ => rfl

variable {calls earlier : List Call}

theorem ne_close_of_notMem (h : .close ∉ calls) : ∀ call ∈ calls, decide (call ≠ .close) = true := by
  intro call hcall
  rw [decide_eq_true_eq]
  rintro rfl
  exact h hcall

/-- As long as the store is not closed, all calls come before that. -/
theorem split_of_open (h : .close ∉ calls) :
    calls.takeWhile (· ≠ .close) = calls ∧ calls.dropWhile (· ≠ .close) = [] := by
  have hall := ne_close_of_notMem h
  exact ⟨List.takeWhile_eq_self_iff.mpr hall, List.dropWhile_eq_nil_iff.mpr hall⟩

theorem asked_of_open (h : .close ∉ calls) : asked classGraph calls = work classGraph calls := by
  rw [asked, (split_of_open h).1, if_neg h, List.append_nil]

/-- The calls before the first that closes the store, and those after it. -/
theorem asked_of_closed (h : .close ∉ earlier) (later : List Call) :
    asked classGraph (earlier ++ .close :: later) =
      work classGraph earlier ++ .close :: work classGraph later := by
  have hall := ne_close_of_notMem h
  have hmem : .close ∈ earlier ++ .close :: later :=
    List.mem_append_right earlier List.mem_cons_self
  rw [asked, List.takeWhile_append_of_pos hall, List.dropWhile_append_of_pos hall, if_pos hmem]
  simp [work, Call.ask]

theorem asked_concat (calls : List Call) (call : Call) :
    asked classGraph (calls ++ [call]) =
      asked classGraph calls ++ (call.ask classGraph (.close ∈ calls)).toList := by
  by_cases hclosed : .close ∈ calls
  · obtain ⟨earlier, later, rfl, hfirst⟩ := List.eq_append_cons_of_mem hclosed
    rw [decide_eq_true hclosed, ask_true, List.append_assoc, List.cons_append,
      asked_of_closed classGraph hfirst, asked_of_closed classGraph hfirst, work_append]
    simp
  · rw [decide_eq_false hclosed, asked_of_open classGraph hclosed]
    by_cases hclose : call = .close
    · subst hclose
      exact asked_of_closed classGraph hclosed []
    · have hopen : .close ∉ calls ++ [call] := by
        simp [hclosed, Ne.symm hclose]
      rw [asked_of_open classGraph hopen, work_append, ← ask_true,
        ask_of_ne_close classGraph hclose false]

/-- Calls leave the store where what they ask of it leads. -/
theorem each_calls (s : σ) (calls : List Call) :
    (Action.each (calls.map (Call.perform store classGraph)) ⟨s, false⟩).2 =
      ⟨store.after s (asked classGraph calls), .close ∈ calls⟩ := by
  induction calls using List.reverseRecOn with
  | nil => rfl
  | append_singleton calls call ih =>
    have hlast : ∀ opened, (Action.each ([call].map (Call.perform store classGraph)) opened).2 =
        (call.perform store classGraph opened).2 := fun _ => rfl
    rw [List.map_append, Action.each_append, hlast, ih, perform_eq, asked_concat,
      Store.after_append]
    simp [eq_comm]

/-- The whole of what calls ask, closing on the drop included. -/
theorem asked_until_drop (calls : List Call) :
    asked classGraph (calls ++ [.close]) =
      work classGraph (calls.takeWhile (· ≠ .close)) ++
        .close :: work classGraph (calls.dropWhile (· ≠ .close)) := by
  by_cases hclosed : .close ∈ calls
  · rw [asked_concat, decide_eq_true hclosed, asked, if_pos hclosed]
    exact List.append_nil _
  · rw [asked_of_closed classGraph hclosed [], (split_of_open hclosed).1,
      (split_of_open hclosed).2]

theorem count_close_work (calls : List Call) : (work classGraph calls).count .close = 0 := by
  rw [List.count_eq_zero]
  intro hmem
  obtain ⟨call, -, hask⟩ := List.mem_filterMap.mp hmem
  cases call with
  | finish => cases classGraph <;> cases hask
  | _ => cases hask

/-- The drop of a destination is one more call that closes it. -/
theorem drop_each (opened : StoreSink σ) (calls : List Call) :
    drop store (Action.each (calls.map (Call.perform store classGraph)) opened).2 =
      (Action.each ((calls ++ [Call.close]).map (Call.perform store classGraph)) opened).2 := by
  rw [List.map_append, Action.each_append]
  rfl

def opened (s : σ) : StoreSink (σ × List Request) :=
  ⟨(s, [.clear, .schema]), false⟩

theorem log_of_calls (s : σ) (calls : List Call) :
    (Action.each (calls.map (Call.perform store.recorded classGraph)) (opened s)).2.inner.2 =
      [.clear, .schema] ++ asked classGraph calls := by
  rw [opened, each_calls, Store.after_recorded]

/-- What calls give back and what the store is asked, from its opening to the drop of the destination. -/
structure Serves (s : σ) (calls : List Call) (results : List (Except ExportError Unit))
    (log : List Request) : Prop where
  answered : results.length = calls.length
  /-- A call asks of the store what it is about, and gives back what the store answers to that. -/
  answers : ∀ earlier call later, calls = earlier ++ call :: later →
    results[earlier.length]? = some (answer store (store.after s (asked classGraph earlier))
      (call.ask classGraph (.close ∈ earlier)))
  /-- The store is closed by the first call that does so, or else by the drop. -/
  requests : log = [.clear, .schema] ++ work classGraph (calls.takeWhile (· ≠ .close)) ++
    .close :: work classGraph (calls.dropWhile (· ≠ .close))
  once : log.count .close = 1

theorem each_serves (s : σ) (calls : List Call) :
    Serves store classGraph s calls
      (Action.each (calls.map (Call.perform store.recorded classGraph)) (opened s)).1
      (drop store.recorded
        (Action.each (calls.map (Call.perform store.recorded classGraph)) (opened s)).2).inner.2 := by
  have hlog : (drop store.recorded (Action.each
      (calls.map (Call.perform store.recorded classGraph)) (opened s)).2).inner.2 =
      [.clear, .schema] ++ (work classGraph (calls.takeWhile (· ≠ .close)) ++
        .close :: work classGraph (calls.dropWhile (· ≠ .close))) := by
    rw [drop_each, log_of_calls, asked_until_drop]
  constructor
  · rw [Action.length_each, List.length_map]
  · rintro earlier call later rfl
    have hresult := Action.getElem?_each (earlier.map (Call.perform store.recorded classGraph))
      (call.perform store.recorded classGraph) (later.map (Call.perform store.recorded classGraph))
      (opened s)
    rw [List.length_map] at hresult
    rw [List.map_append, List.map_cons, hresult, opened, each_calls, perform_eq,
      Store.after_recorded]
    cases call.ask classGraph (.close ∈ earlier) <;> rfl
  · rw [hlog, List.append_assoc]
  · rw [hlog, List.count_append, List.count_append, List.count_cons_self, count_close_work,
      count_close_work]
    rfl

def callsOfRun (source : Source) (admits : Edge → Bool) (sink : Sink σ) (s : σ) : List Call :=
  (Pipeline.admitted admits (Pipeline.pulled admits sink s source.items)).map .add ++
    if Pipeline.firstFailure? admits sink s source.items = none then [.finish] else []

theorem fed_eq_each (opened : StoreSink σ) (edges : List Edge) :
    Pipeline.fed (sink store classGraph) opened edges =
      (Action.each ((edges.map .add).map (Call.perform store classGraph)) opened).2 := by
  induction edges generalizing opened with
  | nil => rfl
  | cons e edges ih => exact ih _

theorem run_eq_each (source : Source) (admits : Edge → Bool) (opened : StoreSink σ) :
    (Pipeline.run source admits (sink store classGraph) opened).state =
      (Action.each ((callsOfRun source admits (sink store classGraph) opened ++ [Call.close]).map
        (Call.perform store classGraph)) opened).2 := by
  rw [Pipeline.run_eq, fed_eq_each, callsOfRun]
  simp only [List.map_append, Action.each_append]
  split_ifs <;> rfl

theorem close_notMem_callsOfRun (source : Source) (admits : Edge → Bool) (sink : Sink σ) (s : σ) :
    .close ∉ callsOfRun source admits sink s := by
  unfold callsOfRun
  split_ifs <;> simp

theorem work_callsOfRun (source : Source) (admits : Edge → Bool) (sink : Sink σ) (s : σ) :
    work classGraph (callsOfRun source admits sink s) =
      ((Pipeline.admitted admits (Pipeline.pulled admits sink s source.items)).map fun e =>
        .call e.source e.target e.kind.label) ++
        if classGraph ∧ Pipeline.firstFailure? admits sink s source.items = none then [.classes]
        else [] := by
  have hadds : ∀ edges : List Edge, work classGraph (edges.map .add) =
      edges.map fun e => .call e.source e.target e.kind.label := by
    intro edges
    rw [work, List.filterMap_map]
    change edges.filterMap (some ∘ fun e => Request.call e.source e.target e.kind.label) = _
    rw [List.filterMap_eq_map]
  rw [callsOfRun, work_append, hadds]
  cases classGraph <;> split_ifs <;> simp_all [work, Call.ask]

/-- What a store is asked when a run fills it: the admitted edges up to the first that fails, the class
layer only if none does, and to close. -/
def askedByRun (source : Source) (admits : Edge → Bool) (s : σ) : List Request :=
  let sink := sink store.recorded classGraph
  [.clear, .schema] ++
    ((Pipeline.admitted admits (Pipeline.pulled admits sink (opened s) source.items)).map fun e =>
      .call e.source e.target e.kind.label) ++
    (if classGraph ∧ Pipeline.firstFailure? admits sink (opened s) source.items = none
      then [.classes] else []) ++
    [.close]

theorem log_of_run (source : Source) (admits : Edge → Bool) (s : σ) :
    (drop store.recorded
      (Pipeline.run source admits (sink store.recorded classGraph) (opened s)).state).inner.2 =
      askedByRun store classGraph source admits s := by
  have hopen := close_notMem_callsOfRun source admits (sink store.recorded classGraph) (opened s)
  rw [run_eq_each, drop_each, log_of_calls, List.append_assoc, List.singleton_append,
    asked_of_closed classGraph hopen, work_callsOfRun]
  simp [askedByRun, work, Call.ask]

structure Lifetime (s : σ) : Prop where
  /-- A store that cannot be cleared is closed, and it is asked nothing else. -/
  uncleared : ∀ e s₁, store .clear s = (.error e, s₁) → ∃ notes, prepare store.recorded (s, []) =
    ((.error (.store e), notes), (store .close s₁).2, [.clear, .close])
  unprepared : ∀ e s₁ s₂, store .clear s = (.ok (), s₁) → store .schema s₁ = (.error e, s₂) →
    ∃ notes, prepare store.recorded (s, []) =
      ((.error (.store e), notes), (store .close s₂).2, [.clear, .schema, .close])
  /-- The rest is asked by the calls of the owner, or by a run. -/
  prepared : ∀ s₁ s₂, store .clear s = (.ok (), s₁) → store .schema s₁ = (.ok (), s₂) →
    (∃ notes, prepare store.recorded (s, []) = ((.ok (), notes), (opened s₂).inner)) ∧
      (∀ calls, Serves store classGraph s₂ calls
        (Action.each (calls.map (Call.perform store.recorded classGraph)) (opened s₂)).1
        (drop store.recorded (Action.each
          (calls.map (Call.perform store.recorded classGraph)) (opened s₂)).2).inner.2) ∧
      ∀ source admits, (drop store.recorded (Pipeline.run source admits
        (sink store.recorded classGraph) (opened s₂)).state).inner.2 =
          askedByRun store classGraph source admits s₂

/-- Whatever a store refuses, it is asked what a destination is for, in order, and is closed once. -/
theorem lifetime_requests (s : σ) : Lifetime store classGraph s where
  uncleared e s₁ hclear := by
    refine ⟨[clearNote], ?_⟩
    simp [prepare, Store.recorded, hclear]
  unprepared e s₁ s₂ hclear hschema := by
    refine ⟨[clearNote, schemaNote], ?_⟩
    simp [prepare, Store.recorded, hclear, hschema]
  prepared s₁ s₂ hclear hschema := by
    refine ⟨⟨[clearNote, schemaNote], ?_⟩, each_serves store classGraph s₂, fun source admits =>
      log_of_run store classGraph source admits s₂⟩
    simp [prepare, Store.recorded, opened, hclear, hschema]

/-- A store that refuses the first call and cannot be closed. -/
def refusing : Store (List Request) :=
  Store.scripted fun name number => name = "call" ∧ number = 0 ∨ name = "close"

/-- A call that is refused, one that is made after closing, and closing twice before the drop. -/
def lateCalls : List Call :=
  [.add ⟨.inOwnPackage "p.A" "f" "f()", .inOwnPackage "q.B" "g" "g()", .static⟩, .close, .finish,
    .add ⟨.inOwnPackage "q.B" "g" "g()", .inOwnPackage "p.A" "f" "f()", .virtual⟩, .close]

theorem lifetime_requests_refusing :
    refusing .clear [] = (.ok (), [.clear]) ∧
      refusing .schema [.clear] = (.ok (), [.clear, .schema]) ∧
      Serves refusing true [.clear, .schema] lateCalls
        [.error (.store (.decode "scripted call failure")),
          .error (.store (.decode "scripted close failure")), .ok (), .ok (), .ok ()]
        [.clear, .schema,
          .call (.inOwnPackage "p.A" "f" "f()") (.inOwnPackage "q.B" "g" "g()") "STATIC", .close,
          .classes,
          .call (.inOwnPackage "q.B" "g" "g()") (.inOwnPackage "p.A" "f" "f()") "VIRTUAL"] := by
  have hclear : refusing .clear [] = (.ok (), [.clear]) := by rfl
  have hschema : refusing .schema [.clear] = (.ok (), [.clear, .schema]) := by rfl
  have hserves := ((lifetime_requests refusing true []).prepared _ _ hclear hschema).2.1 lateCalls
  exact ⟨hclear, hschema, hserves⟩

end StoreSink
end CallGraph
