import CallGraph.Proofs.Capture.Batch
import CallGraph.Proofs.Export.Documents
import CallGraph.Proofs.Export.Opening
import CallGraph.Proofs.Pipeline.Course
import CallGraph.Proofs.Text.ByteOrder

/-!
Live analysis against the replay of a file with the same output: they agree if the analyzer succeeds, and
its failure is one more fault behind the last edge.
-/
namespace CallGraph

/-- The bytes that a replay reads at a path. -/
def Disk.recorded? (d : Disk) (path : String) : Option (List UInt8) :=
  match d.read path with
  | .ok (.bytes data) => some data.data.toList
  | _ => none

namespace LiveStream

/-- The fault that a status is, unless it is success or has been told. -/
def verdict : Option ExitStatus → List (Except EngineError Edge)
  | none => []
  | some status => if status.isSuccess then [] else [.error (.exited status)]

def pending (s : LiveStream) : List (Except EngineError Edge) :=
  s.stream.pending ++ verdict s.status?

theorem length_verdict_le (status? : Option ExitStatus) : (verdict status?).length ≤ 1 := by
  unfold verdict
  split
  · exact Nat.zero_le 1
  · split_ifs <;> simp

theorem yields : Yields next pending := by
  intro s
  obtain ⟨hhead, htail⟩ := Capture.Stream.yields s.stream
  unfold next pending
  rcases hnext : s.stream.next with ⟨item?, stream⟩
  rw [hnext] at hhead htail
  dsimp only at hhead htail
  cases hpending : s.stream.pending with
  | cons item items =>
    rw [hpending] at hhead htail
    subst hhead
    simp [htail]
  | nil =>
    rw [hpending] at hhead htail
    subst hhead
    unfold verdict
    rcases s.status? with _ | status
    · simp [htail]
    · by_cases hsuccess : status.isSuccess <;> simp [htail, hsuccess]

theorem items_eq (s : LiveStream) : s.items = s.pending := by
  refine yields.drain_eq ?_
  have hpending := s.stream.length_pending_le
  have hverdict := length_verdict_le s.status?
  rw [pending, List.length_append]
  omega

end LiveStream

namespace Source

/-- Successful output is a capture. -/
theorem ofExecution_of_success {p : Execution} (h : p.status.isSuccess) :
    ofExecution p = ofCapture p.output := by
  unfold ofExecution ofCapture
  cases Capture.Stream.openBytes p.output with
  | error e => rfl
  | ok s =>
    have hitems : LiveStream.items ⟨s, some p.status⟩ = s.items := by
      rw [LiveStream.items_eq, s.items_eq, LiveStream.pending, LiveStream.verdict, if_pos h,
        List.append_nil]
    dsimp only
    rw [hitems]

theorem ofExecution_of_failure {p : Execution} {s : Capture.Stream} {edges : List Edge}
    (h : ¬ p.status.isSuccess) (hopen : Capture.Stream.openBytes p.output = .ok s)
    (hitems : s.items = edges.map .ok) :
    ofExecution p = .ok ⟨s.header.edges.toNat, s.header.methods.toNat,
      edges.map .ok ++ [.error (.engine (.exited p.status))]⟩ := by
  have hlive : LiveStream.items ⟨s, some p.status⟩ = edges.map .ok ++ [.error (.exited p.status)] := by
    rw [LiveStream.items_eq, LiveStream.pending, LiveStream.verdict, if_neg h, ← hitems, s.items_eq]
  simp [ofExecution, hopen, ofItems, hlive, Except.mapError, Function.comp_def]

end Source

theorem Engine.openReplay_of_recorded {d : Disk} {path : String} {output : List UInt8}
    (h : d.recorded? path = some output) : openReplay d path = Source.ofCapture output := by
  unfold Disk.recorded? at h
  unfold openReplay
  split at h <;> cases h
  simp only [*]

namespace Pipeline

variable {σ : Type} (admits : Edge → Bool) (sink : Sink σ)

/-- A fault behind items that do not fail is the first failure, and everything before it is settled. -/
theorem firstFailure?_concat_error {s : σ} {items : List Item}
    (h : firstFailure? admits sink s items = none) (f : ExportError) :
    firstFailure? admits sink s (items ++ [.error f]) = some (items.length, f) := by
  induction items generalizing s with
  | nil => rfl
  | cons item items ih =>
    rw [firstFailure?_cons] at h
    rw [List.cons_append, firstFailure?_cons]
    cases hf : failure? admits sink s item with
    | some e =>
      rw [hf] at h
      cases h
    | none =>
      rw [hf] at h
      simp [ih (Option.map_eq_none_iff.mp h)]

theorem pulled_concat_error {s : σ} {items : List Item}
    (h : firstFailure? admits sink s items = none) (f : ExportError) :
    pulled admits sink s (items ++ [.error f]) = items ++ [.error f] := by
  simp [pulled, firstFailure?_concat_error admits sink h]

theorem admitted_concat_error (items : List Item) (f : ExportError) :
    admitted admits (items ++ [.error f]) = admitted admits items := by
  simp [admitted, Except.toOption]

end Pipeline

namespace Export

variable {ν : Type} [Remote.Driver ν] {x : Export} {w : World ν} {o : Opened ν} {program : String} {output : List UInt8}
  {status : ExitStatus}

/-- An export with an open destination: the notes before the stream, and the run of the stream. -/
theorem run_of_source (engine : Engine) (hopen : x.opening w = .ok o) :
    x.run engine w =
      match engine.source o.world x.settings with
      | .error e =>
        ⟨.error e, (o.notes ++ engine.notes x.settings).map .note, (o.sink.close o.state).2.2⟩
      | .ok source =>
        let r := Pipeline.run source x.filter.admits o.sink o.state
        ⟨r.result, (o.notes ++ engine.notes x.settings).map .note ++ r.trace, r.state.2⟩ := by
  rw [run_of_opening x engine hopen]
  simp only [concluded, runInto, Opened.world, List.map_append]
  cases engine.source o.state.2 x.settings with
  | error e => rfl
  | ok source => simp [Pipeline.Run.after]

/-- Two exports with the same result, the same progress, the same calls on their destination, and the same
world after them. -/
structure Agrees (live replayed : Outcome ν) : Prop where
  result : live.result = replayed.result
  milestones : live.trace.filterMap Event.milestone? = replayed.trace.filterMap Event.milestone?
  calls : live.trace.filter Event.isCall = replayed.trace.filter Event.isCall
  world : live.state = replayed.state

theorem agrees_of_source {engine engine' : Engine}
    (h : ∀ o, x.opening w = .ok o → engine.source o.world x.settings = engine'.source o.world x.settings) :
    Agrees (x.run engine w) (x.run engine' w) := by
  cases hopen : x.opening w with
  | error r =>
    rw [run_eq, run_eq, hopen]
    exact ⟨rfl, rfl, rfl, rfl⟩
  | ok o =>
    have hmilestones (notes : List Note) : (notes.map Event.note).filterMap Event.milestone? = [] := by
      simp [List.filterMap_eq_nil_iff, Event.milestone?]
    have hcalls (notes : List Note) : (notes.map Event.note).filter Event.isCall = [] := by
      simp [List.filter_eq_nil_iff, Event.isCall]
    rw [run_of_source engine hopen, run_of_source engine' hopen, h o hopen]
    cases engine'.source o.world x.settings with
    | error e => exact ⟨rfl, by simp only [hmilestones], by simp only [hcalls], rfl⟩
    | ok source =>
      refine ⟨rfl, ?_, ?_, rfl⟩
      · simp only [List.filterMap_append, hmilestones]
      · simp only [List.filter_append, hcalls]

/-- An export whose destination has been given some edges and closed, but not finished, because the
analyzer has failed in the end. -/
structure Vetoed (o : Opened ν) (edges : List Edge) (status : ExitStatus) (live : Outcome ν) : Prop where
  result : live.result = .error (.engine (.exited status))
  calls : live.trace.filter Event.isCall = edges.map .add ++ [.close]
  state : live.state = (o.sink.replay o.state live.trace).2

theorem vetoed_of_source {engine : Engine} (hopen : x.opening w = .ok o) {source : Source}
    {edges : List Edge} (hsource : engine.source o.world x.settings = .ok source)
    (hitems : source.items = edges.map .ok ++ [.error (.engine (.exited status))])
    (hadds : Pipeline.firstFailure? x.filter.admits o.sink o.state (edges.map .ok) = none) :
    Vetoed o (edges.filter x.filter.admits) status (x.run engine w) := by
  have hfirst := Pipeline.firstFailure?_concat_error x.filter.admits o.sink hadds
    (.engine (.exited status))
  rw [← hitems] at hfirst
  have hnotes : ((o.notes ++ engine.notes x.settings).map Event.note).filter Event.isCall = [] := by
    simp [List.filter_eq_nil_iff, Event.isCall]
  have hcalls := Pipeline.calls_timeline x.filter.admits o.sink source o.state
  rw [hfirst, hitems, Pipeline.pulled_concat_error _ _ hadds, Pipeline.admitted_concat_error,
    Pipeline.admitted_map_ok, if_neg (by simp), List.append_nil] at hcalls
  have hrun := Pipeline.run_eq x.filter.admits o.sink source o.state
  rw [run_of_source engine hopen, hsource]
  refine ⟨Pipeline.result_of_firstFailure _ _ hfirst, ?_, ?_⟩
  · simp only [List.filter_append, hnotes, List.nil_append, hrun, hcalls]
  · rw [← o.sink.replay_calls]
    simp only [List.filter_append, hnotes, List.nil_append, hrun, hcalls, hfirst, reduceCtorEq, if_false]
    rw [hitems, Pipeline.pulled_concat_error _ _ hadds, Pipeline.admitted_concat_error,
      Pipeline.admitted_map_ok, Sink.replay_append]
    rfl

/-- An analyzer that writes some output, and a file that holds the same when the destination is open: they
agree if the analyzer succeeds. If it fails, an output without fault still gets to the destination as a
whole, and the failure is told once behind the last edge. -/
theorem live_replay
    (hlive : ∀ o, x.opening w = .ok o →
      w.start o.world.disk program x.settings.arguments = .ok ⟨output, status⟩) :
    (status.isSuccess → ∀ path, (∀ o, x.opening w = .ok o →
        o.world.disk.recorded? path = some output) →
      Agrees (x.run (.analyzer program) w) (x.run (.replay path) w)) ∧
    (¬ status.isSuccess → ∀ (o : Opened ν) (s : Capture.Stream) (edges : List Edge), x.opening w = .ok o →
      Capture.Stream.openBytes output = .ok s → s.items = edges.map .ok →
      Pipeline.firstFailure? x.filter.admits o.sink o.state (edges.map .ok) = none →
      Vetoed o (edges.filter x.filter.admits) status (x.run (.analyzer program) w) ∧
      ∀ calls, yielded LiveStream.next ⟨s, some status⟩ calls =
        (edges.map .ok ++ [.error (.exited status)])[calls]?) := by
  have hsource {o} (hopen : x.opening w = .ok o) :
      (Engine.analyzer program).source o.world x.settings = Source.ofExecution ⟨output, status⟩ := by
    simp only [Engine.source, Engine.openAnalyzer, x.start_of_opening hopen, hlive o hopen]
  constructor
  · intro hsuccess path hdump
    apply agrees_of_source
    intro o hopen
    rw [hsource hopen, Source.ofExecution_of_success hsuccess]
    exact (Engine.openReplay_of_recorded (hdump o hopen)).symm
  · intro hfailed o s edges hopen hstream hitems hadds
    have hexecution := Source.ofExecution_of_failure (p := ⟨output, status⟩) hfailed hstream hitems
    refine ⟨vetoed_of_source hopen ((hsource hopen).trans hexecution) rfl hadds, fun calls => ?_⟩
    rw [LiveStream.yields.yielded_eq, LiveStream.pending, LiveStream.verdict, if_neg hfailed, ← hitems,
      s.items_eq]

private def recorded : String :=
  "\x7b\"edges\":1,\"reachable_methods\":2\x7d\n" ++ Documents.crossCall.toJson.render ++ "\n"

/-- A world in which a file holds what every program writes. -/
private def recordedIn (names : List String) (status : ExitStatus) : World where
  disk := (Disk.fresh ["w"]).withEntry names (.file (.bytes recorded.toUTF8) false)
  server := (World.offline (Disk.fresh ["w"])).server
  start := fun _ _ _ => .ok ⟨bytesOf recorded, status⟩

theorem live_replay_crossCall :
    Agrees ((allInto "out").run (.analyzer "wala") (recordedIn ["dump.jsonl"] (.code 0)))
      ((allInto "out").run (.replay "dump.jsonl") (recordedIn ["dump.jsonl"] (.code 0))) ∧
    ((allInto "out").run (.replay "dump.jsonl") (recordedIn ["dump.jsonl"] (.code 0))).result =
      .ok ⟨1, 1, 1⟩ ∧
    ∃ o, (allInto "out").opening (recordedIn ["dump.jsonl"] (.code 3)) = .ok o ∧
      Vetoed o [Documents.crossCall] (.code 3)
        ((allInto "out").run (.analyzer "wala") (recordedIn ["dump.jsonl"] (.code 3))) := by
  have hkept : ((allInto "out").opening (recordedIn ["dump.jsonl"] (.code 0))).toOption.all fun o =>
      o.world.disk.recorded? "dump.jsonl" == some (bytesOf recorded) := by decide +kernel
  have hopens : ((allInto "out").opening (recordedIn ["dump.jsonl"] (.code 3))).toOption.any fun o =>
      (Pipeline.firstFailure? (allInto "out").filter.admits o.sink o.state
        ([Documents.crossCall].map .ok)).isNone := by decide +kernel
  have hdecodes : (Capture.Stream.openBytes (bytesOf recorded)).toOption.any fun s =>
      s.items == [Documents.crossCall].map .ok := by decide +kernel
  refine ⟨(live_replay fun _ _ => rfl).1 rfl _ fun o hopen => ?_, by decide +kernel, ?_⟩
  · rw [hopen] at hkept
    exact beq_iff_eq.mp hkept
  · obtain ⟨o, hopen, hadds⟩ := exists_ok_of_any hopens
    obtain ⟨s, hstream, hitems⟩ := exists_ok_of_any hdecodes
    obtain ⟨hvetoed, -⟩ := (live_replay fun _ _ => rfl).2 (by decide) o s [Documents.crossCall] hopen
      hstream (beq_iff_eq.mp hitems) (Option.isNone_iff_eq_none.mp hadds)
    exact ⟨o, hopen, hvetoed⟩

/-- A file among the export's own is emptied before the engine reads it. -/
theorem overwritten_replay_differs :
    ∃ (w : World) (output : List UInt8), w.disk.recorded? "out/mapping.json" = some output ∧
      (∀ disk arguments, w.start disk "wala" arguments = .ok ⟨output, .code 0⟩) ∧
      ((allInto "out").run (.analyzer "wala") w).result = .ok ⟨1, 1, 1⟩ ∧
      ((allInto "out").run (.replay "out/mapping.json") w).result = .error (.engine .noHeader) :=
  ⟨recordedIn ["out", "mapping.json"] (.code 0), bytesOf recorded, by decide +kernel, fun _ _ => rfl,
    by decide +kernel, by decide +kernel⟩

end Export
end CallGraph
