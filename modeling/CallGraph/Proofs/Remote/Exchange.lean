import CallGraph.Proofs.Step
import CallGraph.Remote.Server

/-!
What a server is told behind the calls of a client library. The library may be any that keeps to its
documentation: which messages a call sends, and that it succeeds just if they are answered with success.
-/
namespace CallGraph.Remote

namespace Message

def prepares : Message → Bool
  | hello _ _ | reset => true
  | _ => false

def isStatement : Message → Bool
  | run _ | discard => true
  | _ => false

def delimits : Message → Bool
  | begin | commit | rollback => true
  | _ => false

end Message

def granted (queries : List Query) : List Exchange :=
  queries.flatMap fun q => [⟨.run q, true⟩, ⟨.discard, true⟩]

/-- The two ways in which a statement fails. -/
def refusals (q : Query) : List (List Exchange) :=
  [[⟨.run q, false⟩], [⟨.run q, true⟩, ⟨.discard, false⟩]]

/-- What is documented of a library whose messages, with their answers, are logged in `said`. -/
structure Driver.Documented (ν : Type) [Driver ν] (said : ν → List Exchange) : Prop where
  begun : ∀ {handle : Driver.Handle ν} {txn : Driver.Txn ν} {server server' : ν},
    Driver.begin handle server = (.ok txn, server') →
      ∃ opening : List Exchange, (∀ x ∈ opening, x.message.prepares) ∧
        said server' = said server ++ (opening ++ [⟨.begin, true⟩])
  /-- Without a transaction there is no connection, or the server has refused to begin one. -/
  unbegun : ∀ {handle : Driver.Handle ν} {e : RemoteError} {server server' : ν},
    Driver.begin handle server = (.error e, server') →
      ∃ opening begins : List Exchange, (∀ x ∈ opening, x.message.prepares) ∧
        (begins = [] ∨ begins = [⟨.begin, false⟩]) ∧ said server' = said server ++ (opening ++ begins)
  ran : ∀ {txn : Driver.Txn ν} {q : Query} {server server' : ν},
    Driver.run txn q server = (.ok (), server') → said server' = said server ++ granted [q]
  failed : ∀ {txn : Driver.Txn ν} {q : Query} {e : RemoteError} {server server' : ν},
    Driver.run txn q server = (.error e, server') →
      ∃ refusal ∈ refusals q, said server' = said server ++ refusal
  commit : ∀ {txn : Driver.Txn ν} {result : Except RemoteError Unit} {server server' : ν},
    Driver.commit txn server = (result, server') →
      said server' = said server ++ [⟨.commit, result.isOk⟩]
  rollback : ∀ {txn : Driver.Txn ν} {result : Except RemoteError Unit} {server server' : ν},
    Driver.rollback txn server = (result, server') →
      said server' = said server ++ [⟨.rollback, result.isOk⟩]

namespace Server

variable {server server' : Server}

theorem exchanges_hear (server : Server) (m : Message) :
    (server.hear m).exchanges =
      server.exchanges ++ [⟨m, (answer server.reply server.received m).isSuccess⟩] := by
  simp [exchanges, hear, answered, answer]

/-- What is said in one message is logged with its answer. -/
theorem exchanges_of_send {m : Message} {result : Except RemoteError Reply}
    (h : send m server = (result, server')) :
    server'.exchanges = server.exchanges ++ [⟨m, result.isOk⟩] := by
  have hheard := exchanges_hear server m
  unfold send at h
  cases hanswer : answer server.reply server.received m <;>
    · rw [hanswer] at h hheard
      cases h
      exact hheard

theorem exchanges_of_tell {m : Message} {result : Except RemoteError Unit}
    (h : ((send m).andThen fun _ => Action.done) server = (result, server')) :
    server'.exchanges = server.exchanges ++ [⟨m, result.isOk⟩] := by
  rcases hsend : send m server with ⟨_ | reply, server₁⟩
  · rw [Action.andThen_of_eq_error _ hsend] at h
    cases h
    exact exchanges_of_send hsend
  · rw [Action.andThen_of_eq_ok _ hsend] at h
    cases h
    exact exchanges_of_send hsend

/-- A connection is made ready with one message at most. -/
theorem exchanges_of_reach {access : Access} {result : Except RemoteError Unit}
    (h : reach access server = (result, server')) :
    ∃ opening : List Exchange, (∀ x ∈ opening, x.message.prepares) ∧
      server'.exchanges = server.exchanges ++ opening := by
  unfold reach at h
  have hsilent : ∃ opening : List Exchange, (∀ x ∈ opening, x.message.prepares) ∧
      server.exchanges = server.exchanges ++ opening := ⟨[], nofun, (List.append_nil _).symm⟩
  split at h
  · cases h
    exact hsilent
  · split_ifs at h
    · cases h
      exact hsilent
    · exact ⟨_, fun x hx => by rw [List.mem_singleton.mp hx]; rfl, exchanges_of_tell h⟩
    · exact ⟨_, fun x hx => by rw [List.mem_singleton.mp hx]; rfl, exchanges_of_tell h⟩

/-- A transaction begins after its connection is ready, or not at all. -/
theorem begin_cases {access : Access} {result : Except RemoteError Unit}
    (h : (Driver.begin access server : Except RemoteError Unit × Server) = (result, server')) :
    ∃ opening begins : List Exchange, (∀ x ∈ opening, x.message.prepares) ∧
      server'.exchanges = server.exchanges ++ (opening ++ begins) ∧
      ((∃ e, result = .error e) ∧ begins = [] ∨ begins = [⟨.begin, result.isOk⟩]) := by
  rcases hreach : reach access server with ⟨e | _, server₁⟩
  · obtain ⟨opening, hprepares, hsaid⟩ := exchanges_of_reach hreach
    have hstopped := (Action.andThen_of_eq_error _ hreach).symm.trans h
    cases hstopped
    exact ⟨opening, [], hprepares, by rw [hsaid, List.append_nil], .inl ⟨⟨e, rfl⟩, rfl⟩⟩
  · obtain ⟨opening, hprepares, hsaid⟩ := exchanges_of_reach hreach
    have hbegin := (Action.andThen_of_eq_ok _ hreach).symm.trans h
    refine ⟨opening, _, hprepares, ?_, .inr rfl⟩
    rw [exchanges_of_tell hbegin, hsaid, List.append_assoc]

/-- A statement is two messages, or one that is refused. -/
theorem run_cases {q : Query} {result : Except RemoteError Unit} (h : run q server = (result, server')) :
    ∃ body : List Exchange, server'.exchanges = server.exchanges ++ body ∧
      (result = .ok () ∧ body = granted [q] ∨ (∃ e, result = .error e) ∧ body ∈ refusals q) := by
  unfold run at h
  rcases hsend : send (.run q) server with ⟨e | reply, server₁⟩
  · rw [Action.andThen_of_eq_error _ hsend] at h
    cases h
    exact ⟨_, exchanges_of_send hsend, .inr ⟨⟨e, rfl⟩, List.mem_cons_self⟩⟩
  · rw [Action.andThen_of_eq_ok _ hsend] at h
    refine ⟨_, by rw [exchanges_of_tell h, exchanges_of_send hsend, List.append_assoc], ?_⟩
    cases result with
    | error e => exact .inr ⟨⟨e, rfl⟩, by simp [refusals, Except.isOk, Except.toBool]⟩
    | ok _ => exact .inl ⟨rfl, rfl⟩

/-- The plain client of a script keeps to what is documented. -/
theorem documented : Driver.Documented Server exchanges where
  begun h := by
    obtain ⟨opening, begins, hprepares, hsaid, ⟨⟨e, herror⟩, -⟩ | rfl⟩ := begin_cases h
    · cases herror
    · exact ⟨opening, hprepares, hsaid⟩
  unbegun h := by
    obtain ⟨opening, begins, hprepares, hsaid, ⟨-, rfl⟩ | rfl⟩ := begin_cases h
    · exact ⟨opening, [], hprepares, .inl rfl, hsaid⟩
    · exact ⟨opening, _, hprepares, .inr rfl, hsaid⟩
  ran h := by
    obtain ⟨body, hsaid, ⟨-, rfl⟩ | ⟨⟨e, herror⟩, -⟩⟩ := run_cases h
    · exact hsaid
    · cases herror
  failed h := by
    obtain ⟨body, hsaid, ⟨hok, -⟩ | ⟨-, hbody⟩⟩ := run_cases h
    · cases hok
    · exact ⟨body, hbody, hsaid⟩
  commit := exchanges_of_tell
  rollback := exchanges_of_tell

end Server
end CallGraph.Remote
