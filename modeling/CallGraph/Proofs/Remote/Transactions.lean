import CallGraph.Proofs.Remote.Exchange
import CallGraph.Proofs.Split
import CallGraph.Remote.Session

/-!
What a server is told when a session changes its graph: a transaction for each change, whose statements
have to succeed one after another, and which is committed only if they all do.
-/
namespace CallGraph.Remote

def statementsOf (block : List Exchange) : List Exchange :=
  block.filter (·.message.isStatement)

def delimiters (block : List Exchange) : List Exchange :=
  block.filter (·.message.delimits)

theorem statementsOf_append (block more : List Exchange) :
    statementsOf (block ++ more) = statementsOf block ++ statementsOf more :=
  List.filter_append ..

theorem delimiters_append (block more : List Exchange) :
    delimiters (block ++ more) = delimiters block ++ delimiters more :=
  List.filter_append ..

theorem filter_message_eq_nil {p q : Message → Bool} (hpq : ∀ m, p m → q m = false)
    {block : List Exchange} (h : ∀ x ∈ block, p x.message) : block.filter (q ·.message) = [] :=
  List.filter_eq_nil_iff.mpr fun x hx => by simp [hpq _ (h x hx)]

theorem isStatement_of_prepares (m : Message) (h : m.prepares) : m.isStatement = false := by
  cases m <;> trivial

theorem delimits_of_prepares (m : Message) (h : m.prepares) : m.delimits = false := by
  cases m <;> trivial

theorem delimits_of_isStatement (m : Message) (h : m.isStatement) : m.delimits = false := by
  cases m <;> trivial

theorem granted_append (queries more : List Query) :
    granted (queries ++ more) = granted queries ++ granted more :=
  List.flatMap_append

theorem isStatement_of_granted {queries : List Query} {x : Exchange} (h : x ∈ granted queries) :
    x.message.isStatement ∧ x.granted := by
  obtain ⟨q, -, hx⟩ := List.mem_flatMap.mp h
  have hpair : x = ⟨.run q, true⟩ ∨ x = ⟨.discard, true⟩ := by simpa using hx
  rcases hpair with rfl | rfl <;> exact ⟨rfl, rfl⟩

theorem refusal_cases {q : Query} {refusal : List Exchange} (h : refusal ∈ refusals q) :
    refusal = [⟨.run q, false⟩] ∨ refusal = [⟨.run q, true⟩, ⟨.discard, false⟩] := by
  simpa [refusals] using h

theorem isStatement_of_refusal {q : Query} {refusal : List Exchange} (h : refusal ∈ refusals q) :
    ∀ x ∈ refusal, x.message.isStatement := by
  rcases refusal_cases h with rfl | rfl <;> simp [Message.isStatement]

theorem exists_refused {q : Query} {refusal : List Exchange} (h : refusal ∈ refusals q) :
    ∃ x ∈ refusal, x.granted = false := by
  rcases refusal_cases h with rfl | rfl <;> simp

section

variable {opening body : List Exchange} {last : Exchange} (hopening : ∀ x ∈ opening, x.message.prepares)
  (hbody : ∀ x ∈ body, x.message.isStatement) (hlast : last.message.delimits)
include hopening hbody hlast

theorem statementsOf_begun : statementsOf (opening ++ (⟨.begin, true⟩ :: body ++ [last])) = body := by
  have hother : last.message.isStatement = false := by
    revert hlast
    cases last.message <;> simp [Message.delimits, Message.isStatement]
  have hnone : statementsOf opening = [] := filter_message_eq_nil isStatement_of_prepares hopening
  have hall : statementsOf body = body := List.filter_eq_self.mpr hbody
  have hbegin : statementsOf (⟨.begin, true⟩ :: body) = statementsOf body := rfl
  rw [statementsOf_append, statementsOf_append, hnone, hbegin, hall]
  simp [statementsOf, hother]

theorem delimiters_begun :
    delimiters (opening ++ (⟨.begin, true⟩ :: body ++ [last])) = [⟨.begin, true⟩, last] := by
  have hnone : delimiters opening = [] := filter_message_eq_nil delimits_of_prepares hopening
  have hbegin : delimiters (⟨.begin, true⟩ :: body) = ⟨.begin, true⟩ :: delimiters body := rfl
  have hstatements : delimiters body = [] := filter_message_eq_nil delimits_of_isStatement hbody
  rw [delimiters_append, delimiters_append, hnone, hbegin, hstatements]
  simp [delimiters, hlast]

/-- Statements stand between the beginning of their transaction and its end. -/
theorem enclosed_of_begun {before after : List Exchange} {x : Exchange}
    (hblock : opening ++ (⟨.begin, true⟩ :: body ++ [last]) = before ++ x :: after)
    (hx : x.message.isStatement) :
    delimiters before = [⟨.begin, true⟩] ∧ delimiters after = [last] := by
  have hnotDelimits := delimits_of_isStatement _ hx
  have hfirst : x ∉ opening := by
    intro hmem
    rw [isStatement_of_prepares _ (hopening x hmem)] at hx
    cases hx
  have hend : x ∉ [last] := by
    intro hmem
    rw [List.mem_singleton.mp hmem, hlast] at hnotDelimits
    cases hnotDelimits
  obtain ⟨begun, rfl, hrest⟩ := split_after_prefix hfirst hblock
  obtain ⟨more, hbegun, rfl⟩ := split_before_suffix hend hrest
  cases begun with
  | nil =>
    rw [← (List.cons.inj hbegun).1] at hx
    cases hx
  | cons y said =>
    obtain ⟨rfl, rfl⟩ := List.cons.inj hbegun
    have hsaid : delimiters said = [] :=
      filter_message_eq_nil delimits_of_isStatement fun z hz => hbody z (by simp [hz])
    have hmore : delimiters more = [] :=
      filter_message_eq_nil delimits_of_isStatement fun z hz => hbody z (by simp [hz])
    have hnone : delimiters opening = [] := filter_message_eq_nil delimits_of_prepares hopening
    have hbegin : delimiters (⟨.begin, true⟩ :: said) = ⟨.begin, true⟩ :: delimiters said := rfl
    refine ⟨by rw [delimiters_append, hnone, hbegin, hsaid]; rfl, ?_⟩
    rw [delimiters_append, hmore]
    simp [delimiters, hlast]

end

theorem countP_of_delimits {m : Message} (h : m.delimits) (block : List Exchange) :
    block.countP (·.message == m) = (delimiters block).countP (·.message == m) := by
  rw [delimiters, List.countP_filter]
  congr 1
  funext x
  by_cases hx : x.message = m <;> simp [hx, h]

theorem mem_iff_mem_delimiters {x : Exchange} (h : x.message.delimits) (block : List Exchange) :
    x ∈ block ↔ x ∈ delimiters block := by
  simp [delimiters, h]

/-- A statement that fails is the last one that is said. -/
theorem ordered_of_refusal (before after : List Query) {q : Query} {refusal : List Exchange}
    (h : refusal ∈ refusals q) :
    (granted before ++ refusal).map (·.message) <+: (granted (before ++ q :: after)).map (·.message) ∧
      ∀ x ∈ (granted before ++ refusal).dropLast, x.granted := by
  have hne : refusal ≠ [] := by
    rcases refusal_cases h with rfl | rfl <;> simp
  constructor
  · rw [granted_append, List.map_append, List.map_append, List.prefix_append_right_inj]
    rcases refusal_cases h with rfl | rfl <;> simp [granted]
  · rw [List.dropLast_append_of_ne_nil hne]
    intro x hx
    rcases List.mem_append.mp hx with hx | hx
    · exact (isStatement_of_granted hx).2
    · rcases refusal_cases h with rfl | rfl <;> simp at hx
      rw [hx]

namespace Driver.Documented

variable {ν : Type} [Driver ν] {said : ν → List Exchange} {txn : Driver.Txn ν} {server server' : ν}

theorem ran_all (h : Driver.Documented ν said) {queries : List Query}
    (hrun : Action.sequence (queries.map (Driver.run txn)) server = (.ok (), server')) :
    said server' = said server ++ granted queries := by
  induction queries generalizing server with
  | nil =>
    cases hrun
    exact (List.append_nil _).symm
  | cons q queries ih =>
    rw [List.map_cons, Action.sequence] at hrun
    rcases hfirst : Driver.run txn q server with ⟨e | _, server₁⟩
    · rw [Action.andThen_of_eq_error _ hfirst] at hrun
      cases hrun
    · rw [Action.andThen_of_eq_ok _ hfirst] at hrun
      rw [ih hrun, h.ran hfirst, List.append_assoc, ← granted_append]
      rfl

end Driver.Documented

namespace Session

variable {ν : Type} [Driver ν] {said : ν → List Exchange} {handle : Driver.Handle ν} {queries : List Query}
  {server server' : ν} {block : List Exchange} {result : Except RemoteError Unit}

/-- The three ways of a transaction: which calls the library gets, what the server is told in them, and
what comes of it. -/
inductive Course (handle : Driver.Handle ν) (queries : List Query) (server : ν) :
    List Exchange → Except RemoteError Unit → ν → Prop
  | unbegun {opening begins : List Exchange} {e : RemoteError} {server' : ν}
      (hbegin : Driver.begin handle server = (.error e, server'))
      (hopening : ∀ x ∈ opening, x.message.prepares)
      (hbegins : begins = [] ∨ begins = [⟨.begin, false⟩]) :
      Course handle queries server (opening ++ begins) (.error e) server'
  | committed {opening : List Exchange} {txn : Driver.Txn ν} {result : Except RemoteError Unit}
      {server₁ server₂ server' : ν} (hbegin : Driver.begin handle server = (.ok txn, server₁))
      (hopening : ∀ x ∈ opening, x.message.prepares)
      (hruns : Action.sequence (queries.map (Driver.run txn)) server₁ = (.ok (), server₂))
      (hcommit : Driver.commit txn server₂ = (result, server')) :
      Course handle queries server
        (opening ++ (⟨.begin, true⟩ :: granted queries ++ [⟨.commit, result.isOk⟩])) result server'
  /-- The first statement that fails is the last one, and its error is what is returned. -/
  | rolledBack {opening refusal : List Exchange} {txn : Driver.Txn ν} {before after : List Query}
      {q : Query} {e : RemoteError} {outcome : Except RemoteError Unit}
      {server₁ server₂ server₃ server' : ν} (hbegin : Driver.begin handle server = (.ok txn, server₁))
      (hopening : ∀ x ∈ opening, x.message.prepares) (hqueries : queries = before ++ q :: after)
      (hruns : Action.sequence (before.map (Driver.run txn)) server₁ = (.ok (), server₂))
      (hfailed : Driver.run txn q server₂ = (.error e, server₃)) (hrefusal : refusal ∈ refusals q)
      (hrollback : Driver.rollback txn server₃ = (outcome, server')) :
      Course handle queries server
        (opening ++ (⟨.begin, true⟩ :: (granted before ++ refusal) ++ [⟨.rollback, outcome.isOk⟩]))
        (.error e) server'

theorem transaction_course (h : Driver.Documented ν said) (handle : Driver.Handle ν) (queries : List Query)
    (server : ν) :
    ∃ block result server', transaction queries handle server = (result, server') ∧
      said server' = said server ++ block ∧ Course handle queries server block result server' := by
  unfold transaction
  rcases hbegin : Driver.begin handle server with ⟨e | txn, server₁⟩
  · rw [Action.andThen_of_eq_error _ hbegin]
    obtain ⟨opening, begins, hopening, hbegins, hsaid⟩ := h.unbegun hbegin
    exact ⟨_, _, _, rfl, hsaid, .unbegun hbegin hopening hbegins⟩
  rw [Action.andThen_of_eq_ok _ hbegin]
  obtain ⟨opening, hopening, hbegun⟩ := h.begun hbegin
  rcases hruns : Action.sequence (queries.map (Driver.run txn)) server₁ with ⟨e | _, server₂⟩
  · obtain ⟨actions, action, more, server₃, hactions, hbefore, hfailed⟩ :=
      Action.exists_failed_of_sequence hruns
    obtain ⟨before, rest, hqueries, rfl, hrest⟩ := List.map_eq_append_iff.mp hactions
    obtain ⟨q, after, rfl, rfl, -⟩ := List.map_eq_cons_iff.mp hrest
    obtain ⟨refusal, hrefusal, hrefused⟩ := h.failed hfailed
    dsimp only
    rcases hrollback : Driver.rollback txn server₂ with ⟨outcome, server'⟩
    refine ⟨_, _, _, rfl, ?_,
      .rolledBack hbegin hopening hqueries hbefore hfailed hrefusal hrollback⟩
    rw [h.rollback hrollback, hrefused, h.ran_all hbefore, hbegun]
    simp
  · dsimp only
    rcases hcommit : Driver.commit txn server₂ with ⟨result, server'⟩
    refine ⟨_, _, _, rfl, ?_, .committed hbegin hopening hruns hcommit⟩
    rw [h.commit hcommit, h.ran_all hruns, hbegun]
    simp

/-- What is said and done to change the graph by some statements: a transaction of its own. -/
structure Transaction (handle : Driver.Handle ν) (queries : List Query) (server : ν) (block : List Exchange)
    (result : Except RemoteError Unit) (server' : ν) : Prop where
  course : Course handle queries server block result server'
  begins : block.countP (·.message == .begin) ≤ 1
  /-- If none begins, that is the error, and nothing is said but to begin one. -/
  unbegun : ⟨.begin, true⟩ ∉ block →
    (∃ e, Driver.begin handle server = (.error e, server') ∧ result = .error e) ∧
      ∀ x ∈ block, x.message.prepares ∨ x.message = .begin
  /-- The statements are said in their order, up to the first that is refused. -/
  ordered : (statementsOf block).map (·.message) <+: (granted queries).map (·.message) ∧
    ∀ x ∈ (statementsOf block).dropLast, x.granted
  /-- It is committed once if all statements succeed, else not at all. -/
  commits : block.countP (·.message == .commit) =
    if ⟨.begin, true⟩ ∈ block ∧ statementsOf block = granted queries then 1 else 0
  /-- It is rolled back once if a statement fails, else not at all. -/
  rollbacks : block.countP (·.message == .rollback) =
    if ∃ x ∈ statementsOf block, x.granted = false then 1 else 0
  ok_iff : result = .ok () ↔ ⟨.commit, true⟩ ∈ block
  enclosed : ∀ before x after, block = before ++ x :: after → x.message.isStatement →
    delimiters before = [⟨.begin, true⟩] ∧
      ∃ granted, delimiters after = [⟨.commit, granted⟩] ∨ delimiters after = [⟨.rollback, granted⟩]

theorem transaction_of_unbegun {opening begins : List Exchange} {e : RemoteError}
    (hbegin : Driver.begin handle server = (.error e, server'))
    (hopening : ∀ x ∈ opening, x.message.prepares)
    (hbegins : begins = [] ∨ begins = [⟨.begin, false⟩]) :
    Transaction handle queries server (opening ++ begins) (.error e) server' := by
  have hstatements : statementsOf (opening ++ begins) = [] := by
    rw [statementsOf_append, statementsOf,
      filter_message_eq_nil isStatement_of_prepares hopening]
    rcases hbegins with rfl | rfl <;> rfl
  have hdelimiters : delimiters (opening ++ begins) = begins := by
    rw [delimiters_append, delimiters, filter_message_eq_nil delimits_of_prepares hopening]
    rcases hbegins with rfl | rfl <;> rfl
  have hnone : ⟨.begin, true⟩ ∉ opening ++ begins := by
    rw [mem_iff_mem_delimiters rfl, hdelimiters]
    rcases hbegins with rfl | rfl <;> simp
  refine ⟨.unbegun hbegin hopening hbegins, ?_, fun _ => ⟨⟨e, hbegin, rfl⟩, ?_⟩, ?_, ?_, ?_, ?_, ?_⟩
  · rw [countP_of_delimits rfl, hdelimiters]
    rcases hbegins with rfl | rfl <;> decide
  · intro x hx
    rcases List.mem_append.mp hx with hx | hx
    · exact .inl (hopening x hx)
    · rcases hbegins with rfl | rfl
      · cases hx
      · exact .inr (by rw [List.mem_singleton.mp hx])
  · rw [hstatements]
    exact ⟨List.nil_prefix, nofun⟩
  · rw [countP_of_delimits rfl, hdelimiters, if_neg fun h => hnone h.1]
    rcases hbegins with rfl | rfl <;> rfl
  · rw [countP_of_delimits rfl, hdelimiters, hstatements]
    rcases hbegins with rfl | rfl <;> simp
  · rw [mem_iff_mem_delimiters rfl, hdelimiters]
    rcases hbegins with rfl | rfl <;> simp
  · intro before x after hblock hx
    have hmem : x ∈ statementsOf (opening ++ begins) :=
      List.mem_filter.mpr ⟨by simp [hblock], hx⟩
    rw [hstatements] at hmem
    cases hmem

/-- Between the beginning of a transaction and its end, the statements tell how it ends. -/
theorem transaction_of_begun {opening body : List Exchange} {last : Exchange}
    (hcourse : Course handle queries server (opening ++ (⟨.begin, true⟩ :: body ++ [last])) result
      server')
    (hopening : ∀ x ∈ opening, x.message.prepares) (hbody : ∀ x ∈ body, x.message.isStatement)
    (hordered : body.map (·.message) <+: (granted queries).map (·.message) ∧
      ∀ x ∈ body.dropLast, x.granted)
    (hend : last.message = .commit ∧ body = granted queries ∨
      last.message = .rollback ∧ ∃ x ∈ body, x.granted = false)
    (hok : result = .ok () ↔ last = ⟨.commit, true⟩) :
    Transaction handle queries server (opening ++ (⟨.begin, true⟩ :: body ++ [last])) result server' := by
  have hlast : last.message.delimits := by
    rcases hend with ⟨hmessage, -⟩ | ⟨hmessage, -⟩ <;> rw [hmessage] <;> rfl
  have hstatements := statementsOf_begun hopening hbody hlast
  have hdelimiters := delimiters_begun hopening hbody hlast
  have hwhole : body = granted queries → ¬∃ x ∈ body, x.granted = false := by
    rintro rfl ⟨x, hx, hrefused⟩
    rw [(isStatement_of_granted hx).2] at hrefused
    cases hrefused
  have hsaid : ⟨.begin, true⟩ ∈ opening ++ (⟨.begin, true⟩ :: body ++ [last]) := by simp
  refine ⟨hcourse, ?_, fun h => absurd hsaid h, ?_, ?_, ?_, ?_, ?_⟩
  · rw [countP_of_delimits rfl, hdelimiters]
    rcases hend with ⟨hmessage, -⟩ | ⟨hmessage, -⟩ <;> simp [hmessage]
  · rwa [hstatements]
  · rw [countP_of_delimits rfl, hdelimiters, hstatements]
    rcases hend with ⟨hmessage, hall⟩ | ⟨hmessage, hrefused⟩
    · rw [if_pos ⟨hsaid, hall⟩]
      simp [hmessage]
    · rw [if_neg fun h => hwhole h.2 hrefused]
      simp [hmessage]
  · rw [countP_of_delimits rfl, hdelimiters, hstatements]
    rcases hend with ⟨hmessage, hall⟩ | ⟨hmessage, hrefused⟩
    · rw [if_neg (hwhole hall)]
      simp [hmessage]
    · rw [if_pos hrefused]
      simp [hmessage]
  · rw [mem_iff_mem_delimiters rfl, hdelimiters, hok]
    simp [eq_comm]
  · intro before x after hblock hx
    obtain ⟨hbefore, hafter⟩ := enclosed_of_begun hopening hbody hlast hblock hx
    refine ⟨hbefore, last.granted, ?_⟩
    rw [hafter]
    rcases hend with ⟨hmessage, -⟩ | ⟨hmessage, -⟩
    · exact .inl (by rw [← hmessage])
    · exact .inr (by rw [← hmessage])

theorem transaction_of_committed {opening : List Exchange} {txn : Driver.Txn ν} {server₁ server₂ : ν}
    (hbegin : Driver.begin handle server = (.ok txn, server₁))
    (hopening : ∀ x ∈ opening, x.message.prepares)
    (hruns : Action.sequence (queries.map (Driver.run txn)) server₁ = (.ok (), server₂))
    (hcommit : Driver.commit txn server₂ = (result, server')) :
    Transaction handle queries server
      (opening ++ (⟨.begin, true⟩ :: granted queries ++ [⟨.commit, result.isOk⟩])) result server' := by
  have hgranted : ∀ x ∈ (granted queries).dropLast, x.granted := fun x hx =>
    (isStatement_of_granted ((List.dropLast_sublist _).subset hx)).2
  refine transaction_of_begun (.committed hbegin hopening hruns hcommit) hopening
    (fun x hx => (isStatement_of_granted hx).1) ⟨List.prefix_rfl, hgranted⟩ (.inl ⟨rfl, rfl⟩) ?_
  rcases result with e | ⟨⟩ <;> simp [Except.isOk, Except.toBool]

theorem transaction_of_rolledBack {opening refusal : List Exchange} {txn : Driver.Txn ν}
    {before after : List Query} {q : Query} {e : RemoteError} {outcome : Except RemoteError Unit}
    {server₁ server₂ server₃ : ν} (hbegin : Driver.begin handle server = (.ok txn, server₁))
    (hopening : ∀ x ∈ opening, x.message.prepares)
    (hruns : Action.sequence (before.map (Driver.run txn)) server₁ = (.ok (), server₂))
    (hfailed : Driver.run txn q server₂ = (.error e, server₃)) (hrefusal : refusal ∈ refusals q)
    (hrollback : Driver.rollback txn server₃ = (outcome, server')) :
    Transaction handle (before ++ q :: after) server
      (opening ++ (⟨.begin, true⟩ :: (granted before ++ refusal) ++ [⟨.rollback, outcome.isOk⟩]))
      (.error e) server' := by
  obtain ⟨x, hx, hrefused⟩ := exists_refused hrefusal
  refine transaction_of_begun (.rolledBack hbegin hopening rfl hruns hfailed hrefusal hrollback)
    hopening ?_ (ordered_of_refusal before after hrefusal)
    (.inr ⟨rfl, x, List.mem_append_right _ hx, hrefused⟩) (by simp)
  intro x hx
  rcases List.mem_append.mp hx with hx | hx
  · exact (isStatement_of_granted hx).1
  · exact isStatement_of_refusal hrefusal x hx

theorem Course.transaction (h : Course handle queries server block result server') :
    Transaction handle queries server block result server' := by
  cases h with
  | unbegun hbegin hopening hbegins => exact transaction_of_unbegun hbegin hopening hbegins
  | committed hbegin hopening hruns hcommit =>
    exact transaction_of_committed hbegin hopening hruns hcommit
  | rolledBack hbegin hopening hqueries hruns hfailed hrefusal hrollback =>
    subst hqueries
    exact transaction_of_rolledBack hbegin hopening hruns hfailed hrefusal hrollback

inductive Change
  | clear
  | merge (source target : Method) (kind : String)
  | classes

namespace Change

def request : Change → Request
  | clear => .clear
  | merge source target kind => .call source target kind
  | classes => .classes

def statements : Change → List Query
  | clear =>
    [⟨"MATCH (c:Class) DETACH DELETE c", []⟩, ⟨"MATCH (m:Method) DETACH DELETE m", []⟩]
  | merge source target kind =>
    [⟨Query.addEdge,
      [("src_sig", source.signature), ("src_name", source.name),
        ("src_class", shortNameOf source.owner), ("src_package", source.package),
        ("tgt_sig", target.signature), ("tgt_name", target.name),
        ("tgt_class", shortNameOf target.owner), ("tgt_package", target.package),
        ("kind", kind)]⟩]
  | classes => [⟨Query.classDependency, []⟩]

end Change

theorem store_change (handle : Driver.Handle ν) (server : ν) (change : Change) :
    store change.request (⟨some handle⟩, server) =
      (((transaction change.statements handle server).1.mapError .remote), ⟨some handle⟩,
        (transaction change.statements handle server).2) := by
  cases change <;> rfl

/-- Changes one after another, each with what is said for it and what comes of it. -/
inductive Transactions (said : ν → List Exchange) (handle : Driver.Handle ν) :
    ν → List Change → List (List Exchange) → List (Except StoreError Unit) → ν → Prop
  | none (server : ν) : Transactions said handle server [] [] [] server
  | next {server server' last : ν} {change : Change} {changes : List Change}
      {block : List Exchange} {blocks : List (List Exchange)} {result : Except RemoteError Unit}
      {results : List (Except StoreError Unit)}
      (hstore : store change.request (⟨some handle⟩, server) =
        (result.mapError .remote, ⟨some handle⟩, server'))
      (hsaid : said server' = said server ++ block)
      (htransaction : Transaction handle change.statements server block result server')
      (hmore : Transactions said handle server' changes blocks results last) :
      Transactions said handle server (change :: changes) (block :: blocks)
        (result.mapError .remote :: results) last

theorem exists_transactions (h : Driver.Documented ν said) (handle : Driver.Handle ν) (server : ν)
    (changes : List Change) :
    ∃ blocks results server', Transactions said handle server changes blocks results server' := by
  induction changes generalizing server with
  | nil => exact ⟨[], [], server, .none server⟩
  | cons change changes ih =>
    obtain ⟨block, result, server₁, hrun, hsaid, hcourse⟩ :=
      transaction_course h handle change.statements server
    have hstore := store_change handle server change
    rw [hrun] at hstore
    obtain ⟨blocks, results, server', hmore⟩ := ih server₁
    exact ⟨_, _, server', .next hstore hsaid hcourse.transaction hmore⟩

theorem Transactions.said_eq {changes : List Change} {blocks : List (List Exchange)}
    {results : List (Except StoreError Unit)}
    (h : Transactions said handle server changes blocks results server') :
    said server' = said server ++ blocks.flatten := by
  induction h with
  | none server => exact (List.append_nil _).symm
  | next _ hsaid _ _ ih => rw [ih, hsaid, List.append_assoc, List.flatten_cons]

theorem Transactions.each_eq {changes : List Change} {blocks : List (List Exchange)}
    {results : List (Except StoreError Unit)}
    (h : Transactions said handle server changes blocks results server') :
    Action.each ((changes.map Change.request).map store) (⟨some handle⟩, server) =
      (results, ⟨some handle⟩, server') := by
  induction h with
  | none server => rfl
  | next hstore _ _ _ ih => simp only [List.map_cons, Action.each, hstore, ih]

/-- What becomes of a request when the session is closed. -/
def afterwards (request : Request) : Except StoreError Unit :=
  if request = .close then .ok () else .error .closed

theorem each_closed (server : ν) (requests : List Request) :
    Action.each (requests.map store) (⟨none⟩, server) =
      (requests.map afterwards, ⟨none⟩, server) := by
  induction requests with
  | nil => rfl
  | cons request requests ih =>
    have hfirst : store request (⟨none⟩, server) = (afterwards request, ⟨none⟩, server) := by
      cases request <;> rfl
    simp only [List.map_cons, Action.each, hfirst, ih]

/-- Whatever library is used: each change is a transaction of its own, and the library is not called any
more once the session is closed. -/
theorem changes_separate (h : Driver.Documented ν said) (handle : Driver.Handle ν) (server : ν)
    (changes : List Change) :
    ∃ blocks results server', Transactions said handle server changes blocks results server' ∧
      Action.each ((changes.map Change.request).map store) (⟨some handle⟩, server) =
        (results, ⟨some handle⟩, server') ∧
      said server' = said server ++ blocks.flatten ∧
      ∀ more : List Request, Action.each ((.close :: more).map store) (⟨some handle⟩, server') =
        (.ok () :: more.map afterwards, ⟨none⟩, Driver.release handle server') := by
  obtain ⟨blocks, results, server', htransactions⟩ := exists_transactions h handle server changes
  refine ⟨blocks, results, server', htransactions, htransactions.each_eq, htransactions.said_eq,
    fun more => ?_⟩
  have hmore := each_closed (Driver.release handle server') more
  simp only [List.map_cons, Action.each, store, close, hmore]

/-- A server that refuses the second statement of the second change. -/
def refusingServer : Server where
  unreachable? := none
  version := Server.protocol
  reply name number :=
    if name = "RUN" ∧ number = 2 ∨ name = "ROLLBACK"
      then .failure "Neo.ClientError.General.Refused" ("no " ++ name) else .success
  received := []

def localAccess : Access :=
  ⟨⟨"bolt", "localhost", none⟩, "neo4j", "12345"⟩

def twoChanges : List Change :=
  [.merge (.inOwnPackage "p.A" "f" "f()") (.inOwnPackage "q.B" "g" "g()") "STATIC", .clear]

def twoBlocks : List (List Exchange) :=
  [[⟨.hello "neo4j" "12345", true⟩, ⟨.begin, true⟩,
      ⟨.run ⟨Query.addEdge,
        [("src_sig", "f()"), ("src_name", "f"), ("src_class", "A"), ("src_package", "p"),
          ("tgt_sig", "g()"), ("tgt_name", "g"), ("tgt_class", "B"), ("tgt_package", "q"),
          ("kind", "STATIC")]⟩, true⟩,
      ⟨.discard, true⟩, ⟨.commit, true⟩],
    [⟨.reset, true⟩, ⟨.begin, true⟩, ⟨.run ⟨"MATCH (c:Class) DETACH DELETE c", []⟩, true⟩, ⟨.discard, true⟩,
      ⟨.run ⟨"MATCH (m:Method) DETACH DELETE m", []⟩, false⟩, ⟨.rollback, false⟩]]

theorem changes_separate_refused :
    Driver.Documented Server Server.exchanges ∧ ∃ blocks server',
      Transactions Server.exchanges localAccess refusingServer twoChanges blocks
        [.ok (), .error (.remote (.server "Neo.ClientError.General.Refused" "no RUN"))] server' ∧
      blocks.flatten = twoBlocks.flatten := by
  obtain ⟨blocks, results, server', htransactions, heach, hsaid, -⟩ :=
    changes_separate Server.documented localAccess refusingServer twoChanges
  have hresults : (Action.each ((twoChanges.map Change.request).map store)
      (⟨some localAccess⟩, refusingServer)).1 =
        [.ok (), .error (.remote (.server "Neo.ClientError.General.Refused" "no RUN"))] := by
    decide +kernel
  have hlog : (Action.each ((twoChanges.map Change.request).map store)
      (⟨some localAccess⟩, refusingServer)).2.2.exchanges = twoBlocks.flatten := by
    decide +kernel
  rw [heach] at hresults hlog
  exact ⟨Server.documented, blocks, server', hresults ▸ htransactions, hsaid.symm.trans hlog⟩

end Session
end CallGraph.Remote
