import CallGraph.Json.Value
import CallGraph.Remote.Address
import CallGraph.Remote.Driver

/-!
A server that answers by a script, together with a plain client for it: one connection, which is opened by
a greeting, kept, and reset before it is used again. It stands in for a library where there is no network,
and in examples.
-/
namespace CallGraph.Remote

inductive Message
  | hello (user password : String)
  | begin
  | run (query : Query)
  | discard
  | pull
  | commit
  | rollback
  | reset
  deriving DecidableEq, Repr

def Message.name : Message → String
  | .hello _ _ => "HELLO"
  | .begin => "BEGIN"
  | .run _ => "RUN"
  | .discard => "DISCARD"
  | .pull => "PULL"
  | .commit => "COMMIT"
  | .rollback => "ROLLBACK"
  | .reset => "RESET"

inductive Reply
  | success
  | failure (code message : String)
  | rows (fields : List String) (rows : List (List Json.Value))
  deriving Repr

def Reply.isSuccess : Reply → Bool
  | .failure _ _ => false
  | _ => true

/-- A message, and whether it was answered with success; one without an answer was not. -/
structure Exchange where
  message : Message
  granted : Bool
  deriving DecidableEq, Repr

/-- A server: why it cannot be reached, if so; the protocol version it speaks; its answer to each
message by name and number; and the messages it has received. -/
structure Server where
  unreachable? : Option IoError
  version : Nat
  reply : (name : String) → (number : Nat) → Reply
  received : List Message

/-- What the client needs to know of a server. -/
structure Access where
  address : Address
  user : String
  password : String
  deriving DecidableEq, Repr

namespace Server

/-- The version of the protocol that messages are written in. -/
def protocol : Nat := 260

/-- The answer to a message that comes after others. -/
def answer (reply : String → Nat → Reply) (earlier : List Message) (m : Message) : Reply :=
  reply m.name (earlier.countP (·.name == m.name))

/-- Messages, the last of which comes first, in their order and with what is answered to each. -/
def answered (reply : String → Nat → Reply) : List Message → List Exchange
  | [] => []
  | m :: earlier => answered reply earlier ++ [⟨m, (answer reply earlier m).isSuccess⟩]

/-- All that a server has been told. -/
def exchanges (server : Server) : List Exchange :=
  answered server.reply server.received.reverse

def hear (server : Server) (m : Message) : Server :=
  { server with received := server.received ++ [m] }

def send (m : Message) : Action Server RemoteError Reply := fun server =>
  match answer server.reply server.received m with
  | .failure code text => (.error (.server code text), server.hear m)
  | reply => (.ok reply, server.hear m)

/-- Whether the server has accepted a greeting. -/
def isGreeted (server : Server) : Bool :=
  server.exchanges.any fun x => x.granted && x.message.name == "HELLO"

/-- Makes the connection ready. -/
def reach (access : Access) : Action Server RemoteError Unit := fun server =>
  match server.unreachable? with
  | some cause => (.error (.io cause), server)
  | none =>
    if server.version ≠ protocol then (.error (.unsupportedVersion server.version), server)
    else if server.isGreeted then ((send .reset).andThen fun _ => Action.done) server
    else ((send (.hello access.user access.password)).andThen fun _ => Action.done) server

def run (query : Query) : Action Server RemoteError Unit :=
  (send (.run query)).andThen fun _ => (send .discard).andThen fun _ => Action.done

/-- A row with the names of its columns. -/
abbrev Row := List String × List Json.Value

def ask (query : Query) : Action Server RemoteError (List Row) :=
  (send (.run query)).andThen fun reply => (send .pull).andThen fun _ server =>
    match reply with
    | .rows fields rows => (.ok (rows.map (fields, ·)), server)
    | _ => (.ok [], server)

def cell? (row : Row) (column : String) : Option Json.Value :=
  ((row.1.zip row.2).find? (·.1 == column)).map (·.2)

def text (row : Row) (column : String) : Except String String :=
  match cell? row column with
  | some (.text s) => .ok s
  | some _ => .error "invalid type"
  | none => .error "no such property"

def number (row : Row) (column : String) : Except String Int64 :=
  match cell? row column with
  | some (.number literal) =>
    match literal.toInt? with
    | some n => .ok (Int64.ofInt n)
    | none => .error "invalid type"
  | some _ => .error "invalid type"
  | none => .error "no such property"

end Server

@[default_instance]
instance : Driver Server where
  Handle := Access
  Txn := Unit
  Row := Server.Row
  connect address user password := (Address.parse address).map (⟨·, user, password⟩)
  begin access := (Server.reach access).andThen fun _ => (Server.send .begin).andThen fun _ => Action.done
  run _ query := Server.run query
  commit _ := (Server.send .commit).andThen fun _ => Action.done
  rollback _ := (Server.send .rollback).andThen fun _ => Action.done
  runAlone access query := (Server.reach access).andThen fun _ => Server.run query
  ask access query := (Server.reach access).andThen fun _ => Server.ask query
  text := Server.text
  number := Server.number
  release _ server := server

end CallGraph.Remote
