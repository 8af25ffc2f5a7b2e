import CallGraph.Error
import CallGraph.Remote.Query
import CallGraph.Step

/-!
Client libraries for graph servers, by the calls that a session makes of them. Any library will do: what
a session relies on is said where it is used.
-/
namespace CallGraph.Remote

/-- A client library. Its state `ν` includes the connections and the servers at their other ends, so an
answer may depend on all that has been said before. -/
class Driver (ν : Type) where
  /-- A handle on a server, for which connections are opened and kept. -/
  Handle : Type
  /-- A transaction that has begun. -/
  Txn : Type
  /-- A row of an answer. -/
  Row : Type
  /-- Makes a handle; no connection is opened before one is needed. -/
  connect : (address user password : String) → Except RemoteError Handle
  begin : Handle → Action ν RemoteError Txn
  run : Txn → Query → Action ν RemoteError Unit
  commit : Txn → Action ν RemoteError Unit
  rollback : Txn → Action ν RemoteError Unit
  /-- Runs a statement without a transaction that has begun. -/
  runAlone : Handle → Query → Action ν RemoteError Unit
  /-- Asks a question and fetches every row of the answer. -/
  ask : Handle → Query → Action ν RemoteError (List Row)
  /-- The text in a column of a row, or what is wrong with the column. -/
  text : Row → (column : String) → Except String String
  number : Row → (column : String) → Except String Int64
  /-- Lets a handle go, and its connections with it. -/
  release : Handle → ν → ν

end CallGraph.Remote
