import Tenancy.Error
import Tenancy.Program
import Tenancy.Sql.Statement

/-!
# Tenancy - Connections to a database

A session is a program over a connection: it begins and ends transactions, runs
queries that return rows and commands that return how many rows they touched.
Any of these can fail.

Main definitions:

- `Sql.Request`, `Sql.Session`: requests to a connection, and programs over them.
- `Sql.Failure`: how a connection fails a request, and what the store makes of it.
- `Sql.transaction`: all or nothing.
- `Sql.Script`, `Sql.Script.perform`: a connection whose replies are laid down in
  advance, with a log of what reached it.
-/

namespace Tenancy
namespace Sql

/-- A row by column names. -/
abbrev Row := List (String × Value)

/-- A request to a connection. -/
inductive Request
  | begin
  | commit
  | rollback
  | query (statement : Statement)
  | execute (statement : Statement)

/-- How a connection fails a request, in its own words. -/
inductive Failure
  /-- A row with the same unique key is there already. -/
  | uniqueViolation (detail : String)
  | other (text : String)

/-- The store's failure for a failure of the connection; a key that is taken is a conflict. -/
def Failure.storeError : Failure → StoreError
  | .uniqueViolation detail => .conflict detail
  | .other text => .database text

/-- What each request replies. -/
@[reducible]
def Request.Reply : Request → Type
  | .begin => Except Failure Unit
  | .commit => Except Failure Unit
  | .rollback => Unit
  | .query _ => Except Failure (List Row)
  | .execute _ => Except Failure Nat

/-- A program over a connection that may fail. -/
abbrev Session := ExceptT StoreError (Program Request Request.Reply)

namespace Session

/-- A reply as the store passes it on. -/
def ofReply {α : Type} (reply : Except Failure α) : Except StoreError α :=
  reply.mapError Failure.storeError

/-- Begin a transaction. -/
def begin : Session Unit :=
  ExceptT.mk (Program.ask .begin fun reply => .done (ofReply reply))

/-- Make the transaction's writes final. -/
def commit : Session Unit :=
  ExceptT.mk (Program.ask .commit fun reply => .done (ofReply reply))

/-- Take the transaction's writes back. -/
def rollback : Session Unit :=
  ExceptT.mk (Program.ask .rollback fun _ => .done (.ok ()))

/-- Run a query and return its rows. -/
def query (statement : Statement) : Session (List Row) :=
  ExceptT.mk (Program.ask (.query statement) fun reply => .done (ofReply reply))

/-- Run a command and return how many rows it touched. -/
def execute (statement : Statement) : Session Nat :=
  ExceptT.mk (Program.ask (.execute statement) fun reply => .done (ofReply reply))

/-- Insert rows; an insertion that touches no row has failed. -/
def insert (table : Table) (rows : List (List Value)) : Session Unit := do
  let touched ← execute (.insert table rows)
  if touched = 0 then throw (Failure.other "None of the records are inserted").storeError
  else pure ()

/-- Fail with the error of a reading. -/
def check {α : Type} : Except StoreError α → Session α
  | .ok value => pure value
  | .error error => throw error

end Session

/-- Run a session as one transaction: commit if it succeeds, roll back if it fails. -/
def transaction {α : Type} (body : Session α) : Session α := do
  Session.begin
  let result ← (ExceptT.lift body.run : Session (Except StoreError α))
  match result with
  | .ok value => do
    Session.commit
    pure value
  | .error error => do
    Session.rollback
    throw error

/-! ## Scripted connections -/

/-- A reply laid down in advance. -/
inductive ScriptedReply
  | rows (rows : List Row)
  | affected (count : Nat)
  | error (text : String)

/-- A connection with the replies it has left and the requests that reached it, latest first. -/
structure Script where
  replies : List ScriptedReply
  log : List Request

namespace Script

/-- The failure with a scripted text; its class is not known. -/
def failureOf (text : String) : Failure :=
  .other ("Custom Error: " ++ text)

/-- The next reply, and the replies after it. -/
def next (script : Script) : Option ScriptedReply × List ScriptedReply :=
  match script.replies with
  | reply :: rest => (some reply, rest)
  | [] => (none, [])

/-- The rows that a reply gives to a query; a query without a reply gets none. -/
def rowsOf : Option ScriptedReply → Except Failure (List Row)
  | some (.rows rows) => .ok rows
  | some (.error text) => .error (failureOf text)
  | _ => .ok []

/-- The count that a reply gives to a command; a command without a reply touches no row. -/
def countOf : Option ScriptedReply → Except Failure Nat
  | some (.affected count) => .ok count
  | some (.error text) => .error (failureOf text)
  | _ => .ok 0

/-- Reply to a request and log it; only statements take a scripted reply. -/
def perform : (request : Request) → Script → request.Reply × Script
  | .begin, script => (.ok (), { script with log := .begin :: script.log })
  | .commit, script => (.ok (), { script with log := .commit :: script.log })
  | .rollback, script => ((), { script with log := .rollback :: script.log })
  | .query statement, script =>
    let (reply, rest) := script.next
    (rowsOf reply, { replies := rest, log := .query statement :: script.log })
  | .execute statement, script =>
    let (reply, rest) := script.next
    (countOf reply, { replies := rest, log := .execute statement :: script.log })

/-- Run a session over scripted replies; return its result and what reached the connection. -/
def run {α : Type} (session : Session α) (replies : List ScriptedReply) :
    Except StoreError α × List Request :=
  let (result, script) := Program.run perform session.run { replies := replies, log := [] }
  (result, script.log.reverse)

end Script
end Sql
end Tenancy
