import GraphMapping.LoadResult
import GraphMapping.Record
import GraphMapping.Statement

/-!
# Actions on a database

A database is seen through a `Server`, which begins, ends and runs statements in one transaction at a
time.  Any call may fail, give any answer, or never come back.  An action works on the state behind the
server; `transaction` runs an action between a begin and exactly one commit or rollback.
-/

namespace GraphMapping

/-- How a call ends. -/
inductive Reply (α : Type) where
  /-- With a result. -/
  | ok (value : α)
  /-- With an error. -/
  | error (e : Error)
  /-- Not at all. -/
  | hang

namespace Reply

/-- The reply with its result replaced by the image under `f`. -/
def map {α β : Type} (f : α → β) : Reply α → Reply β
  | .ok a => .ok (f a)
  | .error e => .error e
  | .hang => .hang

/-- The reply that a pure computation amounts to. -/
def ofExcept {α : Type} : Except Error α → Reply α
  | .ok a => .ok a
  | .error e => .error e

end Reply

/-- A computation that works on a state and ends with a reply. -/
def Action (ω α : Type) : Type := ω → Reply α × ω

namespace Action

variable {ω α β : Type}

/-- Give a result and leave the state alone. -/
protected def pure (a : α) : Action ω α := fun w => (.ok a, w)

/-- Go on with the result, if there is one. -/
protected def bind (x : Action ω α) (f : α → Action ω β) : Action ω β := fun w =>
  match x w with
  | (.ok a, w) => f a w
  | (.error e, w) => (.error e, w)
  | (.hang, w) => (.hang, w)

instance : Monad (Action ω) where
  pure := Action.pure
  bind := Action.bind

/-- The reply of an action and the state it leaves. -/
def run (x : Action ω α) (w : ω) : Reply α × ω := x w

/-- Fail. -/
def fail (e : Error) : Action ω α := fun w => (.error e, w)

/-- Do what a pure computation says. -/
def ofExcept (x : Except Error α) : Action ω α := fun w => (.ofExcept x, w)

/-- Replace the error of an action by its image under `f`. -/
def mapError (f : Error → Error) (x : Action ω α) : Action ω α := fun w =>
  match x w with
  | (.error e, w) => (.error (f e), w)
  | other => other

/-- Bound the time of an action: one that never comes back ends with a timeout. -/
def within (limit : Duration) (x : Action ω α) : Action ω α := fun w =>
  match x w with
  | (.hang, w) => (.error (.timeout limit), w)
  | other => other

end Action

/-- A database as the mapping sees it. -/
structure Server (δ : Type) where
  begin : Action δ Unit
  /-- Run a statement and give back its rows. -/
  run : Statement → Action δ (List Record)
  /-- Run a load statement and give back its answer. -/
  fetch : Statement → Action δ LoadResult
  commit : Action δ Unit
  rollback : Action δ Unit

namespace Server

variable {δ α : Type}

/-- Roll back after an error.  The error stays the same whether or not the rollback succeeds. -/
def abandon (s : Server δ) (e : Error) : Action δ α := fun d =>
  match s.rollback d with
  | (.hang, d) => (.hang, d)
  | (_, d) => (.error e, d)

/-- Run an action in a transaction of its own: committed if the action succeeds, else rolled back. -/
def transaction (s : Server δ) (work : Action δ α) : Action δ α := do
  s.begin
  -- Only an error is answered by a rollback: work that never comes back leaves the transaction open.
  let result ← fun d =>
    match work d with
    | (.error e, d) => s.abandon e d
    | other => other
  s.commit
  return result

/-- The statement that checks a connection. -/
def pingStatement : Statement :=
  (Statement.plain .admin "RETURN 1 AS ok").returning ["ok"]

/-- Check that the database answers.  A transaction whose statement fails is dropped as it is. -/
def ping (s : Server δ) : Action δ Unit := do
  s.begin
  let rows ← s.run pingStatement
  s.commit
  match rows.head?.bind (Record.int? · "ok") with
  | some 1 => return ()
  | _ => Action.fail (.internal "unexpected ping response")

end Server

/-- A server for one database, by name or the server's default. -/
structure Target (δ : Type) where
  database : Option String
  server : Server δ

/-- The name of a target in reports. -/
def Target.name {δ : Type} (t : Target δ) : String :=
  t.database.getD "default"

/-- One thing that a server was asked to do. -/
inductive Event where
  | begin
  | run (statement : Statement)
  | fetch (statement : Statement)
  | commit
  | rollback

/-- The server that also keeps a record of what it was asked to do, latest first. -/
def Server.recorded {δ : Type} (s : Server δ) : Server (δ × List Event) :=
  let note {α : Type} (event : Event) (x : Action δ α) : Action (δ × List Event) α := fun (d, seen) =>
    let (reply, d) := x d
    (reply, (d, event :: seen))
  { begin := note .begin s.begin
    run := fun statement => note (.run statement) (s.run statement)
    fetch := fun statement => note (.fetch statement) (s.fetch statement)
    commit := note .commit s.commit
    rollback := note .rollback s.rollback }

end GraphMapping
