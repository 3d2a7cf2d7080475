import GraphMapping.Database.Action

/-!
# Scripted databases

A scripted database stands in for a real one.  It numbers the nodes written to it, answers every
statement in a default way, and can be told to fail, to answer otherwise, or never to answer.
-/

namespace GraphMapping

/-- The state of a scripted database. -/
structure Script where
  /-- Statements containing a text fail with an error; the first match counts. -/
  faults : List (String × Error)
  beginFault : Option Error
  commitFault : Option Error
  rollbackFault : Option Error
  /-- Statements containing this text are never answered. -/
  silent : Option String
  /-- The answers of the next statements, `none` for the default one. -/
  replies : List (Option (List Record))
  /-- The answers of the next load statements. -/
  results : List LoadResult
  constraints : List Record
  indexes : List Record
  /-- Relationship batches containing this text report one relationship less. -/
  short : Option String
  /-- Node batches containing this text lose their last row. -/
  dropRow : Option String
  /-- The number given to a node last. -/
  lastId : Int64
  /-- The numbers of the nodes, by key. -/
  ids : Dict Int64

namespace Script

/-- A new database. -/
def new : Script where
  faults := []
  beginFault := none
  commitFault := none
  rollbackFault := none
  silent := none
  replies := []
  results := []
  constraints := []
  indexes := []
  short := none
  dropRow := none
  lastId := 0
  ids := []

/-- Whether a statement contains a text. -/
def mentions (s : Statement) (fragment : String) : Bool :=
  Text.occursIn fragment.toList s.text.toList

/-- Whether a statement contains a text that may be given. -/
def concerns (s : Statement) : Option String → Bool
  | none => false
  | some fragment => mentions s fragment

/-- The number of the node with a key: its own, or a new one. -/
def number (script : Script) (key : String) : Int64 × Script :=
  match script.ids.find? key with
  | some id => (id, script)
  | none =>
      let id := script.lastId + 1
      (id, { script with lastId := id, ids := script.ids.insert key id })

/-- Write one row of a node batch. -/
def writeRow (script : Script) (row : Value) : Option Record × Script :=
  match row with
  | .map entries =>
      match (Dict.find? entries "key").bind Value.key? with
      | none => (none, script)
      | some key =>
          let (id, script) := match (Dict.find? entries "id").bind Value.int? with
            | some id => (id, script)
            | none => script.number key
          (some [("id", .int id), ("key", .string key)], script)
  | _ => (none, script)

/-- Write the rows of a node batch. -/
def writeRows (script : Script) : List Value → List Record × Script
  | [] => ([], script)
  | row :: rest =>
      let (record, script) := script.writeRow row
      let (records, script) := script.writeRows rest
      (record.toList ++ records, script)

/-- The default answer of a statement. -/
def answer (script : Script) (s : Statement) : List Record × Script :=
  match s.kind with
  | .nodeUpsert =>
      let (records, script) := script.writeRows s.batch
      (if concerns s script.dropRow then records.dropLast else records, script)
  | .relationshipUpsert =>
      let written := Int64.ofNat s.batch.length - (if concerns s script.short then 1 else 0)
      ([[("written", .int written)]], script)
  | .delete => ([[("deleted", .int 1)]], script)
  | .admin => ([[("ok", .int 1)]], script)
  | .schemaListing =>
      (if "SHOW CONSTRAINTS".toList.isPrefixOf s.text.toList then script.constraints
       else script.indexes, script)
  | .load | .schemaChange => ([], script)

/-- Answer a statement, unless it is told to fail or to stay without an answer. -/
def unlessTold {α : Type} (s : Statement) (x : Action Script α) : Action Script α := fun script =>
  match script.faults.find? fun (fragment, _) => mentions s fragment with
  | some (_, e) => (.error e, script)
  | none => if concerns s script.silent then (.hang, script) else x script

/-- End a call with an error, if there is one. -/
def orFault (fault : Script → Option Error) : Action Script Unit := fun script =>
  match fault script with
  | some e => (.error e, script)
  | none => (.ok (), script)

/-- The scripted database as a server. -/
def server : Server Script where
  begin := orFault (·.beginFault)
  run s := unlessTold s fun script =>
    -- A prepared reply is used up also where it asks for the default answer.
    let (reply, script) := match script.replies with
      | [] => (none, script)
      | reply :: rest => (reply, { script with replies := rest })
    match reply with
    | some rows => (.ok rows, script)
    | none =>
        let (rows, script) := script.answer s
        (.ok rows, script)
  fetch s := unlessTold s fun script =>
    match script.results with
    | [] => (.ok .empty, script)
    | result :: rest => (.ok result, { script with results := rest })
  commit := orFault (·.commitFault)
  rollback := orFault (·.rollbackFault)

end Script

/-- The server as one among several: `read` and `write` give access to its state in the whole. -/
def Server.within {ω δ : Type} (s : Server δ) (read : ω → δ) (write : δ → ω → ω) : Server ω :=
  let lift {α : Type} (x : Action δ α) : Action ω α := fun w =>
    let (reply, d) := x (read w)
    (reply, write d w)
  { begin := lift s.begin
    run := fun statement => lift (s.run statement)
    fetch := fun statement => lift (s.fetch statement)
    commit := lift s.commit
    rollback := lift s.rollback }

end GraphMapping
