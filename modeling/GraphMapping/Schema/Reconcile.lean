import GraphMapping.Schema.Live
import GraphMapping.Value.Json

/-!
# Reconciling schemas

The declared items are compared with what a database lists; they can be created, and everything listed
can be dropped.  Each operation works on one database in transactions of its own.  A policy says what to
do with all configured databases at the start.
-/

namespace GraphMapping

namespace Schema

variable {δ : Type}

/-- The constraints and indexes of a database. -/
def live (server : Server δ) : Action δ LiveSchema := do
  let (constraints, indexes) ← server.transaction do
    let constraints ← server.run LiveSchema.showConstraints
    let indexes ← server.run LiveSchema.showIndexes
    return (constraints, indexes)
  Action.ofExcept (LiveSchema.ofRows constraints indexes)

/-- Run statements in one transaction, if there are any; the result is their number. -/
def runAll (server : Server δ) (statements : List Statement) : Action δ Nat :=
  if statements.isEmpty then pure 0
  else do
    server.transaction (statements.forM fun s => do
      let _ ← server.run s)
    return statements.length

/-- Drop everything that a database lists. -/
def dropAll (server : Server δ) : Action δ Nat := do
  let schema ← live server
  runAll server (schema.items.map LiveItem.removal)

/-- Create the declared items that do not exist. -/
def create (registry : Registry) (server : Server δ) : Action δ Nat :=
  runAll server ((SchemaItem.expected registry).map SchemaItem.creation)

/-- Compare declared and listed items: an error names the differences. -/
def compare (expected managed : List SchemaItem) : Except Error Unit :=
  let missing := expected.filter (!managed.contains ·)
  let unexpected := managed.filter (!expected.contains ·)
  if missing.isEmpty && unexpected.isEmpty then .ok ()
  else .error (.schemaMismatch (missing.map SchemaItem.statement)
    (unexpected.map SchemaItem.statement))

/-- Check that a database has exactly the declared items. -/
def verify (registry : Registry) (server : Server δ) : Action δ Unit := do
  let schema ← live server
  Action.ofExcept (compare (SchemaItem.expected registry) schema.managed)

end Schema

/-- What to do with the schemas at the start. -/
inductive SchemaPolicy where
  /-- Leave them alone. -/
  | ignore
  /-- Fail where they differ from the declarations. -/
  | validate
  /-- Drop everything, create what is declared, then validate. -/
  | assert
deriving DecidableEq, Repr

namespace SchemaPolicy

/-- The name of a policy. -/
def name : SchemaPolicy → String
  | .ignore => "ignore"
  | .validate => "validate"
  | .assert => "assert"

/-- The policy with exactly the given name. -/
def ofExactName? (text : String) : Option SchemaPolicy :=
  if text = "ignore" then some .ignore
  else if text = "validate" then some .validate
  else if text = "assert" then some .assert
  else none

/-- The policy in a JSON tree: its exact name, or an object with that name and null. -/
def ofJson? : Json → Option SchemaPolicy
  | .string text => ofExactName? text
  | .object [(text, .null)] => ofExactName? text
  | _ => none

/-- The policy with the given name, in any case of its letters and between blanks. -/
def ofName (text : String) : Except Error SchemaPolicy :=
  let word := String.ofList (Text.lower (Text.trim text.toList))
  match ofExactName? word with
  | some policy => .ok policy
  | none => .error (.configuration ("unknown index strategy '" ++ word ++
      "' (expected ignore, validate or assert)"))

variable {δ : Type}

/-- Apply a policy to one database. -/
def applyTo (policy : SchemaPolicy) (registry : Registry) (server : Server δ) : Action δ Unit :=
  match policy with
  | .ignore => pure ()
  | .validate => Schema.verify registry server
  | .assert => do
      let _ ← Schema.dropAll server
      let _ ← Schema.create registry server
      Schema.verify registry server

/-- Apply a policy to all databases in order, until one fails. -/
def apply (policy : SchemaPolicy) (registry : Registry) (targets : List (Target δ)) :
    Action δ Unit :=
  targets.forM fun t => policy.applyTo registry t.server

end SchemaPolicy

end GraphMapping
