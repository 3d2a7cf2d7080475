import GraphMapping.Admin.Invocation
import GraphMapping.Admin.Report

/-!
# Administration

The command line checks that all configured databases answer, lists their schemas, and drops them.  A
failure is reported with its causes, and what was printed before it stays.
-/

namespace GraphMapping.Admin

/-- What a command has printed, and why it failed if it did. -/
structure Outcome where
  printed : List String
  failure : Option Report
deriving DecidableEq, Repr

variable {δ : Type}

/-- Do something with every target in turn; it gives lines to print, or the report of a failure. -/
def forTargets (work : Target δ → δ → Except Report (List String) × δ) :
    List (Target δ) → δ → Outcome × δ
  | [], d => (⟨[], none⟩, d)
  | t :: rest, d =>
      match work t d with
      | (.error report, d) => (⟨[], some report⟩, d)
      | (.ok lines, d) =>
          let (outcome, d) := forTargets work rest d
          ({ outcome with printed := lines ++ outcome.printed }, d)

/-- Turn the reply of an action into lines to print; a call that never returns prints nothing. -/
def conclude {α : Type} (report : Error → Report) (lines : α → List String) (x : Action δ α) :
    δ → Except Report (List String) × δ := fun d =>
  match x d with
  | (.ok a, d) => (.ok (lines a), d)
  | (.error e, d) => (.error (report e), d)
  | (.hang, d) => (.ok [], d)

/-- The line of a listed item. -/
def itemLine (i : LiveItem) : String :=
  "  " ++ (if i.isConstraint then "constraint" else "index") ++ " " ++ i.name ++ " (" ++ i.kind ++ ")" ++
    match i.item with
    | some item => ": " ++ item.statement
    | none => ""

/-- Carry out a command on all targets. -/
def perform (targets : List (Target δ)) : Command → δ → Outcome × δ
  | .ping => forTargets (fun t => conclude (Report.inContext ("Ping failed on '" ++ t.name ++ "'"))
      (fun _ => [t.name ++ ": ok"]) t.server.ping) targets
  | .schemaShow => forTargets (fun t => conclude Report.ofError
      (fun schema => (t.name ++ ":") :: schema.items.map itemLine) (Schema.live t.server)) targets
  | .schemaDrop true => forTargets (fun t => conclude Report.ofError
      (fun n => [t.name ++ ": dropped " ++ toString n ++ " items"]) (Schema.dropAll t.server)) targets
  | .schemaDrop false => fun d =>
      (⟨[], some ⟨"Refusing to drop the schema without --yes", []⟩⟩, d)

/-- Prepare the connections in order; a failure names its database. -/
def connect : List ConnectionSettings → Option Report
  | [] => none
  | c :: rest =>
      match Connection.connect c with
      | .ok _ => connect rest
      | .error e =>
          some (Report.inContext ("Failed to connect to database '" ++ c.database.getD "default" ++ "'") e)

/-- Carry out an invocation with the given settings. -/
def run (settings : Except SettingsError Settings) (command : Command)
    (server : ConnectionSettings → Server δ) (d : δ) : Outcome × δ :=
  match settings with
  | .error e => (⟨[], some (.ofSettings e)⟩, d)
  | .ok s =>
      match connect s.connections with
      | some report => (⟨[], some report⟩, d)
      | none => perform (s.connections.map fun c => ⟨c.database, server c⟩) command d

/-- The text that an outcome prints. -/
def Outcome.output (o : Outcome) : String :=
  String.join (o.printed.map (· ++ "\n"))

/-- The text that reports a failure, empty if there is none. -/
def Outcome.errors (o : Outcome) : String :=
  (o.failure.map Report.text).getD ""

/-- The exit status: 1 after a failure. -/
def Outcome.status (o : Outcome) : Nat :=
  if o.failure.isSome then 1 else 0

end GraphMapping.Admin
