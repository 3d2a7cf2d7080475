import GraphMapping.Text.Blank
import GraphMapping.Value

/-!
# Statements

A statement is a text with named parameters and the columns that its caller reads back.  Values travel
as parameters only, never in the text.
-/

namespace GraphMapping

/-- What a statement does. -/
inductive StatementKind where
  /-- Writes a batch of nodes and gives back key and id of each row. -/
  | nodeUpsert
  /-- Writes a batch of relationships and gives back their number. -/
  | relationshipUpsert
  /-- Loads nodes and what is connected to them. -/
  | load
  /-- Deletes nodes with their relationships. -/
  | delete
  /-- Lists constraints or indexes. -/
  | schemaListing
  /-- Creates or drops a constraint or an index. -/
  | schemaChange
  /-- Checks the connection. -/
  | admin
deriving DecidableEq, Repr

/-- The name of a kind of statement. -/
def StatementKind.name : StatementKind → String
  | .nodeUpsert => "node upsert"
  | .relationshipUpsert => "relationship upsert"
  | .load => "load"
  | .delete => "delete"
  | .schemaListing => "schema listing"
  | .schemaChange => "schema change"
  | .admin => "admin"

/-- A statement with its parameters and the columns to read. -/
structure Statement where
  kind : StatementKind
  text : String
  params : Dict Value
  columns : List String

namespace Statement

/-- A statement without parameters and columns. -/
def plain (kind : StatementKind) (text : String) : Statement :=
  ⟨kind, text, [], []⟩

/-- Bind one parameter. -/
def bind (s : Statement) (name : String) (value : Value) : Statement :=
  { s with params := s.params.insert name value }

/-- Bind several parameters. -/
def bindAll (s : Statement) (more : Dict Value) : Statement :=
  { s with params := s.params.merge more }

/-- Declare the columns to read. -/
def returning (s : Statement) (columns : List String) : Statement :=
  { s with columns := columns }

/-- Whether any parameter is bound. -/
def hasParameters (s : Statement) : Bool :=
  !s.params.isEmpty

/-- The rows of the batch in parameter `rows`. -/
def batch (s : Statement) : List Value :=
  match s.params.find? "rows" with
  | some (.list rows) => rows
  | _ => []

/-- The text on one line: every run of blanks becomes one space. -/
def shown (s : Statement) : String :=
  " ".intercalate ((Text.words s.text.toList).map String.ofList)

end Statement

end GraphMapping
