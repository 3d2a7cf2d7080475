import GraphMapping.Database.Action
import GraphMapping.Schema.Item

/-!
# Live schemas

A database lists its constraints and indexes row by row.  A listed item is comparable with declared
items if it is a uniqueness constraint on one property, or a plain index, of one node label.
-/

namespace GraphMapping

/-- A constraint or an index that a database lists. -/
structure LiveItem where
  name : String
  /-- The kind as listed. -/
  kind : String
  /-- The item that could have been declared. -/
  item : Option SchemaItem
  isConstraint : Bool
deriving DecidableEq, Repr

namespace LiveItem

/-- The item that a listed row describes, if it could have been declared. -/
def comparable (isConstraint : Bool) (kind : String) (onNodes : Bool)
    (labels properties : List String) : Option SchemaItem :=
  match onNodes, labels, properties with
  | true, [label], property :: more =>
      if isConstraint then
        if Text.occursIn "UNIQUENESS".toList kind.toList && more.isEmpty then
          some ⟨.unique, label, [property]⟩
        else none
      else if kind = "RANGE" ∨ kind = "BTREE" then some ⟨.index, label, property :: more⟩
      else none
  | _, _, _ => none

/-- Read a listed row. -/
def ofRow (isConstraint : Bool) (row : Record) : Except Error LiveItem :=
  match row.string? "name" with
  | none => .error (.internal "schema listing row without a name")
  | some name =>
      let kind := (row.string? "type").getD ""
      let onNodes := ((row.string? "entityType").map (· == "NODE")).getD true
      .ok ⟨name, kind, comparable isConstraint kind onNodes (row.strings "labelsOrTypes")
        (row.strings "properties"), isConstraint⟩

/-- The word for an item in statements. -/
def keyword (i : LiveItem) : String :=
  if i.isConstraint then "CONSTRAINT" else "INDEX"

/-- The statement that drops an item. -/
def removal (i : LiveItem) : Statement :=
  .plain .schemaChange ("DROP " ++ i.keyword ++ " " ++ Identifier.quote i.name ++ " IF EXISTS")

end LiveItem

/-- The constraints of a database, and its indexes other than those that back a constraint. -/
structure LiveSchema where
  constraints : List LiveItem
  indexes : List LiveItem
deriving DecidableEq, Repr

namespace LiveSchema

/-- All items, constraints first. -/
def items (s : LiveSchema) : List LiveItem :=
  s.constraints ++ s.indexes

/-- The comparable items, ascending. -/
def managed (s : LiveSchema) : List SchemaItem :=
  SchemaItem.sorted (s.items.filterMap (·.item))

/-- Whether a listed index stands by itself: token lookup indexes and those of constraints do not. -/
def standsAlone (row : Record) : Bool :=
  row.string? "type" != some "LOOKUP" && (row.string? "owningConstraint").isNone

/-- Read the rows of both listings. -/
def ofRows (constraints indexes : List Record) : Except Error LiveSchema := do
  let constraints ← constraints.mapM (LiveItem.ofRow true)
  let indexes ← (indexes.filter standsAlone).mapM (LiveItem.ofRow false)
  return ⟨constraints, indexes⟩

/-- The statement that lists constraints. -/
def showConstraints : Statement :=
  (Statement.plain .schemaListing
    "SHOW CONSTRAINTS YIELD name, type, entityType, labelsOrTypes, properties").returning
    ["name", "type", "entityType", "labelsOrTypes", "properties"]

/-- The statement that lists indexes. -/
def showIndexes : Statement :=
  (Statement.plain .schemaListing ("SHOW INDEXES YIELD name, type, entityType, labelsOrTypes, " ++
    "properties, owningConstraint")).returning
    ["name", "type", "entityType", "labelsOrTypes", "properties", "owningConstraint"]

end LiveSchema

end GraphMapping
