import GraphMapping.Identifier
import GraphMapping.Statement

/-!
# Conditions

A `WHERE` clause is a conjunction of conditions on the elements a statement has bound.  Each compared
value becomes a parameter `p0`, `p1`, … in the order of the conditions, and the clause refers to it by
that name.
-/

namespace GraphMapping

/-- The ways to compare a property with a value. -/
inductive Comparison where
  | eq
  | ne
  | lt
  | lte
  | gt
  | gte
  | contains
  | startsWith
  | member
deriving DecidableEq, Repr

/-- The operator of a comparison. -/
def Comparison.operator : Comparison → String
  | .eq => "="
  | .ne => "<>"
  | .lt => "<"
  | .lte => "<="
  | .gt => ">"
  | .gte => ">="
  | .contains => "CONTAINS"
  | .startsWith => "STARTS WITH"
  | .member => "IN"

/-- A condition on one element. -/
inductive Condition where
  /-- Compare a property with a value. -/
  | compare (property : String) (comparison : Comparison) (value : Value)
  /-- A property is absent, or present. -/
  | absent (property : String) (isNull : Bool)
  /-- The database's own number of the element. -/
  | nativeId (id : Int64)

/-- A clause under construction: the conditions' texts and the bound parameters. -/
structure Clause where
  conditions : List String
  params : Dict Value

namespace Clause

/-- The clause without conditions. -/
def empty : Clause := ⟨[], []⟩

/-- The name for the next parameter. -/
def nextName (c : Clause) : String :=
  "p" ++ toString c.params.length

/-- Add a condition that refers to a new parameter holding `value`. -/
def bind (c : Clause) (text : String → String) (value : Value) : Clause :=
  ⟨c.conditions ++ [text c.nextName], c.params.insert c.nextName value.storage⟩

/-- Add a condition on the element bound to `subject`. -/
def add (c : Clause) (subject : String) : Condition → Clause
  | .compare property comparison value =>
      c.bind (fun name => Identifier.property subject property ++ " " ++ comparison.operator ++
        " $" ++ name) value
  | .absent property isNull =>
      { c with conditions := c.conditions ++ [Identifier.property subject property ++
          (if isNull then " IS NULL" else " IS NOT NULL")] }
  | .nativeId id => c.bind (fun name => "id(" ++ subject ++ ") = $" ++ name) (.int id)

/-- The clause of several conditions on one element. -/
def ofConditions (subject : String) (conditions : List Condition) : Clause :=
  conditions.foldl (·.add subject ·) empty

/-- Whether the clause restricts anything. -/
def hasConditions (c : Clause) : Bool :=
  !c.conditions.isEmpty

/-- The text of the clause, empty without conditions. -/
def text (c : Clause) : String :=
  if c.conditions.isEmpty then "" else "WHERE " ++ " AND ".intercalate c.conditions

end Clause

/-- A conjunction of conditions on the nodes that a statement is about. -/
abbrev Filter := List Condition

end GraphMapping
