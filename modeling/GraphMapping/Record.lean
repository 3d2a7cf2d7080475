import GraphMapping.Error
import GraphMapping.Value

/-!
# Records

A record is one row of a statement's answer: the values of its columns.
-/

namespace GraphMapping

/-- One row of an answer, by column. -/
abbrev Record := Dict Value

namespace Record

/-- The value of a column that must be there. -/
def value (r : Record) (column : String) : Except Error Value :=
  match Dict.find? r column with
  | some v => .ok v
  | none => .error (.internal ("missing column '" ++ column ++ "'"))

/-- The text of a column holding a string. -/
def string? (r : Record) (column : String) : Option String :=
  (Dict.find? r column).bind Value.string?

/-- The number in a column holding an integer. -/
def int? (r : Record) (column : String) : Option Int64 :=
  (Dict.find? r column).bind Value.int?

/-- The strings in a column holding a list; other items are passed over. -/
def strings (r : Record) (column : String) : List String :=
  match Dict.find? r column with
  | some (.list items) => items.filterMap Value.string?
  | _ => []

end Record

end GraphMapping
