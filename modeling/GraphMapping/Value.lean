import GraphMapping.Dict
import GraphMapping.Number.Binary64
import GraphMapping.Time.Stamp

/-!
# Property values

A property holds a dynamically typed value.  In statements and in the database a value takes its
storage form, in which instants are written as text.  Strings that are not empty and integers can
serve as keys.
-/

namespace GraphMapping

/-- A property value. -/
inductive Value where
  | null
  | bool (b : Bool)
  | int (n : Int64)
  | float (x : Binary64)
  | string (s : String)
  | instant (t : Instant)
  | list (items : List Value)
  | map (entries : List (String × Value))
deriving Inhabited

/-- The kinds of values. -/
inductive ValueKind where
  | null
  | bool
  | int
  | float
  | string
  | datetime
  | list
  | map
deriving DecidableEq, Repr

/-- The name of a kind. -/
def ValueKind.name : ValueKind → String
  | .null => "null"
  | .bool => "bool"
  | .int => "int"
  | .float => "float"
  | .string => "string"
  | .datetime => "datetime"
  | .list => "list"
  | .map => "map"

namespace Value

/-- The kind of a value. -/
def kind : Value → ValueKind
  | .null => .null
  | .bool _ => .bool
  | .int _ => .int
  | .float _ => .float
  | .string _ => .string
  | .instant _ => .datetime
  | .list _ => .list
  | .map _ => .map

/-- Whether a value is null. -/
def isNull : Value → Bool
  | .null => true
  | _ => false

/-- The text of a string. -/
def string? : Value → Option String
  | .string s => some s
  | _ => none

/-- The number of an integer. -/
def int? : Value → Option Int64
  | .int n => some n
  | _ => none

/-- The identity that a value stands for: the text of a string that is not empty, or the decimal text
of an integer. -/
def key? : Value → Option String
  | .string s => if s = "" then none else some s
  | .int n => some (toString n.toInt)
  | _ => none

mutual

/-- The form of a value in statements and in the database: instants are written as text. -/
def storage : Value → Value
  | .instant t => .string (Stamp.write t)
  | .list items => .list (storageItems items)
  | .map entries => .map (storageEntries entries)
  | v => v

/-- The storage form of list items. -/
def storageItems : List Value → List Value
  | [] => []
  | v :: rest => storage v :: storageItems rest

/-- The storage form of map entries. -/
def storageEntries : List (String × Value) → List (String × Value)
  | [] => []
  | (k, v) :: rest => (k, storage v) :: storageEntries rest

end

theorem storageItems_eq_map (items : List Value) : storageItems items = items.map storage := by
  induction items with
  | nil => rfl
  | cons v rest ih => simp [storageItems, ih]

theorem storageEntries_eq_map (entries : List (String × Value)) :
    storageEntries entries = entries.map fun e => (e.1, e.2.storage) := by
  induction entries with
  | nil => rfl
  | cons e rest ih =>
      obtain ⟨k, v⟩ := e
      simp [storageEntries, ih]

/-- Exactly the strings that are not empty and the integers can serve as keys. -/
theorem key?_isSome_iff (v : Value) :
    v.key?.isSome ↔ (∃ s, v = .string s ∧ s ≠ "") ∨ ∃ n, v = .int n := by
  cases v <;> simp [key?]

end Value

end GraphMapping
