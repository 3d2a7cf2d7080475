import GraphMapping.Error
import GraphMapping.Value

/-!
# Field types

The fields of mapped objects are statically typed, property values are not.  A field type describes
what a field may hold; `read` takes a property value into the type and fails where it does not fit,
`write` gives the property value back.  Null stands for an absent option and, on reading, also for an
empty list or map.
-/

namespace GraphMapping

/-- The type of a field: `any` holds every property value. -/
inductive FieldType where
  | any
  | string
  | int
  | int32
  | float
  | bool
  | datetime
  | option (item : FieldType)
  | list (item : FieldType)
  | map (item : FieldType)
deriving DecidableEq, Repr

namespace FieldType

/-- What a field of the type holds. -/
@[reducible] def Carrier : FieldType → Type
  | .any => Value
  | .string => String
  | .int => Int64
  | .int32 => Int32
  | .float => Binary64
  | .bool => Bool
  | .datetime => Instant
  | .option item => Option item.Carrier
  | .list item => List item.Carrier
  | .map item => List (String × item.Carrier)

/-- The error for a value of the wrong kind. -/
def mismatch (expected : String) (v : Value) : Error :=
  .data ("expected " ++ expected ++ ", got " ++ v.kind.name ++ " value")

/-- Apply `f` to the items in order, stopping at the first failure. -/
def readItems {α : Type} (f : Value → Except Error α) : List Value → Except Error (List α)
  | [] => .ok []
  | v :: rest => do
      let x ← f v
      let xs ← readItems f rest
      return x :: xs

/-- Apply `f` to the values of the entries in order, stopping at the first failure. -/
def readEntries {α : Type} (f : Value → Except Error α) :
    List (String × Value) → Except Error (List (String × α))
  | [] => .ok []
  | (k, v) :: rest => do
      let x ← f v
      let xs ← readEntries f rest
      return (k, x) :: xs

/-- Read an integer of 32 bits. -/
def readInt32 : Value → Except Error Int32
  | .int n =>
      if -2147483648 ≤ n.toInt ∧ n.toInt ≤ 2147483647 then .ok (Int32.ofInt n.toInt)
      else .error (.data (toString n.toInt ++ " overflows i32"))
  | v => .error (mismatch "int" v)

/-- Read an instant, also from its text. -/
def readInstant : Value → Except Error Instant
  | .instant t => .ok t
  | .string s =>
      match Stamp.read s with
      | .ok t => .ok t
      | .error fault => .error (.data ("invalid timestamp '" ++ s ++ "': " ++ fault.message))
  | v => .error (mismatch "datetime" v)

/-- Take a property value into a field type. -/
def read : (t : FieldType) → Value → Except Error t.Carrier
  | .any, v => .ok v
  | .string, .string s => .ok s
  | .string, v => .error (mismatch "string" v)
  | .int, .int n => .ok n
  | .int, v => .error (mismatch "int" v)
  | .int32, v => readInt32 v
  | .float, .float x => .ok x
  | .float, .int n => .ok (Binary64.ofInt n.toInt)
  | .float, v => .error (mismatch "float" v)
  | .bool, .bool b => .ok b
  | .bool, v => .error (mismatch "bool" v)
  | .datetime, v => readInstant v
  | .option _, .null => .ok none
  | .option item, v => (read item v).map some
  | .list item, .list items => readItems (read item) items
  | .list _, .null => .ok []
  | .list _, v => .error (mismatch "list" v)
  | .map item, .map entries => readEntries (read item) entries
  | .map _, .null => .ok []
  | .map _, v => .error (mismatch "map" v)

/-- The property value of what a field holds. -/
def write : (t : FieldType) → t.Carrier → Value
  | .any, v => v
  | .string, s => .string s
  | .int, n => .int n
  | .int32, n => .int n.toInt64
  | .float, x => .float x
  | .bool, b => .bool b
  | .datetime, t => .instant t
  | .option _, none => .null
  | .option item, some x => write item x
  | .list item, xs => .list (xs.map (write item))
  | .map item, xs => .map (xs.map fun e => (e.1, write item e.2))

/-- What a new field holds. -/
def initial : (t : FieldType) → t.Carrier
  | .any => .null
  | .string => ""
  | .int => 0
  | .int32 => 0
  | .float => ⟨0⟩
  | .bool => false
  | .datetime => Instant.epoch
  | .option _ => none
  | .list _ => []
  | .map _ => []

/-- The field type that some words name: what wraps the base type comes first. -/
def ofWords? : List String → Option FieldType
  | "opt" :: rest => (ofWords? rest).map .option
  | "list" :: rest => (ofWords? rest).map .list
  | "map" :: rest => (ofWords? rest).map .map
  | ["any"] => some .any
  | ["string"] => some .string
  | ["int"] => some .int
  | ["int32"] => some .int32
  | ["float"] => some .float
  | ["bool"] => some .bool
  | ["datetime"] => some .datetime
  | _ => none

/-- A property value as a field of the type gives it back. -/
def convert (t : FieldType) (v : Value) : Except Error Value :=
  (t.read v).map t.write

end FieldType

end GraphMapping
