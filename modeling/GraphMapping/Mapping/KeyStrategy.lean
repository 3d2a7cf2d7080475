import GraphMapping.Error
import GraphMapping.Text.Shown
import GraphMapping.Text.Blank
import GraphMapping.Value

/-!
# Key strategies

A key strategy says where the keys of objects come from: a generator makes them before a save, or the
database assigns its own numbers.  A generator is a sequence of values; callers count how many they
have taken.
-/

namespace GraphMapping

/-- Where keys come from. -/
inductive KeySource where
  /-- The database's own numbers. -/
  | database
  /-- The values of a sequence, in order. -/
  | generated (sequence : Nat → Value)

/-- How objects are identified and where their keys are stored. -/
structure KeyStrategy where
  name : String
  /-- The property that holds the key. -/
  field : String
  /-- The kind of value that keys are. -/
  kind : ValueKind
  source : KeySource

namespace KeyStrategy

/-- Random unique identifiers, taken from `source`. -/
def uuid (source : Nat → String) : KeyStrategy :=
  ⟨"uuid", "uuid", .string, .generated fun n => .string (source n)⟩

/-- The numbers that the database gives. -/
def native : KeyStrategy :=
  ⟨"native", "id", .int, .database⟩

/-- Whether the database assigns the keys. -/
def isNative (s : KeyStrategy) : Bool :=
  match s.source with
  | .database => true
  | .generated _ => false

/-- The strategy with a generator of its own.  The first value of the sequence is a sample, which must
be of the declared kind; the result says how many values were taken. -/
def custom (name field : String) (kind : ValueKind) (sequence : Nat → Value) (taken : Nat) :
    Except Error KeyStrategy × Nat :=
  if name = "" ∨ field = "" then
    (.error (.configuration "primary key strategy needs a name and a field name"), taken)
  else if name = "native" then
    (.error (.configuration "the native strategy cannot carry a generator"), taken)
  else
    let sample := sequence taken
    if sample.kind = kind then (.ok ⟨name, field, kind, .generated sequence⟩, taken + 1)
    else
      (.error (.configuration ("generator of strategy '" ++ name ++ "' produces " ++
        sample.kind.name ++ " values, declared " ++ kind.name)), taken + 1)

/-- The built-in strategy with the given name, in any case of its letters. -/
def ofName (source : Nat → String) (name : String) : Except Error KeyStrategy :=
  let lower := String.ofList (Text.lower name.toList)
  if lower = "uuid" then .ok (uuid source)
  else if lower = "native" then .ok native
  else .error (.configuration ("unknown primary key strategy '" ++ lower ++ "'"))

/-- The next key and the number of values taken then; no key if the database assigns them. -/
def generate (s : KeyStrategy) (taken : Nat) : Except Error (Option Value) × Nat :=
  match s.source with
  | .database => (.ok none, taken)
  | .generated sequence =>
      let value := sequence taken
      if value.kind = s.kind then (.ok (some value), taken + 1)
      else
        (.error (.internal ("strategy '" ++ s.name ++ "' generated a " ++ value.kind.name ++
          " value, expected " ++ s.kind.name)), taken + 1)

/-- The name of a kind as diagnostics show it. -/
def shownKind : ValueKind → String
  | .null => "Null"
  | .bool => "Bool"
  | .int => "Int"
  | .float => "Float"
  | .string => "String"
  | .datetime => "DateTime"
  | .list => "List"
  | .map => "Map"

/-- A strategy as diagnostics show it. -/
def shown (s : KeyStrategy) : String :=
  "PrimaryKeyStrategy \x7b name: " ++ Text.shown s.name ++ ", db_field_name: " ++
    Text.shown s.field ++ ", value_type: " ++ shownKind s.kind ++ ", graph_native: " ++
    (if s.isNative then "true" else "false") ++ " \x7d"

end KeyStrategy

end GraphMapping
