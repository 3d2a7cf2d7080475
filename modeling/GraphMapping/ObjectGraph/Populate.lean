import GraphMapping.Entity
import GraphMapping.LoadResult

/-!
# Filling objects from stored properties

A new object takes its key and its fields from the properties of a node or a relationship.  Every
property belongs to a field or to an entry of a property map; one that belongs to neither is an error.
-/

namespace GraphMapping

variable {σ : Type}

/-- An object being filled, and the entries met so far of its property maps. -/
structure Filling (σ : Type) where
  state : σ
  maps : Dict (Dict Value)

/-- The value for a field that holds an instant. -/
def temporalValue (label property : String) : Value → Except Error Value
  | .string text =>
      match Stamp.read text with
      | .ok t => .ok (.instant t)
      | .error fault => .error (.data ("invalid timestamp '" ++ text ++ "': " ++ fault.message))
  | .null => .ok .null
  | other => .error (.data (label ++ "." ++ property ++ " holds a " ++ other.kind.name ++
      " value, expected a timestamp"))

/-- Take up one property. -/
def fillProperty (model : EntityModel σ) (d : TypeDescriptor) (id : Int64) (filling : Filling σ)
    (property : String × Value) : Except Error (Filling σ) := do
  let (name, value) := property
  match d.fieldStoredAs name with
  | some f =>
      let value ← if f.isTemporal then temporalValue d.label name value else .ok value
      let state ← model.write filling.state f.field value
      return { filling with state := state }
  | none =>
      match d.mapEntryStoredAs name with
      | some (f, entry) =>
          return { filling with maps := filling.maps.alter f.field fun entries =>
            (entries.getD []).insert entry value }
      | none =>
          throw (.data ("unrecognized property '" ++ name ++ "' on " ++ d.label ++ " " ++
            toString id.toInt))

/-- Give the property maps their entries. -/
def fillMaps (model : EntityModel σ) : List FieldDescriptor → Filling σ → Except Error σ
  | [], filling => .ok filling.state
  | f :: rest, filling => do
      let state ← model.write filling.state f.field (.map ((filling.maps.find? f.field).getD []))
      fillMaps model rest ⟨state, filling.maps.erase f.field⟩

/-- Fill a new object: its key, where the database assigns keys, its fields in the order of the property
names, and at last its property maps. -/
def populate (model : EntityModel σ) (native : Bool) (d : TypeDescriptor) (id : Int64)
    (properties : Dict Value) (state : σ) : Except Error σ := do
  let state ← match d.key? with
    | some pk => if native then model.write state pk.field (.int id) else .ok state
    | none => .ok state
  let filling ← properties.foldlM (fillProperty model d id) ⟨state, []⟩
  fillMaps model d.propertyMaps filling

end GraphMapping
