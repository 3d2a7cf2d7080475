import GraphMapping.Plan

/-!
# Snapshots

The snapshot of an object is what is stored of it besides its key: its scalars, and the entries of its
property maps, each under the map's name, a point and the entry's name.
-/

namespace GraphMapping

variable {σ : Type}

/-- Add the entries of a property map. -/
def snapshotEntries (front : String) (entries : List (String × Value)) (params : Dict Value) :
    Dict Value :=
  entries.foldl (fun acc e => acc.insert (front ++ e.1) e.2.storage) params

/-- Add the stored properties of one field. -/
def snapshotField (model : EntityModel σ) (type : TypeName) (state : σ) (params : Dict Value)
    (f : FieldDescriptor) : Except Error (Dict Value) :=
  match f.role with
  | .scalar _ => .ok (params.insert f.storage ((model.read state f.field).getD .null).storage)
  | .propertyMap =>
      match model.read state f.field with
      | some (.map entries) => .ok (snapshotEntries f.front entries params)
      | some .null | none => .ok params
      | some other =>
          .error (.data (type ++ "." ++ f.field ++ " must be a map, got " ++ other.kind.name))
  | _ => .ok params

/-- The stored properties of an object without its key. -/
def snapshot (model : EntityModel σ) (d : TypeDescriptor) (state : σ) : Except Error (Dict Value) :=
  d.fields.foldlM (snapshotField model d.type state) []

end GraphMapping
