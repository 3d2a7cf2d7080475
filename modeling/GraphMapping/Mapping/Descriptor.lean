import GraphMapping.Mapping.Tag

/-!
# Declarations and descriptors

A type is declared by its label and the shape and tag of each field.  Registration turns a declaration
into a descriptor, which says for every field what part it plays in the graph.
-/

namespace GraphMapping

/-- The name of a mapped type. -/
abbrev TypeName := String

/-- What a declared field holds in its object. -/
inductive FieldShape where
  /-- One value. -/
  | scalar
  /-- One instant, stored as text. -/
  | temporal
  /-- A map whose entries become single properties. -/
  | propertyMap
  /-- At most one related object. -/
  | one (target : TypeName)
  /-- Any number of related objects. -/
  | many (target : TypeName)
deriving DecidableEq, Repr

/-- The declaration of one field. -/
structure FieldDecl where
  name : String
  shape : FieldShape
  tag : String
deriving DecidableEq, Repr

/-- The declaration of one type.  A relationship-object has endpoints: it stands for a relationship
with properties of its own, and its label is the relationship's type. -/
structure TypeDecl where
  name : TypeName
  label : String
  endpoints : Option (TypeName × TypeName)
  fields : List FieldDecl
deriving DecidableEq, Repr

/-- How a field relates its object to others. -/
structure RelationshipRole where
  label : String
  direction : Direction
  target : TypeName
  many : Bool
deriving DecidableEq, Repr

/-- The part that a field plays. -/
inductive FieldRole where
  | scalar (temporal : Bool)
  | key (temporal : Bool)
  | relationship (role : RelationshipRole)
  | propertyMap
  | ignored
deriving DecidableEq, Repr

/-- A registered field. -/
structure FieldDescriptor where
  /-- The name of its property in the graph. -/
  storage : String
  /-- Its name in the object. -/
  field : String
  role : FieldRole
  unique : Bool
  indexed : Bool
deriving DecidableEq, Repr

namespace FieldDescriptor

/-- Whether the field is the key. -/
def isKey (f : FieldDescriptor) : Bool :=
  match f.role with
  | .key _ => true
  | _ => false

/-- Whether the field is a scalar other than the key. -/
def isScalar (f : FieldDescriptor) : Bool :=
  match f.role with
  | .scalar _ => true
  | _ => false

/-- Whether the field is a property map. -/
def isPropertyMap (f : FieldDescriptor) : Bool :=
  f.role == .propertyMap

/-- Whether the field is left out. -/
def isIgnored (f : FieldDescriptor) : Bool :=
  f.role == .ignored

/-- Whether the field is a scalar or a key that holds an instant. -/
def isTemporal (f : FieldDescriptor) : Bool :=
  match f.role with
  | .scalar temporal | .key temporal => temporal
  | _ => false

/-- How the field relates its object to others, if it does. -/
def relationship? (f : FieldDescriptor) : Option RelationshipRole :=
  match f.role with
  | .relationship role => some role
  | _ => none

/-- Whether the field occupies a property name. -/
def isStored (f : FieldDescriptor) : Bool :=
  !f.isIgnored && f.relationship?.isNone

/-- What the properties of a map field begin with. -/
def front (f : FieldDescriptor) : String :=
  f.storage ++ "."

end FieldDescriptor

/-- A registered type. -/
structure TypeDescriptor where
  type : TypeName
  label : String
  fields : List FieldDescriptor
  endpoints : Option (TypeName × TypeName)
deriving DecidableEq, Repr

namespace TypeDescriptor

/-- Whether instances stand for relationships. -/
def isObject (d : TypeDescriptor) : Bool :=
  d.endpoints.isSome

/-- The key field under the active strategy. -/
def key? (d : TypeDescriptor) : Option FieldDescriptor :=
  d.fields.find? (·.isKey)

/-- The scalar fields without the key. -/
def scalars (d : TypeDescriptor) : List FieldDescriptor :=
  d.fields.filter (·.isScalar)

/-- The property maps. -/
def propertyMaps (d : TypeDescriptor) : List FieldDescriptor :=
  d.fields.filter (·.isPropertyMap)

/-- The relationship fields with their roles. -/
def relationships (d : TypeDescriptor) : List (FieldDescriptor × RelationshipRole) :=
  d.fields.filterMap fun f => f.relationship?.map fun role => (f, role)

/-- The key or scalar field stored under a property name. -/
def fieldStoredAs (d : TypeDescriptor) (property : String) : Option FieldDescriptor :=
  d.fields.find? fun f => (f.isScalar || f.isKey) && f.storage == property

/-- The text after `front`, if it begins so and goes on. -/
def after (front text : String) : Option String :=
  if front.toList.isPrefixOf text.toList then
    match text.toList.drop front.toList.length with
    | [] => none
    | rest => some (String.ofList rest)
  else none

/-- The first property map that owns a property name, and the entry's name in it. -/
def mapEntryStoredAs (d : TypeDescriptor) (property : String) :
    Option (FieldDescriptor × String) :=
  d.propertyMaps.findSome? fun f => (after f.front property).map fun rest => (f, rest)

end TypeDescriptor

end GraphMapping
