import GraphMapping.Entity
import GraphMapping.Value.FieldType

/-!
# Objects of declared types

Types can be given as data: for every field its type or the type of its targets.  An object of such a
type keeps the values of its fields as the field types give them back, accepts only targets of the
declared types, and may know only some of its declared fields.
-/

namespace GraphMapping

/-- What a field of a declared type can hold. -/
inductive FieldContent where
  /-- Values of a field type. -/
  | value (type : FieldType)
  /-- Nothing: objects do not know the field. -/
  | absent
  /-- At most one object. -/
  | one (target : TypeName)
  /-- Any number of objects. -/
  | many (target : TypeName)
deriving DecidableEq, Repr

/-- The type of the values of a field that holds values. -/
def FieldContent.valueType? : FieldContent → Option FieldType
  | .value type => some type
  | _ => none

/-- The type of the targets of a relationship field, and whether it takes any number of them. -/
def FieldContent.targets? : FieldContent → Option (TypeName × Bool)
  | .one target => some (target, false)
  | .many target => some (target, true)
  | _ => none

/-- A field of a declared type. -/
structure DeclaredField where
  decl : FieldDecl
  content : FieldContent
deriving DecidableEq, Repr

/-- A type given as data. -/
structure DeclaredType where
  name : TypeName
  label : String
  endpoints : Option (TypeName × TypeName)
  fields : List DeclaredField
  /-- Objects offer no relationships at all, neither fields nor ends. -/
  bare : Bool
deriving DecidableEq, Repr

namespace DeclaredType

/-- The type of objects that have nothing declared. -/
def unknown (name : TypeName) : DeclaredType := ⟨name, "", none, [], false⟩

/-- The endpoints that objects offer. -/
def offeredEndpoints (t : DeclaredType) : Option (TypeName × TypeName) :=
  if t.bare then none else t.endpoints

/-- What registration sees of the type. -/
def decl (t : DeclaredType) : TypeDecl :=
  ⟨t.name, t.label, t.offeredEndpoints, t.fields.map (·.decl)⟩

/-- The type of the values under a name.  Several fields may share a name; the first one with values counts. -/
def valueType? (t : DeclaredType) (field : String) : Option FieldType :=
  (t.fields.filter (·.decl.name == field)).findSome? (·.content.valueType?)

/-- The type of the targets under a name, and whether there can be any number of them; the first relationship
field of the name counts. -/
def targets? (t : DeclaredType) (field : String) : Option (TypeName × Bool) :=
  (t.fields.filter (·.decl.name == field)).findSome? (·.content.targets?)

/-- The type with a name in a list of types. -/
def ofName (types : List DeclaredType) (name : TypeName) : DeclaredType :=
  (types.find? (·.name == name)).getD (unknown name)

end DeclaredType

/-- The state of an object of a declared type. -/
structure DeclaredObject where
  type : DeclaredType
  values : Dict Value
  links : Dict (List Ref)
  ends : Ends
  /-- The object does not show its ends, and does not let them be set. -/
  hidden : Bool

namespace DeclaredObject

/-- A new object. -/
def new (t : DeclaredType) : DeclaredObject where
  type := t
  values := Dict.ofList (t.fields.filterMap fun f =>
    (t.valueType? f.decl.name).map fun type => (f.decl.name, type.write type.initial))
  links := []
  ends := ⟨none, none⟩
  hidden := false

/-- The value of a field. -/
def read (o : DeclaredObject) (field : String) : Option Value :=
  (o.type.valueType? field).bind fun _ => o.values.find? field

/-- Give a field a value, as its field type gives it back. -/
def write (o : DeclaredObject) (field : String) (v : Value) : Except Error DeclaredObject :=
  match o.type.valueType? field with
  | some type => (type.convert v).map fun v => { o with values := o.values.insert field v }
  | none => .error (noSuchField o.type.name field)

/-- The objects that a field refers to. -/
def related (o : DeclaredObject) (field : String) : List Ref :=
  if o.type.bare then [] else (o.links.find? field).getD []

/-- Let a field refer to an object. -/
def relate (o : DeclaredObject) (field : String) (type : TypeName) (target : Ref) :
    Except Error DeclaredObject :=
  if o.type.bare then .error (noSuchField o.type.name field)
  else
    match o.type.targets? field with
    | some (expected, many) =>
        if type ≠ expected then .error (wrongType expected type)
        else if many then .ok { o with links := o.links.push field target }
        else .ok { o with links := o.links.insert field [target] }
    | none => .error (noSuchField o.type.name field)

/-- Empty a relationship field. -/
def clear (o : DeclaredObject) (field : String) : DeclaredObject :=
  { o with links := o.links.erase field }

/-- The ends that the object shows. -/
def shownEnds (o : DeclaredObject) : Option Ends :=
  if o.hidden then none else o.type.offeredEndpoints.map fun _ => o.ends

/-- Set one end without a look at types. -/
def setEnd (o : DeclaredObject) (side : Side) (target : Option Ref) : DeclaredObject :=
  match side with
  | .start => { o with ends := { o.ends with start := target } }
  | .finish => { o with ends := { o.ends with finish := target } }

/-- Set one end to an object of the declared type. -/
def join (o : DeclaredObject) (side : Side) (type : TypeName) (target : Ref) :
    Except Error DeclaredObject :=
  match o.type.endpoints with
  | none => .error (.internal (o.type.name ++ " exposes no endpoints"))
  | some (start, finish) =>
      let expected := match side with
        | .start => start
        | .finish => finish
      if type = expected then .ok (o.setEnd side (some target))
      else .error (wrongType expected type)

end DeclaredObject

/-- Objects of the given declared types. -/
def declaredModel (types : List DeclaredType) : EntityModel DeclaredObject where
  fresh := fun name => .new (.ofName types name)
  read := DeclaredObject.read
  write := DeclaredObject.write
  related := DeclaredObject.related
  relate := DeclaredObject.relate
  ends := DeclaredObject.shownEnds
  canJoin := fun o => o.shownEnds.isSome
  join := DeclaredObject.join

end GraphMapping
