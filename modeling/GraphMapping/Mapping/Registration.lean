import GraphMapping.Identifier
import GraphMapping.Mapping.Descriptor
import GraphMapping.Mapping.KeyStrategy

/-!
# Registration

Registering a type reads its tags once and checks the declaration by itself: its label, each field
against its shape, the names of its properties, and its key under the active strategy.
-/

namespace GraphMapping

namespace FieldDescriptor

/-- Why a field cannot play the part that its tag asks for. -/
inductive Misfit where
  | notRelated
  | relationshipMarks
  | relationshipName (label : String)
  | relationshipExpected
  | propertiesExpected
  | propertiesMarked
  | propertiesUnexpected
  | keyName (field strategy name : String)
deriving DecidableEq, Repr

/-- The description of a misfit. -/
def Misfit.message : Misfit → String
  | .notRelated => "'relationship' needs a one/many relationship field"
  | .relationshipMarks => "relationship fields accept only 'relationship' and 'direction'"
  | .relationshipName label => "relationship type '" ++ label ++ "' is not a plain identifier"
  | .relationshipExpected => "relationship field needs 'relationship' and 'direction'"
  | .propertiesExpected => "property map fields need the 'properties' marker"
  | .propertiesMarked => "property maps cannot be keys or indexed"
  | .propertiesUnexpected => "'properties' needs a property map field"
  | .keyName field strategy name =>
      "primary key is stored as '" ++ field ++ "' under strategy '" ++ strategy ++ "', not '" ++
        name ++ "'"

/-- The target of a relationship shape, and whether it takes many. -/
def targetOf : FieldShape → Option (TypeName × Bool)
  | .one target => some (target, false)
  | .many target => some (target, true)
  | _ => none

/-- The descriptor of a field whose tag names a relationship. -/
def ofRelationship (decl : FieldDecl) (marks : Marks) (label : String) (direction : Direction) :
    Except Misfit FieldDescriptor :=
  match targetOf decl.shape with
  | none => .error .notRelated
  | some (target, many) =>
      if marks.key.isSome || marks.unique || marks.indexed || marks.properties ||
          marks.name.isSome then
        .error .relationshipMarks
      else if !Identifier.isPlain label then .error (.relationshipName label)
      else .ok ⟨decl.name, decl.name, .relationship ⟨label, direction, target, many⟩, false, false⟩

/-- Whether a key mark counts under a strategy. -/
def keyCounts (strategy : KeyStrategy) : Option (Option String) → Bool
  | none => false
  | some none => true
  | some (some name) => Text.lower name.toList == Text.lower strategy.name.toList

/-- The descriptor of a field that holds a value. -/
def ofScalar (strategy : KeyStrategy) (decl : FieldDecl) (marks : Marks) (temporal : Bool) :
    Except Misfit FieldDescriptor :=
  if marks.properties then .error .propertiesUnexpected
  else if keyCounts strategy marks.key then
    -- The strategy decides where keys are stored; a name in the tag may only repeat it.
    match marks.name with
    | some name =>
        if name ≠ strategy.field then .error (.keyName strategy.field strategy.name name)
        else .ok ⟨strategy.field, decl.name, .key temporal, marks.unique, marks.indexed⟩
    | none => .ok ⟨strategy.field, decl.name, .key temporal, marks.unique, marks.indexed⟩
  else
    .ok ⟨marks.name.getD decl.name, decl.name, .scalar temporal, marks.unique, marks.indexed⟩

/-- The descriptor of a declared field under a strategy. -/
def ofTag (strategy : KeyStrategy) (decl : FieldDecl) : Tag → Except Misfit FieldDescriptor
  | .ignored => .ok ⟨decl.name, decl.name, .ignored, false, false⟩
  | .mapped marks =>
      match marks.relationship with
      | some (label, direction) => ofRelationship decl marks label direction
      | none =>
          match decl.shape with
          | .one _ | .many _ => .error .relationshipExpected
          | .propertyMap =>
              if !marks.properties then .error .propertiesExpected
              else if marks.key.isSome || marks.unique || marks.indexed then
                .error .propertiesMarked
              else .ok ⟨marks.name.getD decl.name, decl.name, .propertyMap, false, false⟩
          | .scalar => ofScalar strategy decl marks false
          | .temporal => ofScalar strategy decl marks true

end FieldDescriptor

namespace TypeDescriptor

/-- The descriptor of one declared field, with the type's name in its errors. -/
def fieldOf (strategy : KeyStrategy) (type : TypeName) (decl : FieldDecl) :
    Except Error FieldDescriptor :=
  match Tag.parse decl.tag with
  | .error fault => .error (.tag type decl.name fault.message)
  | .ok tag =>
      match FieldDescriptor.ofTag strategy decl tag with
      | .error misfit => .error (.tag type decl.name misfit.message)
      | .ok field => .ok field

/-- The descriptors of declared fields.  Each property name is used once, `taken` being those of earlier
fields, and a relationship-object relates to nothing but its endpoints. -/
def fieldsOf (strategy : KeyStrategy) (type : TypeName) (isObject : Bool) (taken : List String) :
    List FieldDecl → Except Error (List FieldDescriptor)
  | [] => .ok []
  | decl :: decls => do
      let field ← fieldOf strategy type decl
      if field.isStored && taken.contains field.storage then
        throw (.tag type decl.name ("storage name '" ++ field.storage ++ "' is used twice"))
      if isObject && field.relationship?.isSome then
        throw (.tag type decl.name "relationship objects cannot declare relationship fields")
      let taken := if field.isStored then field.storage :: taken else taken
      let fields ← fieldsOf strategy type isObject taken decls
      return field :: fields

/-- The descriptor of a declared type under a strategy. -/
def ofDecl (strategy : KeyStrategy) (decl : TypeDecl) : Except Error TypeDescriptor := do
  if !Identifier.isPlain decl.label then
    throw (.configuration ("type '" ++ decl.name ++ "' declares label '" ++ decl.label ++
      "', expected a plain identifier"))
  let fields ← fieldsOf strategy decl.name decl.endpoints.isSome [] decl.fields
  if fields.all (·.isIgnored) then
    throw (.configuration ("type '" ++ decl.name ++ "' has no mapped fields"))
  let keys := fields.countP (·.isKey)
  if 1 < keys then
    throw (.configuration ("type '" ++ decl.name ++ "' declares " ++ toString keys ++
      " primary keys for strategy '" ++ strategy.name ++ "'"))
  if keys = 0 ∧ decl.endpoints.isNone then
    throw (.configuration ("type '" ++ decl.name ++ "' declares no primary key for strategy '" ++
      strategy.name ++ "'"))
  return ⟨decl.name, decl.label, fields, decl.endpoints⟩

end TypeDescriptor

end GraphMapping
