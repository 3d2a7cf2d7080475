import GraphMapping.Mapping.Registry
import GraphMapping.Proofs.Mapping.Tags
import GraphMapping.Proofs.Results

/-!
# Flat records of fields and types

The role of a relationship field holds what belongs together: a type name, a direction and a target.  A flat
record of the field has room for each of them, next to what other kinds of fields need, and nothing in its
form says that they are there; so whoever reads them has an answer for what is missing.  Tags that are read
into flat records, and types that are described by them, come to the records of the descriptors.  So all that
a field of its kind needs is there, and reading a record is reading a descriptor.
-/

namespace GraphMapping

/-- The kinds of fields. -/
inductive FieldKind where
  | scalar
  | key
  | one
  | many
  | propertyMap
  | ignored
deriving DecidableEq

/-- Whether fields of a kind relate their objects to others. -/
def FieldKind.isRelationship : FieldKind → Bool
  | .one | .many => true
  | _ => false

/-- The flat record of a field. -/
structure FlatField where
  storage : String
  field : String
  kind : FieldKind
  label : Option String
  direction : Option Direction
  target : Option TypeName
  temporal : Bool
  unique : Bool
  indexed : Bool

/-- The flat record of a type. -/
structure FlatType where
  type : TypeName
  label : String
  fields : List FlatField
  isObject : Bool
  endpoints : Option (TypeName × TypeName)

/-- The kind of field that plays a part. -/
def FieldRole.kind : FieldRole → FieldKind
  | .scalar _ => .scalar
  | .key _ => .key
  | .relationship role => if role.many then .many else .one
  | .propertyMap => .propertyMap
  | .ignored => .ignored

/-- The record of a descriptor: what its role does not tell is absent. -/
def FieldDescriptor.flat (f : FieldDescriptor) : FlatField where
  storage := f.storage
  field := f.field
  kind := f.role.kind
  label := f.relationship?.map (·.label)
  direction := f.relationship?.map (·.direction)
  target := f.relationship?.map (·.target)
  temporal := f.isTemporal
  unique := f.unique
  indexed := f.indexed

def TypeDescriptor.flat (d : TypeDescriptor) : FlatType :=
  ⟨d.type, d.label, d.fields.map FieldDescriptor.flat, d.isObject, d.endpoints⟩

/-! ## Reading tags and describing types -/

/-- What a tag says, key by key, and whether it leaves its field out. -/
structure FlatTag where
  slots : Tag.Slots
  ignored : Bool

/-- Read a tag. -/
def FlatTag.parse (text : String) : Except TagError FlatTag :=
  let tokens := Tag.tokens text.toList
  if tokens.contains ['-'] then
    if 1 < tokens.length then .error .notAlone else .ok ⟨Tag.Slots.empty, true⟩
  else do
    let slots ← tokens.foldlM Tag.take Tag.Slots.empty
    if slots.relationship.isSome && slots.direction.isNone then throw .relationshipAlone
    if slots.relationship.isNone && slots.direction.isSome then throw .directionAlone
    if slots.strategy.isSome && !slots.key then throw .strategyAlone
    return ⟨slots, false⟩

namespace FlatField

/-- The record of a field whose tag names a relationship. -/
def ofRelationship (record : FlatField) (slots : Tag.Slots) (label : String) (kind : FieldKind)
    (target : TypeName) : Except FieldDescriptor.Misfit FlatField :=
  if slots.key || slots.unique || slots.indexed || slots.properties || slots.name.isSome then
    .error .relationshipMarks
  else if !Identifier.isPlain label then .error (.relationshipName label)
  else
    .ok { record with
      kind := kind, label := some label, direction := slots.direction, target := some target }

/-- The record of a field that holds a value. -/
def ofScalar (strategy : KeyStrategy) (record : FlatField) (slots : Tag.Slots) :
    Except FieldDescriptor.Misfit FlatField :=
  if slots.properties then .error .propertiesUnexpected
  else if slots.key &&
      slots.strategy.all fun name => Text.lower name.toList == Text.lower strategy.name.toList then
    match slots.name with
    | some name =>
        if name ≠ strategy.field then .error (.keyName strategy.field strategy.name name)
        else .ok { record with kind := .key, storage := strategy.field }
    | none => .ok { record with kind := .key, storage := strategy.field }
  else .ok record

/-- The record of a declared field under a strategy. -/
def ofTag (strategy : KeyStrategy) (decl : FieldDecl) (tag : FlatTag) :
    Except FieldDescriptor.Misfit FlatField :=
  let record : FlatField := ⟨tag.slots.name.getD decl.name, decl.name, .scalar, none, none, none,
    false, tag.slots.unique, tag.slots.indexed⟩
  if tag.ignored then .ok { record with kind := .ignored }
  else
    match tag.slots.relationship, decl.shape with
    | some label, .one target => ofRelationship record tag.slots label .one target
    | some label, .many target => ofRelationship record tag.slots label .many target
    | some _, _ => .error .notRelated
    | none, .one _ | none, .many _ => .error .relationshipExpected
    | none, .propertyMap =>
        if !tag.slots.properties then .error .propertiesExpected
        else if tag.slots.key || tag.slots.unique || tag.slots.indexed then .error .propertiesMarked
        else .ok { record with kind := .propertyMap }
    | none, .scalar => ofScalar strategy record tag.slots
    | none, .temporal => ofScalar strategy { record with temporal := true } tag.slots

/-- The record of a declared field, with the type's name in its errors. -/
def ofDecl (strategy : KeyStrategy) (type : TypeName) (decl : FieldDecl) : Except Error FlatField :=
  match FlatTag.parse decl.tag with
  | .error fault => .error (.tag type decl.name fault.message)
  | .ok tag =>
      match ofTag strategy decl tag with
      | .error misfit => .error (.tag type decl.name misfit.message)
      | .ok field => .ok field

end FlatField

/-- The meaning of what a tag says. -/
def FlatTag.meaning (tag : FlatTag) : Tag :=
  if tag.ignored then .ignored else .mapped tag.slots.combined

/-- What a tag says fits together: with a relationship goes a direction, and nothing with the sign for a
field that is left out. -/
structure FlatTag.Consistent (tag : FlatTag) : Prop where
  paired : tag.slots.relationship.isSome = tag.slots.direction.isSome
  alone : tag.ignored = true → tag.slots = Tag.Slots.empty

variable {strategy : KeyStrategy} {decl : FieldDecl} {type : TypeName} {tag : FlatTag}
  {f : FieldDescriptor} {role : RelationshipRole}

theorem FlatTag.parse_eq (text : String) :
    Tag.parse text = (FlatTag.parse text).map FlatTag.meaning := by
  unfold Tag.parse Tag.parseChars FlatTag.parse
  dsimp only
  split
  · split <;> rfl
  · cases (Tag.tokens text.toList).foldlM Tag.take Tag.Slots.empty with
    | error e => rfl
    | ok slots =>
        obtain ⟨name, relationship, direction, keyFor, key, unique, indexed, properties⟩ := slots
        cases relationship <;> cases direction <;> cases keyFor <;> cases key <;> rfl

theorem FlatTag.parse_consistent {text : String} (h : FlatTag.parse text = .ok tag) :
    tag.Consistent := by
  unfold FlatTag.parse at h
  dsimp only at h
  split at h
  · split at h <;> cases h
    exact ⟨rfl, fun _ => rfl⟩
  · obtain ⟨slots, -, h⟩ := bind_eq_ok.1 h
    obtain ⟨name, relationship, direction, keyFor, key, unique, indexed, properties⟩ := slots
    cases relationship <;> cases direction <;> cases keyFor <;> cases key <;> cases h <;>
      exact ⟨rfl, nofun⟩

theorem Tag.Slots.isSome_key (slots : Tag.Slots) : slots.combined.key.isSome = slots.key := by
  unfold Tag.Slots.combined
  cases slots.key <;> rfl

theorem FlatField.ofRelationship_eq (decl : FieldDecl) {slots : Tag.Slots} {record : FlatField}
    {label : String} {direction : Direction} {target : TypeName} {many : Bool}
    (hShape : FieldDescriptor.targetOf decl.shape = some (target, many))
    (hDirection : slots.direction = some direction)
    (hRecord : slots.name = none → slots.unique = false → slots.indexed = false →
      record = ⟨decl.name, decl.name, .scalar, none, none, none, false, false, false⟩) :
    FlatField.ofRelationship record slots label (if many then .many else .one) target =
      (FieldDescriptor.ofRelationship decl slots.combined label direction).map FieldDescriptor.flat := by
  have hMarks : (slots.combined.key.isSome || slots.combined.unique || slots.combined.indexed ||
      slots.combined.properties || slots.combined.name.isSome) =
      (slots.key || slots.unique || slots.indexed || slots.properties || slots.name.isSome) := by
    rw [slots.isSome_key]
    rfl
  unfold FlatField.ofRelationship FieldDescriptor.ofRelationship
  rw [hShape]
  dsimp only
  rw [hMarks]
  by_cases hMarked : (slots.key || slots.unique || slots.indexed || slots.properties ||
      slots.name.isSome) = true
  · rw [if_pos hMarked, if_pos hMarked]
    rfl
  · rw [if_neg hMarked, if_neg hMarked]
    cases Identifier.isPlain label with
    | false => rfl
    | true =>
        simp only [Bool.or_eq_true, not_or, Bool.not_eq_true, Option.isSome_eq_false_iff,
          Option.isNone_iff_eq_none] at hMarked
        obtain ⟨⟨⟨⟨-, hUnique⟩, hIndexed⟩, -⟩, hName⟩ := hMarked
        rw [hRecord hName hUnique hIndexed, hDirection]
        rfl

theorem FlatField.ofScalar_eq (strategy : KeyStrategy) (decl : FieldDecl) (slots : Tag.Slots)
    (temporal : Bool) :
    FlatField.ofScalar strategy ⟨slots.name.getD decl.name, decl.name, .scalar, none, none, none, temporal,
        slots.unique, slots.indexed⟩ slots =
      (FieldDescriptor.ofScalar strategy decl slots.combined temporal).map FieldDescriptor.flat := by
  obtain ⟨name, relationship, direction, keyFor, key, unique, indexed, properties⟩ := slots
  have hCounts : FieldDescriptor.keyCounts strategy (if key then some keyFor else none) =
      (key && keyFor.all fun word => Text.lower word.toList == Text.lower strategy.name.toList) := by
    cases key <;> cases keyFor <;> rfl
  unfold FlatField.ofScalar FieldDescriptor.ofScalar Tag.Slots.combined
  dsimp only
  rw [hCounts]
  cases properties with
  | true => rfl
  | false =>
      cases (key && keyFor.all fun word => Text.lower word.toList == Text.lower strategy.name.toList) with
      | false => rfl
      | true =>
          cases name with
          | none => rfl
          | some name =>
              by_cases hName : name = strategy.field
              · simp only [hName, ne_eq, not_true, if_false, if_true, Bool.false_eq_true]
                rfl
              · simp only [hName, ne_eq, not_false_iff, if_false, if_true, Bool.false_eq_true]
                rfl

/-- A tag whose parts fit together makes the record of the field that its meaning makes. -/
theorem FlatField.ofTag_eq (h : tag.Consistent) : FlatField.ofTag strategy decl tag =
    (FieldDescriptor.ofTag strategy decl tag.meaning).map FieldDescriptor.flat := by
  obtain ⟨name, shape, text⟩ := decl
  obtain ⟨slots, ignored⟩ := tag
  obtain ⟨hPaired, hAlone⟩ := h
  dsimp only at hPaired hAlone
  cases ignored with
  | true =>
      obtain rfl := hAlone rfl
      rfl
  | false =>
      have hRelated : slots.combined.relationship =
          slots.relationship.bind fun label => slots.direction.map fun d => (label, d) := rfl
      unfold FlatField.ofTag FieldDescriptor.ofTag FlatTag.meaning
      simp only [Bool.false_eq_true, if_false]
      rw [hRelated]
      cases hLabel : slots.relationship with
      | none =>
          cases shape with
          | one | many => rfl
          | propertyMap =>
              obtain ⟨stored, relationship, direction, keyFor, key, unique, indexed, properties⟩ := slots
              cases properties <;> cases key <;> cases unique <;> cases indexed <;> rfl
          | scalar => exact FlatField.ofScalar_eq strategy ⟨name, .scalar, text⟩ slots false
          | temporal => exact FlatField.ofScalar_eq strategy ⟨name, .temporal, text⟩ slots true
      | some label =>
          -- A tag that names a relationship gives its direction, too.
          rw [hLabel] at hPaired
          obtain ⟨direction, hDirection⟩ := Option.isSome_iff_exists.1 hPaired.symm
          rw [hDirection]
          have hRecord : slots.name = none → slots.unique = false → slots.indexed = false →
              (⟨slots.name.getD name, name, .scalar, none, none, none, false, slots.unique,
                slots.indexed⟩ : FlatField) =
                ⟨name, name, .scalar, none, none, none, false, false, false⟩ := by
            intro hName hUnique hIndexed
            rw [hName, hUnique, hIndexed]
            rfl
          cases shape with
          | one target =>
              exact FlatField.ofRelationship_eq ⟨name, .one target, text⟩ rfl hDirection hRecord
          | many target =>
              exact FlatField.ofRelationship_eq ⟨name, .many target, text⟩ rfl hDirection hRecord
          | scalar | temporal | propertyMap => rfl

/-- A declared field has the record of its descriptor. -/
theorem FlatField.ofDecl_eq (strategy : KeyStrategy) (type : TypeName) (decl : FieldDecl) :
    FlatField.ofDecl strategy type decl =
      (TypeDescriptor.fieldOf strategy type decl).map FieldDescriptor.flat := by
  unfold FlatField.ofDecl TypeDescriptor.fieldOf
  rw [FlatTag.parse_eq]
  cases hTag : FlatTag.parse decl.tag with
  | error fault => rfl
  | ok tag =>
      dsimp only [Except.map]
      rw [FlatField.ofTag_eq (FlatTag.parse_consistent hTag)]
      cases FieldDescriptor.ofTag strategy decl tag.meaning <;> rfl

/-! ## Types -/

namespace FlatField

/-- Whether the field occupies a property name. -/
def isStored (f : FlatField) : Bool :=
  f.kind != .ignored && !f.kind.isRelationship

end FlatField

namespace FlatType

/-- The records of declared fields; `taken` are the property names of earlier fields. -/
def fieldsOf (strategy : KeyStrategy) (type : TypeName) (isObject : Bool) (taken : List String) :
    List FieldDecl → Except Error (List FlatField)
  | [] => .ok []
  | decl :: decls => do
      let field ← FlatField.ofDecl strategy type decl
      if field.isStored && taken.contains field.storage then
        throw (.tag type decl.name ("storage name '" ++ field.storage ++ "' is used twice"))
      if isObject && field.kind.isRelationship then
        throw (.tag type decl.name "relationship objects cannot declare relationship fields")
      let taken := if field.isStored then field.storage :: taken else taken
      let fields ← fieldsOf strategy type isObject taken decls
      return field :: fields

/-- The record of a declared type under a strategy. -/
def ofDecl (strategy : KeyStrategy) (decl : TypeDecl) : Except Error FlatType := do
  if !Identifier.isPlain decl.label then
    throw (.configuration ("type '" ++ decl.name ++ "' declares label '" ++ decl.label ++
      "', expected a plain identifier"))
  let fields ← fieldsOf strategy decl.name decl.endpoints.isSome [] decl.fields
  if fields.all (·.kind == .ignored) then
    throw (.configuration ("type '" ++ decl.name ++ "' has no mapped fields"))
  let keys := fields.countP (·.kind == .key)
  if 1 < keys then
    throw (.configuration ("type '" ++ decl.name ++ "' declares " ++ toString keys ++
      " primary keys for strategy '" ++ strategy.name ++ "'"))
  if keys = 0 ∧ !decl.endpoints.isSome then
    throw (.configuration ("type '" ++ decl.name ++ "' declares no primary key for strategy '" ++
      strategy.name ++ "'"))
  return ⟨decl.name, decl.label, fields, decl.endpoints.isSome, decl.endpoints⟩

end FlatType

namespace FieldDescriptor

variable (f : FieldDescriptor)

theorem isRelationship_flat : f.flat.kind.isRelationship = f.relationship?.isSome := by
  unfold flat relationship? FieldRole.kind
  cases f.role with
  | relationship role => cases hMany : role.many <;> simp [hMany, FieldKind.isRelationship]
  | _ => rfl

theorem isIgnored_flat : (f.flat.kind == .ignored) = f.isIgnored := by
  unfold flat isIgnored FieldRole.kind
  cases f.role with
  | relationship role => cases hMany : role.many <;> simp [hMany]
  | _ => rfl

theorem isKey_flat : (f.flat.kind == .key) = f.isKey := by
  unfold flat isKey FieldRole.kind
  cases f.role with
  | relationship role => cases hMany : role.many <;> simp [hMany]
  | _ => rfl

theorem isStored_flat : f.flat.isStored = f.isStored := by
  unfold FlatField.isStored isStored
  rw [isRelationship_flat, bne, isIgnored_flat, Option.not_isSome]

end FieldDescriptor

theorem FlatType.fieldsOf_eq (strategy : KeyStrategy) (type : TypeName) (isObject : Bool)
    (taken : List String) (decls : List FieldDecl) :
    FlatType.fieldsOf strategy type isObject taken decls =
      (TypeDescriptor.fieldsOf strategy type isObject taken decls).map
        (List.map FieldDescriptor.flat) := by
  induction decls generalizing taken with
  | nil => rfl
  | cons decl decls ih =>
      unfold FlatType.fieldsOf TypeDescriptor.fieldsOf
      rw [FlatField.ofDecl_eq]
      cases TypeDescriptor.fieldOf strategy type decl with
      | error e => rfl
      | ok f =>
          have hStorage : f.flat.storage = f.storage := rfl
          simp only [Except.map, bind, Except.bind, f.isStored_flat, f.isRelationship_flat, hStorage, ih]
          cases (f.isStored && taken.contains f.storage) with
          | true => rfl
          | false =>
              cases (isObject && f.relationship?.isSome) with
              | true => rfl
              | false =>
                  cases TypeDescriptor.fieldsOf strategy type isObject
                    (if f.isStored = true then f.storage :: taken else taken) decls <;> rfl

theorem FlatType.ofDecl_eq (strategy : KeyStrategy) (decl : TypeDecl) :
    FlatType.ofDecl strategy decl = (TypeDescriptor.ofDecl strategy decl).map TypeDescriptor.flat := by
  unfold FlatType.ofDecl TypeDescriptor.ofDecl
  rw [FlatType.fieldsOf_eq]
  cases Identifier.isPlain decl.label with
  | false => rfl
  | true =>
      cases TypeDescriptor.fieldsOf strategy decl.name decl.endpoints.isSome [] decl.fields with
      | error e => rfl
      | ok fields =>
          have hIgnored : (fields.map FieldDescriptor.flat).all (·.kind == .ignored) =
              fields.all (·.isIgnored) := by
            simp [List.all_map, Function.comp_def, FieldDescriptor.isIgnored_flat]
          have hKeys : (fields.map FieldDescriptor.flat).countP (·.kind == .key) =
              fields.countP (·.isKey) := by
            simp [List.countP_map, Function.comp_def, FieldDescriptor.isKey_flat]
          simp only [Except.map, bind, Except.bind, hIgnored, hKeys, Option.not_isSome]
          cases fields.all (·.isIgnored) with
          | true => rfl
          | false =>
              by_cases hMost : 1 < fields.countP (·.isKey)
              · simp only [hMost, if_true]
                rfl
              · by_cases hLeast : fields.countP (·.isKey) = 0 ∧ decl.endpoints.isNone = true
                · simp only [hLeast, if_true, and_self]
                  rfl
                · simp only [hMost, hLeast, if_false]
                  rfl

/-! ## Binding fields -/

/-- What is there, or an error that it is not. -/
def present {α : Type} (message : String) : Option α → Except Error α
  | some a => .ok a
  | none => .error (.internal message)

/-- The label of a node type; `context` says who asks. -/
def FlatType.nodeLabel (types : List FlatType) (context : String) (type : TypeName) :
    Except Error String :=
  match types.find? (·.type == type) with
  | some d =>
      if d.isObject then
        .error (.configuration (context ++ ": " ++ type ++
          " is a relationship object, expected a node type"))
      else .ok d.label
  | none => .error (.unregisteredType (type ++ " (" ++ context ++ ")"))

/-- The name of a direction that may be absent. -/
def directionName : Option Direction → String
  | some direction => direction.name
  | none => "none"

/-- Where a relationship field binds, and the type of the relationship's object.  Without a direction a field
binds both ways to a node, and not at all to an object. -/
def FlatField.sidesOf (types : List FlatType) (owner : FlatType) (f : FlatField) :
    Except Error (List (EdgeKey × Side) × Option TypeName) := do
  let context := owner.type ++ "." ++ f.field
  let target ← present (context ++ " has no target") f.target
  match types.find? (·.type == target) with
  | none => throw (.unregisteredType (target ++ " (" ++ context ++ ")"))
  | some d =>
      let label ← present (context ++ " has no label") f.label
      if d.isObject then
        let (start, finish) ← present (target ++ " has no endpoints") d.endpoints
        let startLabel ← FlatType.nodeLabel types context start
        let finishLabel ← FlatType.nodeLabel types context finish
        let sides := match f.direction with
          | some direction => RegistryBuilder.objectSides owner.type direction start finish
              ⟨startLabel, label, finishLabel⟩
          | none => []
        if sides.isEmpty then
          throw (.configuration (context ++ ": direction " ++ directionName f.direction ++
            " does not fit " ++ target ++ " (" ++ start ++ " -> " ++ finish ++ ")"))
        return (sides, some target)
      else
        let there ← FlatType.nodeLabel types context target
        return (RegistryBuilder.plainSides (f.direction.getD .both) label owner.label there, none)

variable {types : List TypeDescriptor}

theorem findType_flat (type : TypeName) : (types.map TypeDescriptor.flat).find? (·.type == type) =
    (findType types type).map TypeDescriptor.flat := by
  rw [List.find?_map]
  rfl

theorem nodeLabel_flat (context : String) (type : TypeName) :
    FlatType.nodeLabel (types.map TypeDescriptor.flat) context type =
      RegistryBuilder.nodeLabel types context type := by
  unfold FlatType.nodeLabel RegistryBuilder.nodeLabel
  rw [findType_flat]
  cases findType types type <;> rfl

/-- The record of a relationship field binds like the field: no part of it is found absent. -/
theorem FlatField.sidesOf_flat (owner : TypeDescriptor) (hRole : f.relationship? = some role) :
    FlatField.sidesOf (types.map TypeDescriptor.flat) owner.flat f.flat =
      RegistryBuilder.sidesOf types owner f role := by
  unfold FlatField.sidesOf RegistryBuilder.sidesOf FieldDescriptor.flat
  simp only [hRole, Option.map_some, present, findType_flat, nodeLabel_flat, bind, Except.bind]
  cases hTarget : findType types role.target with
  | none => rfl
  | some d =>
      have hObject : d.flat.isObject = d.endpoints.isSome := rfl
      have hFlatEnds : d.flat.endpoints = d.endpoints := rfl
      simp only [Option.map_some, hObject, hFlatEnds]
      cases hEnds : d.endpoints with
      | none =>
          have hLabel : RegistryBuilder.nodeLabel types (owner.flat.type ++ "." ++ f.field) role.target =
              .ok d.label := by
            unfold RegistryBuilder.nodeLabel TypeDescriptor.isObject
            rw [hTarget]
            simp only [hEnds, Option.isSome_none, Bool.false_eq_true, if_false]
          rw [hLabel]
          rfl
      | some ends => rfl

end GraphMapping
