import GraphMapping.Mapping.Registration

/-!
# Registries

A builder collects descriptors; `build` checks how they refer to each other and freezes them into a
registry.  A registry knows, for every pair of node labels and relationship type between them, which
field on each side takes the relationship, and whether it has an object of its own.
-/

namespace GraphMapping

/-- A relationship type between two node labels. -/
structure EdgeKey where
  start : String
  type : String
  finish : String
deriving DecidableEq, Repr

/-- A relationship type as a pattern. -/
def EdgeKey.shown (k : EdgeKey) : String :=
  "(:" ++ k.start ++ ")-[:" ++ k.type ++ "]->(:" ++ k.finish ++ ")"

/-- The two ends of a relationship. -/
inductive Side where
  | start
  | finish
deriving DecidableEq, Repr

/-- A field that takes a relationship on one of its sides. -/
structure Binding where
  owner : TypeName
  field : String
  many : Bool
  direction : Direction
deriving DecidableEq, Repr

/-- The fields that could take a relationship. -/
structure Candidates where
  starts : List Binding
  finishes : List Binding
  object : Option TypeName
deriving DecidableEq, Repr

/-- The fields that take a relationship, and the type of its object. -/
structure EdgeMatch where
  start : Option Binding
  finish : Option Binding
  object : Option TypeName
deriving DecidableEq, Repr

/-- The preferred field: an outgoing one, then any directed one, then the first. -/
def preferred (bindings : List Binding) : Option Binding :=
  (bindings.find? (·.direction == .outgoing)).or
    ((bindings.find? (·.direction != .both)).or bindings.head?)

/-- A frozen set of types. -/
structure Registry where
  strategy : KeyStrategy
  types : List TypeDescriptor
  relationships : List (EdgeKey × EdgeMatch)

/-- The descriptor with a type name. -/
def findType (types : List TypeDescriptor) (type : TypeName) : Option TypeDescriptor :=
  types.find? (·.type == type)

/-- Types registered so far. -/
structure RegistryBuilder where
  strategy : KeyStrategy
  types : List TypeDescriptor

namespace RegistryBuilder

/-- A builder without types. -/
def new (strategy : KeyStrategy) : RegistryBuilder := ⟨strategy, []⟩

/-- Register a type, which must be new. -/
def register (b : RegistryBuilder) (decl : TypeDecl) :
    Except Error (TypeDescriptor × RegistryBuilder) := do
  if (findType b.types decl.name).isSome then
    throw (.configuration ("type '" ++ decl.name ++ "' is already registered"))
  let descriptor ← TypeDescriptor.ofDecl b.strategy decl
  return (descriptor, { b with types := b.types ++ [descriptor] })

/-- Forget all types. -/
def reset (b : RegistryBuilder) : RegistryBuilder := { b with types := [] }

/-- Check that no two node types share a label; `seen` are the earlier node types. -/
def checkLabels (seen : List TypeDescriptor) : List TypeDescriptor → Except Error Unit
  | [] => .ok ()
  | d :: rest =>
      if d.isObject then checkLabels seen rest
      else
        match seen.find? (·.label == d.label) with
        | some previous =>
            .error (.configuration ("label '" ++ d.label ++ "' is declared by both " ++
              previous.type ++ " and " ++ d.type))
        | none => checkLabels (seen ++ [d]) rest

/-- The label of a node type; `context` says who asks. -/
def nodeLabel (types : List TypeDescriptor) (context : String) (type : TypeName) :
    Except Error String :=
  match findType types type with
  | some d =>
      if d.isObject then
        .error (.configuration (context ++ ": " ++ type ++
          " is a relationship object, expected a node type"))
      else .ok d.label
  | none => .error (.unregisteredType (type ++ " (" ++ context ++ ")"))

/-- Check that the endpoints of a relationship-object are node types. -/
def checkEndpoints (types : List TypeDescriptor) (d : TypeDescriptor) : Except Error Unit :=
  match d.endpoints with
  | none => .ok ()
  | some (start, finish) => do
      let context := "endpoints of " ++ d.type
      let _ ← nodeLabel types context start
      let _ ← nodeLabel types context finish
      return ()

/-- Where a field to a relationship-object binds, given the object's endpoints. -/
def objectSides (owner : TypeName) (direction : Direction) (start finish : TypeName)
    (key : EdgeKey) : List (EdgeKey × Side) :=
  let atStart := if start = owner then [(key, Side.start)] else []
  let atFinish := if finish = owner then [(key, Side.finish)] else []
  match direction with
  | .outgoing => atStart
  | .incoming => atFinish
  | .both => atStart ++ atFinish

/-- Where a field to a node binds; an undirected field binds both ways. -/
def plainSides (direction : Direction) (label here there : String) : List (EdgeKey × Side) :=
  let away := (EdgeKey.mk here label there, Side.start)
  let back := (EdgeKey.mk there label here, Side.finish)
  match direction with
  | .outgoing => [away]
  | .incoming => [back]
  | .both => [away, back]

/-- Where a relationship field binds, and the type of the relationship's object. -/
def sidesOf (types : List TypeDescriptor) (owner : TypeDescriptor) (field : FieldDescriptor)
    (role : RelationshipRole) : Except Error (List (EdgeKey × Side) × Option TypeName) := do
  let context := owner.type ++ "." ++ field.field
  match findType types role.target with
  | none => throw (.unregisteredType (role.target ++ " (" ++ context ++ ")"))
  | some target =>
      match target.endpoints with
      | some (start, finish) =>
          let startLabel ← nodeLabel types context start
          let finishLabel ← nodeLabel types context finish
          let sides := objectSides owner.type role.direction start finish
            ⟨startLabel, role.label, finishLabel⟩
          -- No end of the object is of the declaring type, or not the one that the direction asks for.
          if sides.isEmpty then
            throw (.configuration (context ++ ": direction " ++ role.direction.name ++
              " does not fit " ++ role.target ++ " (" ++ start ++ " -> " ++ finish ++ ")"))
          return (sides, some role.target)
      | none => return (plainSides role.direction role.label owner.label target.label, none)

/-- The candidates recorded under a key. -/
def candidatesAt (table : List (EdgeKey × Candidates)) (key : EdgeKey) : Candidates :=
  match table.find? (·.1 == key) with
  | some (_, c) => c
  | none => ⟨[], [], none⟩

/-- Record candidates under a key. -/
def putCandidates (table : List (EdgeKey × Candidates)) (key : EdgeKey) (c : Candidates) :
    List (EdgeKey × Candidates) :=
  match table with
  | [] => [(key, c)]
  | (k, old) :: rest => if k = key then (key, c) :: rest else (k, old) :: putCandidates rest key c

/-- Record that a field binds on one side of a relationship.  One relationship type between the same
labels cannot be both plain and carried by an object. -/
def bindSide (binding : Binding) (object : Option TypeName) (table : List (EdgeKey × Candidates))
    (place : EdgeKey × Side) : Except Error (List (EdgeKey × Candidates)) :=
  -- The first field decides; every later one must agree on the object.
  let c := candidatesAt table place.1
  if !(c.starts.isEmpty && c.finishes.isEmpty) && c.object != object then
    .error (.configuration ("relationship " ++ place.1.shown ++
      " is mapped both as a plain relationship and as a relationship object"))
  else
    .ok (putCandidates table place.1 (match place.2 with
      | .start => ⟨c.starts ++ [binding], c.finishes, object⟩
      | .finish => ⟨c.starts, c.finishes ++ [binding], object⟩))

/-- Record where a relationship field binds. -/
def bindField (types : List TypeDescriptor) (owner : TypeDescriptor)
    (table : List (EdgeKey × Candidates)) (field : FieldDescriptor × RelationshipRole) :
    Except Error (List (EdgeKey × Candidates)) := do
  let (sides, object) ← sidesOf types owner field.1 field.2
  sides.foldlM (bindSide ⟨owner.type, field.1.field, field.2.many, field.2.direction⟩ object) table

/-- Record where the relationship fields of a node type bind. -/
def bindType (types : List TypeDescriptor) (table : List (EdgeKey × Candidates))
    (owner : TypeDescriptor) : Except Error (List (EdgeKey × Candidates)) :=
  if owner.isObject then .ok table
  else owner.relationships.foldlM (bindField types owner) table

/-- Check how the types refer to each other, and freeze them. -/
def build (b : RegistryBuilder) : Except Error Registry := do
  checkLabels [] b.types
  b.types.forM (checkEndpoints b.types)
  let table ← b.types.foldlM (bindType b.types) []
  return ⟨b.strategy, b.types, table.map fun (key, c) =>
    (key, ⟨preferred c.starts, preferred c.finishes, c.object⟩)⟩

end RegistryBuilder

namespace Registry

/-- The registry of declared types, registered in order. -/
def ofDecls (strategy : KeyStrategy) (decls : List TypeDecl) : Except Error Registry := do
  let builder ← decls.foldlM (fun (b : RegistryBuilder) decl => return (← b.register decl).2)
    (RegistryBuilder.new strategy)
  builder.build

/-- The number of types. -/
def size (r : Registry) : Nat := r.types.length

/-- The descriptor of a type. -/
def descriptor (r : Registry) (type : TypeName) : Except Error TypeDescriptor :=
  match findType r.types type with
  | some d => .ok d
  | none => .error (.unregisteredType type)

/-- The node type with a label. -/
def withLabel (r : Registry) (label : String) : Option TypeDescriptor :=
  r.types.find? fun d => !d.isObject && d.label == label

/-- The node type of the first label that has one. -/
def withLabels (r : Registry) (labels : List String) : Except Error TypeDescriptor :=
  match labels.findSome? r.withLabel with
  | some d => .ok d
  | none => .error (.unregisteredType ("no type registered for labels " ++ Text.shownList labels))

/-- The fields that take a relationship between two labels. -/
def resolve (r : Registry) (key : EdgeKey) : Except Error EdgeMatch :=
  match r.relationships.find? (·.1 == key) with
  | some (_, m) => .ok m
  | none => .error (.configuration ("no relationship field declared for " ++ key.shown))

end Registry

end GraphMapping
