import GraphMapping.Plan.Snapshot

/-!
# Walking an object graph

A plan comes from a walk that starts at a root and follows relationship fields depth first, for a
bounded number of hops.  The walk never steps straight back to the object it came from; apart from
that an object may be walked more than once, and what it contributes is recorded once.
-/

namespace GraphMapping

/-- How an object is identified within one plan. -/
structure Identity where
  key : String
  isNew : Bool
  /-- The key made for a new object. -/
  generated : Option Value

/-- What a walk has met so far. -/
structure WalkState where
  identities : List (Ref × Identity)
  nodesSeen : List (String × String)
  edgesSeen : List (String × String × String)
  objectsSeen : List Ref
  /-- How many temporary identities were given. -/
  temporaries : Nat
  /-- How many keys were taken from the generator. -/
  taken : Nat
  plan : Plan

/-- A step of a walk; what was met before a failure is kept. -/
abbrev Walk (α : Type) := ExceptT Error (StateM WalkState) α

/-- What a walk looks at. -/
structure Walker (σ : Type) where
  model : EntityModel σ
  registry : Registry
  heap : Heap σ

namespace Walker

variable {σ : Type}

/-- The descriptor of an object's type. -/
def descriptor (w : Walker σ) (r : Ref) : Except Error TypeDescriptor :=
  w.registry.descriptor (w.heap.typeOf r)

/-- Take a key from the generator. -/
def generate (w : Walker σ) : Walk (Option Value) := do
  let (result, taken) := w.registry.strategy.generate (← get).taken
  modify fun s => { s with taken := taken }
  result

/-- Record a generated key. -/
def assign (r : Ref) (field : String) (value : Value) : Walk Unit :=
  modify fun s => { s with plan := { s.plan with assigned := s.plan.assigned ++ [⟨r, field, value⟩] } }

/-- The identity for an object that has no key. -/
def newIdentity (w : Walker σ) (r : Ref) (field : String) : Walk Identity := do
  let strategy := w.registry.strategy
  if strategy.isNative then
    modify fun s => { s with temporaries := s.temporaries + 1 }
    return ⟨temporaryFront ++ toString (← get).temporaries, true, none⟩
  else
    match ← w.generate with
    | none => throw (.configuration ("strategy '" ++ strategy.name ++ "' cannot generate keys"))
    | some value =>
        match value.key? with
        | none => throw (.internal ("strategy '" ++ strategy.name ++ "' generated an unusable key"))
        | some key =>
            assign r field value
            return ⟨key, true, some value⟩

/-- The identity of a node: known from before, or its key, or a new one. -/
def identify (w : Walker σ) (r : Ref) (d : TypeDescriptor) : Walk Identity := do
  match (← get).identities.lookup r with
  | some known => return known
  | none =>
      match d.key? with
      | none => throw (.configuration (d.type ++ " has no primary key"))
      | some pk =>
          let identity ← match (w.heap.value w.model r pk.field).key? with
            | some key => pure ⟨key, false, none⟩
            | none => w.newIdentity r pk.field
          modify fun s => { s with identities := (r, identity) :: s.identities }
          return identity

/-- The key of a node as stored; absent where the database assigns keys. -/
def storedKey (w : Walker σ) (r : Ref) (d : TypeDescriptor) (identity : Identity) : Option Value :=
  match d.key? with
  | some pk =>
      if w.registry.strategy.isNative then none
      else some (identity.generated.getD (w.heap.value w.model r pk.field)).storage
  | none => none

/-- Record a node, once for its label and identity. -/
def recordNode (w : Walker σ) (r : Ref) (d : TypeDescriptor) (identity : Identity) : Walk Unit := do
  if !(← get).nodesSeen.contains (d.label, identity.key) then
    -- The node counts as met even if its properties turn out to be at fault.
    modify fun s => { s with nodesSeen := (d.label, identity.key) :: s.nodesSeen }
    let params ← snapshot w.model d (w.heap.stateOf r)
    let node : PlannedNode :=
      ⟨identity.key, d.label, identity.isNew, w.storedKey r d identity, params, r⟩
    modify fun s => { s with plan := { s.plan with nodes := s.plan.nodes.push d.label node } }

/-- What tells one plain relationship from another: its type and its ends, in the order of their keys
where it has no direction. -/
def edgeMark (e : PlannedEdge) : String × String × String :=
  if e.undirected ∧ e.finish < e.start then (e.label, e.finish, e.start)
  else (e.label, e.start, e.finish)

/-- Add a relationship to the plan. -/
def pushEdge (e : PlannedEdge) : Walk Unit :=
  modify fun s => { s with plan := { s.plan with edges := s.plan.edges.push e.label e } }

/-- Record a plain relationship, once. -/
def recordEdge (e : PlannedEdge) : Walk Unit := do
  if !(← get).edgesSeen.contains (edgeMark e) then
    modify fun s => { s with edgesSeen := edgeMark e :: s.edgesSeen }
    pushEdge e

/-- The key of a relationship-object: the one it has, or a new one; none where the database assigns keys
or the type has no key. -/
def objectKey (w : Walker σ) (r : Ref) (d : TypeDescriptor) : Walk (Option Value) := do
  match d.key? with
  | none => return none
  | some pk =>
      if w.registry.strategy.isNative then return none
      -- An unusable key is replaced like an absent one.
      let current := w.heap.value w.model r pk.field
      if current.key?.isSome then return some current
      match ← w.generate with
      | none => return none
      | some value =>
          assign r pk.field value
          return some value

/-- The stored properties of a relationship-object, the key among them. -/
def objectParams (w : Walker σ) (r : Ref) (d : TypeDescriptor) (key : Option Value) :
    Except Error (Dict Value) := do
  let params ← snapshot w.model d (w.heap.stateOf r)
  match d.key?, key with
  | some pk, some value => return params.insert pk.storage value.storage
  | _, _ => return params

/-- Record a relationship with an object of its own, once for the object. -/
def recordObject (w : Walker σ) (r : Ref) (d : TypeDescriptor) (label start finish : String) :
    Walk Unit := do
  if !(← get).objectsSeen.contains r then
    modify fun s => { s with objectsSeen := r :: s.objectsSeen }
    let key ← w.objectKey r d
    let params ← w.objectParams r d key
    pushEdge ⟨start, finish, label, false, true, key, params⟩

/-- Both ends of a relationship-object. -/
def endsOf (w : Walker σ) (r : Ref) (d : TypeDescriptor) : Except Error (Ref × Ref) :=
  match w.model.ends (w.heap.stateOf r) with
  | none =>
      .error (.internal (d.type ++
        " is registered as a relationship object but exposes no endpoints"))
  | some ⟨some start, some finish⟩ => .ok (start, finish)
  | some _ => .error (.data (d.label ++ " edge is invalid, sides not set"))

/-- The end of a relationship-object that is not its owner. -/
def opposite (d : TypeDescriptor) (owner : Ref) (ownerKey : String) (start finish : Ref)
    (startKey finishKey : String) : Except Error (Ref × String) :=
  if start = owner ∨ startKey = ownerKey then .ok (finish, finishKey)
  else if finish = owner ∨ finishKey = ownerKey then .ok (start, startKey)
  else .error (.data (d.label ++ " edge doesn't point to parent " ++ ownerKey))

/-- Record the relationship from `owner` to a node, and go on there by `visit` unless it is the node the
walk came from, or the owner itself. -/
def followNode (w : Walker σ) (visit : Ref → Option String → Walk Unit) (ownerKey : String)
    (role : RelationshipRole) (target : Ref) (d : TypeDescriptor) (came : Option String) :
    Walk Unit := do
  let targetKey := (← w.identify target d).key
  let (start, finish) := match role.direction with
    | .incoming => (targetKey, ownerKey)
    | _ => (ownerKey, targetKey)
  recordEdge ⟨start, finish, role.label, role.direction == .both, false, none, []⟩
  -- The relationship is recorded first: a step back adds it too, and only the walk ends here.
  if came = some targetKey ∨ targetKey = ownerKey then return
  visit target (some ownerKey)

/-- Record the relationship of a relationship-object of `owner`, and go on at its other end. -/
def followObject (w : Walker σ) (visit : Ref → Option String → Walk Unit) (owner : Ref)
    (ownerKey : String) (label : String) (r : Ref) (d : TypeDescriptor) (came : Option String) :
    Walk Unit := do
  let (start, finish) ← w.endsOf r d
  let startKey := (← w.identify start (← w.descriptor start)).key
  let finishKey := (← w.identify finish (← w.descriptor finish)).key
  -- Ends are compared as objects and by key: one node may be given by two objects.
  let (other, otherKey) ← opposite d owner ownerKey start finish startKey finishKey
  w.recordObject r d label startKey finishKey
  if came = some otherKey ∨ otherKey = ownerKey then return
  visit other (some ownerKey)

/-- Follow one reference of a relationship field. -/
def follow (w : Walker σ) (visit : Ref → Option String → Walk Unit) (owner : Ref)
    (ownerKey : String) (came : Option String) (role : RelationshipRole) (target : Ref) :
    Walk Unit := do
  let d ← w.descriptor target
  if d.isObject then w.followObject visit owner ownerKey role.label target d came
  else w.followNode visit ownerKey role target d came

/-- Record a node; the result are its descriptor and its identity. -/
def enter (w : Walker σ) (r : Ref) : Walk (TypeDescriptor × String) := do
  let d ← w.descriptor r
  if d.isObject then
    throw (.configuration (d.type ++ " is a relationship object but was reached as a node"))
  let identity ← w.identify r d
  w.recordNode r d identity
  return (d, identity.key)

/-- Everything that the relationship fields of an object refer to, field by field. -/
def references (w : Walker σ) (r : Ref) (d : TypeDescriptor) : List (RelationshipRole × Ref) :=
  d.relationships.flatMap fun (f, role) =>
    (w.model.related (w.heap.stateOf r) f.field).map fun target => (role, target)

/-- Walk from a node for a number of hops; `came` is the key of the node the walk came from. -/
def visit (w : Walker σ) : Nat → Ref → Option String → Walk Unit
  | 0, r, _ => do
      let _ ← w.enter r
  | hops + 1, r, came => do
      let (d, key) ← w.enter r
      (w.references r d).forM fun (role, target) => w.follow (visit w hops) r key came role target

end Walker

/-- The state of a walk that has met nothing. -/
def WalkState.start (taken : Nat) : WalkState :=
  ⟨[], [], [], [], 0, taken, Plan.empty⟩

/-- Check that a save can start at an object. -/
def checkRoot (registry : Registry) (type : TypeName) : Except Error Unit := do
  let d ← registry.descriptor type
  if d.isObject then
    throw (.configuration (d.type ++ " is a relationship object and cannot be saved on its own"))

/-- Plan to save what is within `depth` hops of an object.  `taken` is how many keys were taken from the
generator before; the result says how many were taken in all. -/
def Plan.make {σ : Type} (model : EntityModel σ) (registry : Registry) (heap : Heap σ) (root : Ref)
    (depth taken : Nat) : Except Error Plan × Nat :=
  match checkDepth depth, checkRoot registry (heap.typeOf root) with
  | .error e, _ => (.error e, taken)
  | _, .error e => (.error e, taken)
  | .ok _, .ok _ =>
      let walker : Walker σ := ⟨model, registry, heap⟩
      let (result, s) := (walker.visit depth root none).run (WalkState.start taken)
      (result.map fun _ => s.plan, s.taken)

end GraphMapping
