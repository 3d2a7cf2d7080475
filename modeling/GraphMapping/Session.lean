import GraphMapping.ObjectGraph
import GraphMapping.Plan.Persist
import GraphMapping.Plan.Walk
import GraphMapping.Schema.Reconcile
import GraphMapping.Statement.Load

/-!
# Sessions

A mapper holds a frozen registry and the configured databases.  A session works on one of them: each
save, load or delete runs in a transaction of its own and within a time limit.
-/

namespace GraphMapping

/-- What sessions work on: the objects, how many keys were taken from the generator, and the databases. -/
structure World (σ δ : Type) where
  heap : Heap σ
  taken : Nat
  db : δ

/-- Do something with the databases of a world. -/
def Action.onDatabase {σ δ α : Type} (x : Action δ α) : Action (World σ δ) α := fun w =>
  let (reply, db) := x w.db
  (reply, { w with db := db })

/-- Do something with the objects of a world. -/
def Action.onHeap {σ δ α : Type} (f : Heap σ → Except Error α × Heap σ) : Action (World σ δ) α :=
  fun w =>
    let (result, heap) := f w.heap
    (.ofExcept result, { w with heap := heap })

/-- What every session starts with. -/
structure SessionOptions where
  defaultDepth : Nat
  timeout : Duration
deriving DecidableEq, Repr

/-- Depth 1 and 30 seconds. -/
def SessionOptions.standard : SessionOptions :=
  ⟨1, .ofSeconds 30⟩

/-- A registry with its databases. -/
structure Mapper (δ : Type) where
  registry : Registry
  targets : List (Target δ)
  options : SessionOptions

/-- A unit of work on one database. -/
structure Session (δ : Type) where
  registry : Registry
  server : Server δ
  options : SessionOptions

namespace Mapper

variable {δ : Type}

/-- A mapper for connected databases, of which there must be one at least. -/
def new (registry : Registry) (targets : List (Target δ)) (options : SessionOptions) :
    Except Error (Mapper δ) := do
  if targets.isEmpty then throw (.configuration "at least one database target is required")
  checkDepth options.defaultDepth
  return ⟨registry, targets, options⟩

/-- A session on a target. -/
def sessionOn (m : Mapper δ) (t : Target δ) : Session δ :=
  ⟨m.registry, t.server, m.options⟩

/-- A session on the named database, or on the first one. -/
def session (m : Mapper δ) : Option String → Except Error (Session δ)
  | none =>
      match m.targets with
      | [] => .error (.configuration "at least one database target is required")
      | t :: _ => .ok (m.sessionOn t)
  | some name =>
      match m.targets.find? (·.database == some name) with
      | some t => .ok (m.sessionOn t)
      | none => .error (.configuration ("database '" ++ name ++ "' is not configured"))

/-- Apply a schema policy to all databases. -/
def reconcile (m : Mapper δ) (policy : SchemaPolicy) : Action δ Unit :=
  policy.apply m.registry m.targets

end Mapper

namespace Session

variable {σ δ : Type}

/-- The session with another time limit. -/
def withTimeout (s : Session δ) (limit : Duration) : Session δ :=
  { s with options := { s.options with timeout := limit } }

/-- Plan in a world. -/
def plan (registry : Registry) (model : EntityModel σ) (root : Ref) (depth : Nat) :
    Action (World σ δ) Plan := fun w =>
  let (result, taken) := Plan.make model registry w.heap root depth w.taken
  (.ofExcept result, { w with taken := taken })

/-- Save an object and what is within `depth` hops.  Objects get their keys after the commit. -/
def save (s : Session δ) (model : EntityModel σ) (root : Ref) (depth : Nat) :
    Action (World σ δ) Unit :=
  Action.within s.options.timeout do
    let plan ← plan s.registry model root depth
    -- No object has changed so far: only what is committed is handed to the objects.
    let ids ← (s.server.transaction (plan.persist s.server s.registry.strategy)).onDatabase
    let _ ← Action.onHeap (plan.assignKeys model)
    let _ ← Action.onHeap (plan.writeBack model s.registry ids)
    return ()

/-- The descriptor of a node type. -/
def nodeDescriptor (s : Session δ) (type : TypeName) : Except Error TypeDescriptor := do
  let d ← s.registry.descriptor type
  if d.isObject then
    throw (.configuration (d.type ++ " is a relationship object and cannot be loaded by key"))
  return d

/-- The condition that picks the node with a key. -/
def keyFilter (strategy : KeyStrategy) (label : String) (key : Value) : Except Error Filter :=
  if strategy.isNative then
    match key.int? with
    | some id => .ok [.nativeId id]
    | none => .error (.data (label ++ " keys are graph ids, got a " ++ key.kind.name ++ " value"))
  else if key.kind = strategy.kind then .ok [.compare strategy.field .eq key]
  else .error (.data (label ++ " keys are " ++ strategy.kind.name ++ " values, got " ++ key.kind.name))

/-- Build the objects of a load result in a world; nothing if it matched nothing. -/
def rebuild (s : Session δ) (model : EntityModel σ) (result : LoadResult) :
    Action (World σ δ) (Option ObjectGraph) := fun w =>
  if result.hasPrimaries then
    match ObjectGraph.ofResult model s.registry result w.heap with
    | .ok (graph, heap) => (.ok (some graph), { w with heap := heap })
    | .error e => (.error e, w)
  else (.ok none, w)

/-- Run a query and build its objects. -/
def fetch (s : Session δ) (model : EntityModel σ) (query : LoadQuery) :
    Action (World σ δ) (Option ObjectGraph) := do
  Action.ofExcept (checkDepth query.depth)
  Action.within s.options.timeout do
    let result ← (s.server.transaction (s.server.fetch query.statement)).onDatabase
    s.rebuild model result

/-- Load the object of a type with a key. -/
def load (s : Session δ) (model : EntityModel σ) (type : TypeName) (key : Value) (depth : Nat) :
    Action (World σ δ) Ref := do
  let d ← Action.ofExcept (s.nodeDescriptor type)
  let filter ← Action.ofExcept (keyFilter s.registry.strategy d.label key)
  match ← s.fetch model ⟨d.label, depth, filter, [], .all⟩ with
  | none => Action.fail (.notFound (d.label ++ " with key " ++ key.key?.getD "" ++ " does not exist"))
  | some graph => fun w => (.ofExcept (graph.single w.heap type), w)

/-- Load all objects of a type that match a filter, in some order and window. -/
def loadAll (s : Session δ) (model : EntityModel σ) (type : TypeName) (depth : Nat)
    (filter : Filter) (order : List Order) (window : Window) : Action (World σ δ) (List Ref) := do
  let d ← Action.ofExcept (s.nodeDescriptor type)
  match ← s.fetch model ⟨d.label, depth, filter, order, window⟩ with
  | none => return []
  | some graph => fun w => (.ofExcept (graph.all w.heap type), w)

/-- Delete the nodes of a type with a key; the result is how many there were. -/
def deleteMatching (s : Session δ) (d : TypeDescriptor) (key : Value) : Action δ Int64 := do
  let filter ← Action.ofExcept (keyFilter s.registry.strategy d.label key)
  Action.within s.options.timeout do
    let rows ← s.server.transaction (s.server.run (deleteStatement d.label filter))
    return (rows.head?.bind (Record.int? · "deleted")).getD 0

/-- The type and the key of an object that was saved before. -/
def savedKey (s : Session δ) (model : EntityModel σ) (heap : Heap σ) (r : Ref) :
    Except Error (TypeDescriptor × Value) := do
  let d ← s.registry.descriptor (heap.typeOf r)
  if d.isObject then
    throw (.configuration (d.type ++
      " is a relationship object; delete it through one of its endpoints"))
  match d.key? with
  | none => throw (.configuration (d.type ++ " has no primary key"))
  | some pk =>
      let key := heap.value model r pk.field
      if key.isNull then
        throw (.data ("cannot delete a " ++ d.label ++ " that was never saved"))
      return (d, key)

/-- Delete the node of an object. -/
def delete (s : Session δ) (model : EntityModel σ) (r : Ref) : Action (World σ δ) Int64 := fun w =>
  match s.savedKey model w.heap r with
  | .error e => (.error e, w)
  | .ok (d, key) => (s.deleteMatching d key).onDatabase w

/-- Delete the nodes of a type with a key. -/
def deleteByKey (s : Session δ) (type : TypeName) (key : Value) : Action δ Int64 := do
  let d ← Action.ofExcept (s.nodeDescriptor type)
  s.deleteMatching d key

end Session

end GraphMapping
