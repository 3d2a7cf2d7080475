import GraphMapping.ObjectGraph.Populate

/-!
# Object graphs from load results

A load result becomes linked objects: one for each node, one for each relationship that has an object of
its own, and every relationship recorded in the fields that the registry binds to it.  Repeated nodes
and relationships count once.
-/

namespace GraphMapping

/-- The objects built from a load result. -/
structure ObjectGraph where
  /-- The object of each node, by the node's number. -/
  nodes : List (Int64 × Ref)
  /-- The relationship-objects, by the relationship's number. -/
  edges : List (Int64 × Ref)
  /-- The numbers of the matched nodes in the order of the result. -/
  primaries : List Int64

/-- A relationship and what the registry says of it. -/
structure EdgeLink where
  edge : StoredEdge
  taken : EdgeMatch
  /-- The relationship's object. -/
  object : Option Ref

namespace ObjectGraph

variable {σ : Type}

/-- The object of a node. -/
def get? (g : ObjectGraph) (id : Int64) : Option Ref :=
  g.nodes.lookup id

/-- The objects of the matched nodes. -/
def primaryRefs (g : ObjectGraph) : List Ref :=
  g.primaries.filterMap g.get?

/-- Entries in ascending order of their numbers. -/
def ascending (entries : List (Int64 × Ref)) : List (Int64 × Ref) :=
  entries.mergeSort fun a b => a.1.toInt ≤ b.1.toInt

/-- All objects: those of nodes, then those of relationships, each in the order of their numbers. -/
def objects (g : ObjectGraph) : List Ref :=
  (ascending g.nodes ++ ascending g.edges).map (·.2)

/-- The object of a matched node, as one of type `type`. -/
def typed (g : ObjectGraph) (heap : Heap σ) (type : TypeName) (id : Int64) : Except Error Ref :=
  match g.get? id with
  | some r => heap.cast type r
  | none => .error (.internal ("primary node " ++ toString id.toInt ++ " was not built"))

/-- The first matched object, as one of type `type`. -/
def single (g : ObjectGraph) (heap : Heap σ) (type : TypeName) : Except Error Ref :=
  match g.primaries with
  | [] => .error (.notFound "no primary nodes in result")
  | id :: _ => g.typed heap type id

/-- All matched objects, as ones of type `type`. -/
def all (g : ObjectGraph) (heap : Heap σ) (type : TypeName) : Except Error (List Ref) :=
  g.primaries.mapM (g.typed heap type)

/-- A new object of a registered type, filled from properties. -/
def build (model : EntityModel σ) (registry : Registry) (d : TypeDescriptor) (id : Int64)
    (properties : Dict Value) (heap : Heap σ) : Except Error (Ref × Heap σ) := do
  let state ← populate model registry.strategy.isNative d id properties (model.fresh d.type)
  return heap.alloc d.type state

/-- Build the objects of nodes, each number once. -/
def buildNodes (model : EntityModel σ) (registry : Registry) :
    List StoredNode → List (Int64 × Ref) → Heap σ → Except Error (List (Int64 × Ref) × Heap σ)
  | [], built, heap => .ok (built, heap)
  | node :: rest, built, heap =>
      if (built.lookup node.id).isSome then buildNodes model registry rest built heap
      else do
        let d ← registry.withLabels node.labels
        let (r, heap) ← build model registry d node.id node.properties heap
        buildNodes model registry rest (built ++ [(node.id, r)]) heap

/-- The numbers in a list of nodes, each once. -/
def distinctIds (nodes : List StoredNode) : List Int64 :=
  nodes.foldl (fun ids node => if ids.contains node.id then ids else ids ++ [node.id]) []

/-- The label under which each node is registered: of its first entry that has one. -/
def nodeLabels (registry : Registry) (nodes : List StoredNode) : List (Int64 × String) :=
  nodes.filterMap fun node =>
    match registry.withLabels node.labels with
    | .ok d => some (node.id, d.label)
    | .error _ => none

/-- The error for a relationship whose end is not among the nodes. -/
def missingEnd (e : StoredEdge) (id : Int64) : Error :=
  .data ("relationship " ++ toString e.id.toInt ++ " (" ++ e.type ++ ") points to node " ++
    toString id.toInt ++ " which is not in the result")

/-- What is recorded for the end of a relationship. -/
def endOf {α : Type} (table : List (Int64 × α)) (e : StoredEdge) (id : Int64) : Except Error α :=
  match table.lookup id with
  | some a => .ok a
  | none => .error (missingEnd e id)

/-- Build the object of a relationship, if it has one. -/
def buildObject (model : EntityModel σ) (registry : Registry) (e : StoredEdge)
    (object : Option TypeName) (heap : Heap σ) : Except Error (Option Ref × Heap σ) :=
  match object with
  | none => .ok (none, heap)
  | some type => do
      let d ← registry.descriptor type
      let (r, heap) ← build model registry d e.id e.properties heap
      return (some r, heap)

/-- Find out where relationships belong and build their objects; `seen` are the numbers of earlier ones. -/
def resolveEdges (model : EntityModel σ) (registry : Registry) (labels : List (Int64 × String)) :
    List StoredEdge → List Int64 → Heap σ → Except Error (List EdgeLink × Heap σ)
  | [], _, heap => .ok ([], heap)
  | e :: rest, seen, heap =>
      if seen.contains e.id then resolveEdges model registry labels rest seen heap
      else do
        let start ← endOf labels e e.start
        let finish ← endOf labels e e.finish
        let taken ← registry.resolve ⟨start, e.type, finish⟩
        let (object, heap) ← buildObject model registry e taken.object heap
        let (links, heap) ← resolveEdges model registry labels rest (e.id :: seen) heap
        return (⟨e, taken, object⟩ :: links, heap)

/-- Record `target` in the field that a relationship is bound to on one side. -/
def relateSide (model : EntityModel σ) (binding : Option Binding) (owner target : Ref)
    (heap : Heap σ) : Except Error (Heap σ) :=
  match binding with
  | none => .ok heap
  | some b => heap.relate model owner b.field target

/-- Join a relationship-object to both ends. -/
def joinObject (model : EntityModel σ) (object start finish : Ref) (heap : Heap σ) :
    Except Error (Heap σ) :=
  if model.canJoin (heap.stateOf object) then do
    let heap ← heap.join model object .start start
    heap.join model object .finish finish
  else .error (.internal (heap.typeOf object ++ " exposes no endpoints"))

/-- Link the objects at the ends of a relationship. -/
def link (model : EntityModel σ) (nodes : List (Int64 × Ref)) (heap : Heap σ) (l : EdgeLink) :
    Except Error (Heap σ) := do
  let start ← endOf nodes l.edge l.edge.start
  let finish ← endOf nodes l.edge l.edge.finish
  match l.object with
  | some object =>
      -- The object knows its ends before any field refers to it.
      let heap ← joinObject model object start finish heap
      let heap ← relateSide model l.taken.start start object heap
      relateSide model l.taken.finish finish object heap
  | none =>
      let heap ← relateSide model l.taken.start start finish heap
      relateSide model l.taken.finish finish start heap

/-- Build and link the objects of a load result. -/
def ofResult (model : EntityModel σ) (registry : Registry) (result : LoadResult) (heap : Heap σ) :
    Except Error (ObjectGraph × Heap σ) := do
  if !result.hasPrimaries then throw (.data "result has no primary nodes")
  let entries := result.primaries ++ result.others
  -- All objects are built before the first link is made.
  let (nodes, heap) ← buildNodes model registry entries [] heap
  let relationships ← result.relationships
  let (links, heap) ← resolveEdges model registry (nodeLabels registry entries) relationships [] heap
  let heap ← links.foldlM (link model nodes) heap
  let edges := links.filterMap fun l => l.object.map fun r => (l.edge.id, r)
  return (⟨nodes, edges, distinctIds result.primaries⟩, heap)

end ObjectGraph

end GraphMapping
