import GraphMapping.Plan.Batch

/-!
# Writing a plan

The batches of a plan run one after the other in the caller's transaction, nodes before relationships.
The answers are checked: every node row comes back with key and number, and every relationship is
written.  The first problem ends the writing.
-/

namespace GraphMapping

variable {δ σ : Type}

/-- Take up the numbers that a node batch gives back. -/
def collectIds (ids : GraphIds) : List Record → Except Error GraphIds
  | [] => .ok ids
  | row :: rest =>
      match (Dict.find? row "key").bind Value.key?, row.int? "id" with
      | none, _ => .error (.internal "upsert row without key")
      | _, none => .error (.internal "upsert row without id")
      | some key, some id => collectIds (ids.insert key id) rest

/-- Write one batch of nodes. -/
def writeNodes (server : Server δ) (label : String) (ids : GraphIds) (s : Statement) :
    Action δ GraphIds := do
  let rows ← (server.run s).mapError (batchFailed label (firstIdentity s))
  -- A row that cannot be read is reported before a wrong number of rows.
  let ids ← Action.ofExcept (collectIds ids rows)
  if rows.length ≠ s.batch.length then
    Action.fail (batchFailed label (firstIdentity s) (.data (
      "primary key round trip mismatch: sent " ++ toString s.batch.length ++ " rows, got " ++
        toString rows.length ++ " back")))
  else return ids

/-- Write one batch of relationships. -/
def writeEdges (server : Server δ) (label : String) (s : Statement) : Action δ Unit := do
  let rows ← (server.run s).mapError (batchFailed label (firstIdentity s))
  let written := ((rows.head?.bind (·.int? "written")).getD 0).toInt
  if written ≠ s.batch.length then
    Action.fail (batchFailed label (firstIdentity s) (.data ("wrote " ++ toString written ++ " of " ++
      toString s.batch.length ++ " relationships, an endpoint is missing")))
  else return ()

/-- Write the nodes of all labels. -/
def persistNodes (server : Server δ) (strategy : KeyStrategy) :
    Dict (List PlannedNode) → GraphIds → Action δ GraphIds
  | [], ids => return ids
  | (label, nodes) :: rest, ids => do
      let batches ← Action.ofExcept (nodeBatches strategy label nodes)
      let ids ← batches.foldlM (writeNodes server label) ids
      persistNodes server strategy rest ids

/-- Write the relationships of all types. -/
def persistEdges (server : Server δ) (strategy : KeyStrategy) (ids : GraphIds) :
    Dict (List PlannedEdge) → Action δ Unit
  | [] => return ()
  | (label, edges) :: rest => do
      let batches ← Action.ofExcept (edgeBatches strategy ids label edges)
      batches.forM (writeEdges server label)
      persistEdges server strategy ids rest

/-- Write a plan; the result are the numbers of all nodes, by identity. -/
def Plan.persist (p : Plan) (server : Server δ) (strategy : KeyStrategy) : Action δ GraphIds := do
  let ids ← persistNodes server strategy p.nodes []
  persistEdges server strategy ids p.edges
  return ids

/-- Hand the database's numbers to the objects of new nodes, until one fails; `count` objects have got
theirs before. -/
def numberAll (model : EntityModel σ) (registry : Registry) (ids : GraphIds) (count : Nat) :
    List PlannedNode → Heap σ → Except Error Nat × Heap σ
  | [], heap => (.ok count, heap)
  | n :: rest, heap =>
      match ids.find? n.identity, registry.descriptor (heap.typeOf n.ref) with
      | none, _ =>
          (.error (.data ("no graph id returned for new " ++ n.label ++ " " ++ n.identity)), heap)
      | _, .error e => (.error e, heap)
      | some id, .ok d =>
          match d.key? with
          | none => numberAll model registry ids count rest heap
          | some pk =>
              match heap.assign model n.ref pk.field (.int id) with
              | .ok heap => numberAll model registry ids (count + 1) rest heap
              | .error e => (.error e, heap)

/-- Hand the database's numbers to the objects of new nodes, if the database assigns keys; the result is
how many objects got one. -/
def Plan.writeBack (p : Plan) (model : EntityModel σ) (registry : Registry) (ids : GraphIds)
    (heap : Heap σ) : Except Error Nat × Heap σ :=
  if registry.strategy.isNative then
    numberAll model registry ids 0 (p.allNodes.filter (·.isNew)) heap
  else (.ok 0, heap)

end GraphMapping
