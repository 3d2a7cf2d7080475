import GraphMapping.Database.Action
import GraphMapping.Identifier
import GraphMapping.Plan

/-!
# Batches

A plan is written in batches: one statement for the nodes of a label, or two where the database assigns
keys, and then one for the relationships of a type for each combination of direction, key and object
that occurs.  The rows of a batch travel in the parameter `rows`.
-/

namespace GraphMapping

/-- The numbers that the database has given to nodes, by identity. -/
abbrev GraphIds := Dict Int64

/-- The row of a node. -/
def nodeRow (entries : List (String × Value)) (n : PlannedNode) : Value :=
  .map (Dict.ofList (("key", .string n.identity) :: ("props", .map n.params) :: entries))

/-- A statement that writes rows of nodes; `pattern` finds or makes the node of a row. -/
def nodeBatch (pattern : String) (rows : List Value) : Statement :=
  ⟨.nodeUpsert, "UNWIND $rows AS row\n" ++ pattern ++ "\nSET n += row.props\n" ++
    "RETURN row.key AS key, id(n) AS id", [("rows", .list rows)], ["key", "id"]⟩

/-- Merge nodes by their stored keys. -/
def mergeBatch (label field : String) (nodes : List PlannedNode) : Statement :=
  nodeBatch ("MERGE (n:" ++ Identifier.quote label ++ " \x7b" ++ Identifier.quote field ++
    ": row.pk\x7d)") (nodes.map fun n => nodeRow [("pk", n.key.getD .null)] n)

/-- The row of a node that the database has numbered. -/
def numberedRow (label : String) (n : PlannedNode) : Except Error Value :=
  match n.nativeId with
  | some id => .ok (nodeRow [("id", .int id)] n)
  | none => .error (.internal (label ++ " key '" ++ n.identity ++ "' is not a graph id"))

/-- Match nodes by the database's numbers. -/
def updateBatch (label : String) (nodes : List PlannedNode) : Except Error Statement := do
  let rows ← nodes.mapM (numberedRow label)
  return nodeBatch ("MATCH (n:" ++ Identifier.quote label ++ ") WHERE id(n) = row.id") rows

/-- Create nodes for the database to number. -/
def createBatch (label : String) (nodes : List PlannedNode) : Statement :=
  nodeBatch ("CREATE (n:" ++ Identifier.quote label ++ ")") (nodes.map (nodeRow []))

/-- The statements that write the nodes of a label. -/
def nodeBatches (strategy : KeyStrategy) (label : String) (nodes : List PlannedNode) :
    Except Error (List Statement) := do
  if !strategy.isNative then return [mergeBatch label strategy.field nodes]
  -- Nodes with a number are matched by it; the others are created and get theirs from the answer.
  let existing := nodes.filter (!·.isNew)
  let created := nodes.filter (·.isNew)
  let updates ← if existing.isEmpty then pure [] else (updateBatch label existing).map ([·])
  return updates ++ (if created.isEmpty then [] else [createBatch label created])

/-- The error of a failed batch. -/
def batchFailed (label identity : String) (source : Error) : Error :=
  .persist label identity source

/-- The number of a relationship's end. -/
def endId (ids : GraphIds) (label key : String) : Except Error Int64 :=
  match ids.find? key with
  | some id => .ok id
  | none => .error (batchFailed label key (.data ("endpoint " ++ key ++ " was not persisted")))

/-- The row of a relationship. -/
def edgeRow (ids : GraphIds) (label : String) (e : PlannedEdge) : Except Error Value := do
  let start ← endId ids label e.start
  let finish ← endId ids label e.finish
  let entries : List (String × Value) :=
    [("key", .string (e.start ++ "->" ++ e.finish)), ("start", .int start), ("end", .int finish),
      ("props", .map e.params)]
  return .map (Dict.ofList (match e.key with
    | some key => entries ++ [("pk", key)]
    | none => entries))

/-- What the relationships of one batch have in common. -/
structure EdgeShape where
  undirected : Bool
  keyed : Bool
  object : Bool
deriving DecidableEq, Repr

/-- The shape of a relationship. -/
def PlannedEdge.shape (e : PlannedEdge) : EdgeShape :=
  ⟨e.undirected, e.key.isSome, e.object⟩

/-- All shapes, in the order of their batches. -/
def EdgeShape.all : List EdgeShape :=
  [⟨false, false, false⟩, ⟨false, false, true⟩, ⟨false, true, false⟩, ⟨false, true, true⟩,
    ⟨true, false, false⟩, ⟨true, false, true⟩, ⟨true, true, false⟩, ⟨true, true, true⟩]

/-- A statement that writes relationships of one shape.  Objects without a key are always created, so
that two of them between the same nodes stay two relationships. -/
def edgeBatch (label field : String) (shape : EdgeShape) (rows : List Value) : Statement :=
  let verb := if shape.object && !shape.keyed then "CREATE" else "MERGE"
  let key := if shape.keyed then " \x7b" ++ Identifier.quote field ++ ": row.pk\x7d" else ""
  let arrow := if shape.undirected then "-" else "->"
  ⟨.relationshipUpsert, "UNWIND $rows AS row\nMATCH (s) WHERE id(s) = row.start\n" ++
    "MATCH (e) WHERE id(e) = row.end\n" ++ verb ++ " (s)-[r:" ++ Identifier.quote label ++ key ++
    "]" ++ arrow ++ "(e)\nSET r += row.props\nRETURN count(r) AS written",
    [("rows", .list rows)], ["written"]⟩

/-- The statements that write the relationships of a type. -/
def edgeBatches (strategy : KeyStrategy) (ids : GraphIds) (label : String)
    (edges : List PlannedEdge) : Except Error (List Statement) := do
  -- All rows are made before the first statement, so that a missing end stops the whole type.
  let rows ← edges.mapM fun e => (edgeRow ids label e).map fun row => (e.shape, row)
  return EdgeShape.all.filterMap fun shape =>
    match rows.filter (·.1 == shape) with
    | [] => none
    | group => some (edgeBatch label strategy.field shape (group.map (·.2)))

/-- The identity in the first row of a batch. -/
def firstIdentity (s : Statement) : String :=
  match s.batch.head? with
  | some (.map row) => ((Dict.find? row "key").bind Value.key?).getD ""
  | _ => ""

end GraphMapping
