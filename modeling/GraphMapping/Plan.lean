import GraphMapping.Entity

/-!
# Save plans

A plan lists what a save writes: nodes by label, relationships by type, and the keys generated for new
objects.  The keys are handed to the objects only after the save has been committed.
-/

namespace GraphMapping

/-- The largest depth of a walk. -/
def maxDepth : Nat := 10

/-- Refuse a depth above the largest. -/
def checkDepth (depth : Nat) : Except Error Unit :=
  if maxDepth < depth then
    .error (.configuration ("depth " ++ toString depth ++ " is outside 0..=" ++ toString maxDepth))
  else .ok ()

/-- What the identities of new nodes begin with while the database has not numbered them. -/
def temporaryFront : String := "new:"

/-- One node to write. -/
structure PlannedNode where
  identity : String
  label : String
  /-- The identity was given by the plan. -/
  isNew : Bool
  /-- The key as stored; absent where the database assigns keys. -/
  key : Option Value
  /-- The stored properties without the key. -/
  params : Dict Value
  /-- The object that the node stands for. -/
  ref : Ref

/-- One relationship to write. -/
structure PlannedEdge where
  start : String
  finish : String
  label : String
  /-- The relationship has no direction. -/
  undirected : Bool
  /-- The relationship has an object of its own. -/
  object : Bool
  /-- The key of the relationship-object, if it has one. -/
  key : Option Value
  /-- The stored properties. -/
  params : Dict Value

/-- A generated key that its object does not hold yet. -/
structure AssignedKey where
  ref : Ref
  field : String
  value : Value

/-- What a save writes. -/
structure Plan where
  nodes : Dict (List PlannedNode)
  edges : Dict (List PlannedEdge)
  assigned : List AssignedKey

/-- An integer of 64 bits in decimal notation, with or without a sign. -/
def readInt64 (text : String) : Option Int64 :=
  let number (sign : Int) (digits : List Char) : Option Int64 :=
    if digits.isEmpty || !digits.all Char.isDigit then none
    else
      let n := sign * Nat.ofDigitChars 10 digits 0
      if -9223372036854775808 ≤ n ∧ n ≤ 9223372036854775807 then some (Int64.ofInt n) else none
  match text.toList with
  | '-' :: digits => number (-1) digits
  | '+' :: digits => number 1 digits
  | digits => number 1 digits

/-- The database's number of a node that it has numbered already. -/
def PlannedNode.nativeId (n : PlannedNode) : Option Int64 :=
  if n.isNew then none else readInt64 n.identity

namespace Plan

/-- The plan that writes nothing. -/
def empty : Plan := ⟨[], [], []⟩

/-- All nodes, label by label. -/
def allNodes (p : Plan) : List PlannedNode :=
  p.nodes.flatMap (·.2)

/-- All relationships, type by type. -/
def allEdges (p : Plan) : List PlannedEdge :=
  p.edges.flatMap (·.2)

/-- The node with a label and an identity. -/
def node? (p : Plan) (label identity : String) : Option PlannedNode :=
  (p.nodes.find? label).bind fun nodes => nodes.find? (·.identity == identity)

variable {σ : Type}

/-- Hand keys to their objects in order, until one does not take its key. -/
def assignAll (model : EntityModel σ) : List AssignedKey → Heap σ → Except Error Unit × Heap σ
  | [], heap => (.ok (), heap)
  | a :: rest, heap =>
      match heap.assign model a.ref a.field a.value with
      | .ok heap => assignAll model rest heap
      | .error e => (.error e, heap)

/-- Hand the generated keys to their objects; the result is how many there are. -/
def assignKeys (p : Plan) (model : EntityModel σ) (heap : Heap σ) : Except Error Nat × Heap σ :=
  let (result, heap) := assignAll model p.assigned heap
  (result.map fun _ => p.assigned.length, heap)

end Plan

end GraphMapping
