import GraphMapping.Error
import GraphMapping.Value

/-!
# Load results

A load statement answers with relationships, the nodes on the matched paths and the matched nodes
themselves.  The first entry of the relationships is a placeholder without one.
-/

namespace GraphMapping

/-- A node as the database gives it. -/
structure StoredNode where
  id : Int64
  labels : List String
  properties : Dict Value

/-- A relationship as the database gives it. -/
structure StoredEdge where
  id : Int64
  start : Int64
  finish : Int64
  type : String
  properties : Dict Value

/-- The answer of a load statement. -/
structure LoadResult where
  edges : List (Option StoredEdge)
  others : List StoredNode
  primaries : List StoredNode

namespace LoadResult

/-- The answer that matched nothing. -/
def empty : LoadResult := ⟨[], [], []⟩

/-- An answer with the placeholder put before its relationships. -/
def ofParts (edges : List StoredEdge) (others primaries : List StoredNode) : LoadResult :=
  ⟨none :: edges.map some, others, primaries⟩

/-- Whether any node was matched. -/
def hasPrimaries (r : LoadResult) : Bool :=
  !r.primaries.isEmpty

/-- The relationships of entries numbered from `index`, each of which must hold one. -/
def present (index : Nat) : List (Option StoredEdge) → Except Error (List StoredEdge)
  | [] => .ok []
  | none :: _ => .error (.internal ("null edge at index " ++ toString index))
  | some e :: rest => do
      let edges ← present (index + 1) rest
      return e :: edges

/-- The relationships after the placeholder. -/
def relationships (r : LoadResult) : Except Error (List StoredEdge) :=
  present 1 r.edges.tail

end LoadResult

end GraphMapping
