import GraphMapping.Statement.Condition

/-!
# Load and delete statements

A load statement matches the nodes of a label, keeps a window of them in some order, and collects
everything within a number of hops.  It answers with one row of three columns: the relationships (after
an entry without one), the nodes on the paths, and the matched nodes.
-/

namespace GraphMapping

/-- The column of relationships. -/
def edgesColumn : String := "edges"

/-- The column of nodes on the paths. -/
def othersColumn : String := "others"

/-- The column of matched nodes. -/
def primariesColumn : String := "primaries"

/-- A property to sort by. -/
structure Order where
  property : String
  descending : Bool
deriving DecidableEq, Repr

/-- The text of a sort key. -/
def Order.text (o : Order) : String :=
  Identifier.property "n" o.property ++ (if o.descending then " DESC" else "")

/-- How many nodes to skip and how many to keep. -/
structure Window where
  skip : Option UInt64
  limit : Option UInt64
deriving DecidableEq, Repr

namespace Window

/-- All nodes. -/
def all : Window := ⟨none, none⟩

/-- Page `page` (from 0) of `size` nodes; the number of skipped nodes stays at the largest number. -/
def page (page size : UInt64) : Window :=
  ⟨some (UInt64.ofNat (min (page.toNat * size.toNat) (UInt64.size - 1))), some size⟩

end Window

/-- A number as a parameter, at most the largest signed one. -/
def clamp (n : UInt64) : Value :=
  .int (Int64.ofNat (min n.toNat ((1 <<< 63) - 1)))

/-- A query for the nodes of one label and all within `depth` hops. -/
structure LoadQuery where
  label : String
  depth : Nat
  filter : Filter
  order : List Order
  window : Window

namespace LoadQuery

/-- The text that orders and restricts the matched nodes. -/
def windowText (q : LoadQuery) : String :=
  (if q.order.isEmpty then "" else " ORDER BY " ++ ", ".intercalate (q.order.map Order.text)) ++
    (if q.window.skip.isSome then " SKIP $skip" else "") ++
    (if q.window.limit.isSome then " LIMIT $limit" else "")

/-- The parameters of the window. -/
def windowParams (q : LoadQuery) (params : Dict Value) : Dict Value :=
  let params := match q.window.skip with
    | some n => params.insert "skip" (clamp n)
    | none => params
  match q.window.limit with
  | some n => params.insert "limit" (clamp n)
  | none => params

/-- The part of the text that collects what is connected to the matched nodes. -/
def collectText (q : LoadQuery) : String :=
  "\nOPTIONAL MATCH path = (n)-[*0.." ++ toString q.depth ++ "]-()\n" ++
    "WITH collect(DISTINCT n) AS " ++ primariesColumn ++ ", collect(path) AS paths\n" ++
    "RETURN [null] + reduce(rs = [], q IN paths | rs + relationships(q)) AS " ++ edgesColumn ++
    ",\nreduce(ns = [], q IN paths | ns + nodes(q)) AS " ++ othersColumn ++ ",\n" ++
    primariesColumn

/-- The text of the statement, given its clause. -/
def text (q : LoadQuery) (clause : Clause) : String :=
  "MATCH (n:" ++ Identifier.quote q.label ++ ")" ++
    (if clause.hasConditions then "\n" ++ clause.text else "") ++
    (if q.windowText = "" then "" else "\nWITH n" ++ q.windowText) ++ q.collectText

/-- The statement of a query. -/
def statement (q : LoadQuery) : Statement :=
  let clause := Clause.ofConditions "n" q.filter
  ⟨.load, q.text clause, q.windowParams clause.params,
    [edgesColumn, othersColumn, primariesColumn]⟩

end LoadQuery

/-- The statement that deletes the matching nodes of a label with all their relationships. -/
def deleteStatement (label : String) (filter : Filter) : Statement :=
  let clause := Clause.ofConditions "n" filter
  ⟨.delete, "MATCH (n:" ++ Identifier.quote label ++ ")\n" ++ clause.text ++
    "\nDETACH DELETE n\nRETURN count(*) AS deleted", clause.params, ["deleted"]⟩

end GraphMapping
