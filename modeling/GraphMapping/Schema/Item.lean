import GraphMapping.Identifier
import GraphMapping.Mapping.Registry
import GraphMapping.Statement

/-!
# Schema items

A schema item is a uniqueness constraint or an index on one node label.  Items are ordered: constraints
before indexes, then by label, then by properties; a set of items is the ascending list of them.
-/

namespace GraphMapping

/-- The two kinds of schema items. -/
inductive SchemaKind where
  | unique
  | index
deriving DecidableEq, Repr

/-- A constraint or an index on one node label. -/
structure SchemaItem where
  kind : SchemaKind
  label : String
  properties : List String
deriving DecidableEq, Repr

namespace SchemaItem

/-- Separate properties by commas. -/
def propertyList (properties : List String) : String :=
  ", ".intercalate (properties.map (Identifier.property "n"))

/-- What an item is about, as statements say it. -/
def body (item : SchemaItem) : String :=
  "FOR (n:" ++ Identifier.quote item.label ++ ") " ++
    match item.kind with
    | .unique => "REQUIRE " ++ propertyList item.properties ++ " IS UNIQUE"
    | .index => "ON (" ++ propertyList item.properties ++ ")"

/-- The word for a kind of item. -/
def keyword : SchemaKind → String
  | .unique => "CONSTRAINT"
  | .index => "INDEX"

/-- The text that stands for an item in reports. -/
def statement (item : SchemaItem) : String :=
  "CREATE " ++ keyword item.kind ++ " " ++ item.body

/-- The statement that creates an item unless it exists. -/
def creation (item : SchemaItem) : Statement :=
  .plain .schemaChange ("CREATE " ++ keyword item.kind ++ " IF NOT EXISTS " ++ item.body)

/-- Compare lists of names, name by name. -/
def compareNames : List String → List String → Ordering
  | [], [] => .eq
  | [], _ :: _ => .lt
  | _ :: _, [] => .gt
  | a :: as, b :: bs => if a < b then .lt else if a = b then compareNames as bs else .gt

/-- The rank of a kind. -/
def rank : SchemaKind → Nat
  | .unique => 0
  | .index => 1

/-- Compare items: by kind, then by label, then by properties. -/
def order (a b : SchemaItem) : Ordering :=
  if rank a.kind < rank b.kind then .lt
  else if rank b.kind < rank a.kind then .gt
  else if a.label < b.label then .lt
  else if a.label = b.label then compareNames a.properties b.properties
  else .gt

/-- Put an item into an ascending list, once. -/
def insert (item : SchemaItem) : List SchemaItem → List SchemaItem
  | [] => [item]
  | a :: rest =>
      match order item a with
      | .lt => item :: a :: rest
      | .eq => a :: rest
      | .gt => a :: insert item rest

/-- The ascending list of the items that occur in a list. -/
def sorted (items : List SchemaItem) : List SchemaItem :=
  items.foldl (fun acc item => insert item acc) []

/-- The items that a node type declares: a constraint for the key, unless the database assigns keys, and
for each unique field, and one index over all indexed fields. -/
def ofType (native : Bool) (d : TypeDescriptor) : List SchemaItem :=
  if d.isObject then []
  else
    let constraints := d.fields.filter fun f => if f.isKey then !native else f.unique
    let indexed := d.fields.filter fun f => f.indexed && !f.isKey
    (constraints.map fun f => ⟨.unique, d.label, [f.storage]⟩) ++
      (if indexed.isEmpty then [] else [⟨.index, d.label, indexed.map (·.storage)⟩])

/-- The items that a registry declares. -/
def expected (r : Registry) : List SchemaItem :=
  sorted (r.types.flatMap (ofType r.strategy.isNative))

end SchemaItem

end GraphMapping
