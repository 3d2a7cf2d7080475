import GraphMapping.Database.Action
import GraphMapping.Database.Address
import GraphMapping.Statement.Load
import GraphMapping.Value.Json

/-!
# Connections

A client reaches a server over a connection that carries plain values only.  It sends parameters in
storage form, decodes the declared columns of every row, and sees each value as it arrives: instants as
text, and null in place of a floating-point value that is not finite.
-/

namespace GraphMapping

/-- How to reach one database. -/
structure ConnectionSettings where
  uri : String
  user : String
  password : String
  /-- The database, or the server's default. -/
  database : Option String
  maxConnections : Nat
deriving DecidableEq, Repr

mutual

/-- A value as it arrives over a connection. -/
def Value.received : Value → Value
  | .instant t => .string (Stamp.write t)
  | .float x => if x.isFinite then .float x else .null
  | .list items => .list (receivedItems items)
  | .map entries => .map (receivedEntries entries)
  | v => v

/-- List items as they arrive over a connection. -/
def receivedItems : List Value → List Value
  | [] => []
  | v :: rest => v.received :: receivedItems rest

/-- Map entries as they arrive over a connection. -/
def receivedEntries : List (String × Value) → List (String × Value)
  | [] => []
  | (k, v) :: rest => (k, v.received) :: receivedEntries rest

end

namespace Connection

/-- The protocols that clients speak. -/
def schemes : List String :=
  ["bolt", "bolt+s", "bolt+ssc", "neo4j", "neo4j+s", "neo4j+ssc"]

/-- The protocol of an address; without a name it is the plain one. -/
def scheme (uri : String) : String :=
  (Address.protocol? uri).getD "bolt"

/-- Prepare a connection.  Nothing is sent before the first transaction. -/
def connect (settings : ConnectionSettings) : Except Error Unit :=
  if schemes.contains (scheme settings.uri) then .ok ()
  else .error (.backend (.scheme (scheme settings.uri)))

/-- Prepare several connections in order. -/
def connectAll (settings : List ConnectionSettings) : Except Error Unit :=
  settings.forM connect

/-- The server behind a network that cannot be reached. -/
def unreachable {δ : Type} : Server δ :=
  let fault : Error := .backend (.io "Network is unreachable (os error 101)")
  { begin := Action.fail fault
    run := fun _ => Action.fail fault
    fetch := fun _ => Action.fail fault
    commit := Action.fail fault
    rollback := Action.fail fault }

/-- The error for a declared column that an answer does not have. -/
def missingColumn (column : String) : Error :=
  .internal ("cannot decode column '" ++ column ++ "': The property does not exist")

/-- Decode one column of a row; a column that some row has is null in the others. -/
def decodeColumn (rows : List Record) (row : Record) (column : String) :
    Except Error (String × Value) :=
  if rows.any fun r => (Dict.find? r column).isSome then
    .ok (column, ((Dict.find? row column).getD .null).received)
  else .error (missingColumn column)

/-- Decode the declared columns of all rows. -/
def decodeRows (columns : List String) (rows : List Record) : Except Error (List Record) :=
  -- Without declared columns the rows are read to their end and dropped.
  if columns.isEmpty then .ok []
  else rows.mapM fun row => (columns.mapM (decodeColumn rows row)).map Dict.ofList

/-- A node as it arrives over a connection. -/
def receivedNode (n : StoredNode) : StoredNode :=
  { n with properties := receivedEntries n.properties }

/-- A load result as it arrives over a connection. -/
def receivedResult (r : LoadResult) : LoadResult where
  edges := r.edges.map (·.map fun e => { e with properties := receivedEntries e.properties })
  others := r.others.map receivedNode
  primaries := r.primaries.map receivedNode

/-- A statement as it is sent. -/
def sent (s : Statement) : Statement :=
  { s with params := Value.storageEntries s.params }

/-- The client of a server behind a connection. -/
def client {δ : Type} (peer : Server δ) : Server δ where
  begin := peer.begin
  run s := do
    let rows ← peer.run (sent s)
    Action.ofExcept (decodeRows s.columns rows)
  fetch s := do
    let result ← peer.fetch (sent s)
    return receivedResult result
  commit := peer.commit
  rollback := peer.rollback

end Connection

end GraphMapping
