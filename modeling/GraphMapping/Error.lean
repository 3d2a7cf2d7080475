import GraphMapping.Time.Duration

/-!
# Errors

Every operation that can fail gives one `Error`.  Its constructor says what kind of failure it is; the
kinds fall into four categories, and only failures of the database side are worth another attempt.
-/

namespace GraphMapping

/-- A failure below the mapping, reported by the connection to a database. -/
inductive Fault where
  /-- Reading or writing the connection failed. -/
  | io (detail : String)
  /-- The address names a protocol that is not spoken. -/
  | scheme (name : String)
  /-- The server refused a statement. -/
  | server (code text : String)
  /-- Any other failure, in the words of the connection. -/
  | other (text : String)
deriving DecidableEq, Repr

/-- The description of a fault. -/
def Fault.message : Fault → String
  | .io detail => "an IO error occurred: " ++ detail
  | .scheme name => "Unsupported URI scheme: " ++ name
  | .server code text => "Neo4j error \x60" ++ code ++ "\x60: " ++ text
  | .other text => text

/-- What lies behind a fault, outermost first. -/
def Fault.causes : Fault → List String
  | .io detail => [detail]
  | _ => []

/-- The four groups of errors. -/
inductive Category where
  /-- Declarations or settings are wrong. -/
  | configuration
  /-- The object graph or the stored data is inconsistent. -/
  | data
  /-- The database side failed. -/
  | backend
  /-- A result has an unexpected shape. -/
  | internal
deriving DecidableEq, Repr

/-- The name of a category. -/
def Category.name : Category → String
  | .configuration => "configuration"
  | .data => "data"
  | .backend => "backend"
  | .internal => "internal"

/-- Why an operation failed. -/
inductive Error where
  /-- A general problem of configuration. -/
  | configuration (text : String)
  /-- The declaration of a field is not understood. -/
  | tag (type field text : String)
  /-- A type that the registry does not know. -/
  | unregisteredType (text : String)
  /-- An inconsistent object graph or query result. -/
  | data (text : String)
  /-- A query matched nothing. -/
  | notFound (text : String)
  /-- A batch of a save failed; named are the batch's label and its first identity. -/
  | persist (label identity : String) (source : Error)
  /-- The live schema differs from the declared one. -/
  | schemaMismatch (missing unexpected : List String)
  /-- The database failed. -/
  | backend (fault : Fault)
  /-- A call took longer than it may. -/
  | timeout (limit : Duration)
  /-- An unexpected shape. -/
  | internal (text : String)
deriving DecidableEq, Repr

namespace Error

/-- The text of an error. -/
def message : Error → String
  | .configuration text => "configuration error: " ++ text
  | .tag type field text => "invalid declaration on " ++ type ++ "." ++ field ++ ": " ++ text
  | .unregisteredType text => "type '" ++ text ++ "' is not registered"
  | .data text => "data error: " ++ text
  | .notFound text => "not found: " ++ text
  | .persist label identity source =>
      "persisting '" ++ label ++ "' (identity " ++ identity ++ ") failed: " ++ source.message
  | .schemaMismatch missing unexpected =>
      "schema mismatch: missing [" ++ "; ".intercalate missing ++ "], unexpected [" ++
        "; ".intercalate unexpected ++ "]"
  | .backend fault => "backend error: " ++ fault.message
  | .timeout limit => "operation timed out after " ++ limit.shown
  | .internal text => "internal error: " ++ text

/-- The category of an error; a failed batch belongs where its cause belongs. -/
def category : Error → Category
  | .configuration _ | .tag .. | .unregisteredType _ => .configuration
  | .data _ | .notFound _ | .schemaMismatch .. => .data
  | .persist _ _ source => source.category
  | .backend _ | .timeout _ => .backend
  | .internal _ => .internal

/-- Whether the whole operation may be tried again. -/
def isRetryable (e : Error) : Bool :=
  e.category == .backend

/-- What lies behind an error, outermost first, each as text. -/
def causes : Error → List String
  | .persist _ _ source => source.message :: source.causes
  | .backend fault => fault.message :: fault.causes
  | _ => []

end Error

end GraphMapping
