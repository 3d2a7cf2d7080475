import GraphMapping.Database.Connection
import GraphMapping.Session
import GraphMapping.Settings.File

/-!
# Settings

Nine settings come from environment variables, from a file, and from defaults.  A variable that is set
wins over the file, and the file over the default.  Values are checked in a fixed order, and the first
one at fault is reported.
-/

namespace GraphMapping

/-- What is wrong with a value. -/
inductive SettingsCause where
  | file (fault : FileFault)
  | content (fault : SettingsFault)
  | error (e : Error)
  | number (fault : NumberFault)

/-- The description of what is wrong. -/
def SettingsCause.message : SettingsCause → String
  | .file fault => fault.message
  | .content fault => fault.message
  | .error e => e.message
  | .number fault => fault.message

/-- The description of what is wrong with a value, if a value and not a file is at fault. -/
def SettingsCause.valueFault? : SettingsCause → Option String
  | .file _ | .content _ => none
  | cause => some cause.message

/-- Why there are no settings: where the fault is, and what it is. -/
structure SettingsError where
  context : String
  cause : SettingsCause

/-- The settings in effect. -/
structure Settings where
  uri : String
  user : String
  password : String
  databases : List String
  maxConnections : Nat
  strategy : KeyStrategy
  schemaPolicy : SchemaPolicy
  defaultDepth : Nat
  timeout : Duration

namespace Settings

/-- Put an error in its context. -/
def inContext {α : Type} (context : String) : Except Error α → Except SettingsError α
  | .ok a => .ok a
  | .error e => .error ⟨context, .error e⟩

/-- The number in a variable, or the number from the file. -/
def number (env : String → Option String) (name : String) (default : Nat) :
    Except SettingsError Nat :=
  match env name with
  | none => .ok default
  | some text =>
      match readNatural (Text.trim text.toList) with
      | .ok n => .ok n
      | .error fault => .error ⟨"Invalid " ++ name, .number fault⟩

/-- The names in a list separated by commas. -/
def nameList (text : String) : List String :=
  (((Text.split ',' text.toList).map Text.trim).filter (!·.isEmpty)).map String.ofList

/-- The settings of the file at a path. -/
def loadFile (path : String) : SettingsFile → Except SettingsError FileSettings
  | .unreadable fault => .error ⟨"Failed to read " ++ path, .file fault⟩
  | .document d =>
      match FileSettings.ofDocument d with
      | .ok s => .ok s
      | .error fault => .error ⟨"Failed to parse " ++ path, .content fault⟩

/-- The variables that settings come from. -/
def variableNames : List String :=
  ["NEO4J_URI", "NEO4J_USER", "NEO4J_PASSWORD", "NEO4J_DATABASES", "NEO4J_MAX_CONNECTIONS",
    "OGM_PRIMARY_KEY", "OGM_INDEX_STRATEGY", "OGM_DEFAULT_DEPTH", "OGM_QUERY_TIMEOUT_SECS"]

/-- The file that is read if none is named. -/
def standardPath : String := "ogm.yaml"

/-- The settings of the file at the given path, or of the standard file if there is one. -/
def load (files : String → SettingsFile) : Option String → Except SettingsError FileSettings
  | some path => loadFile path (files path)
  | none =>
      match files standardPath with
      | .unreadable .missing => .ok .standard
      | file => loadFile standardPath file

/-- Let variables override the settings of a file.  `keys` are the random keys of the built-in strategy. -/
def override (keys : Nat → String) (env : String → Option String) (file : FileSettings) :
    Except SettingsError Settings := do
  let databases := match env "NEO4J_DATABASES" with
    | some text => nameList text
    | none => file.databases
  -- From here on a value is checked only once it is known to be in effect.
  let strategy ← inContext "Invalid mapping.primary_key"
    (KeyStrategy.ofName keys ((env "OGM_PRIMARY_KEY").getD file.primaryKey))
  let schemaPolicy ← match env "OGM_INDEX_STRATEGY" with
    | some text => inContext "Invalid OGM_INDEX_STRATEGY" (SchemaPolicy.ofName text)
    | none => pure file.schemaPolicy
  let defaultDepth ← number env "OGM_DEFAULT_DEPTH" file.defaultDepth
  inContext "Invalid mapping.default_depth" (checkDepth defaultDepth)
  let timeoutSeconds ← number env "OGM_QUERY_TIMEOUT_SECS" file.timeoutSeconds
  let maxConnections ← number env "NEO4J_MAX_CONNECTIONS" file.maxConnections
  return {
    uri := (env "NEO4J_URI").getD file.uri
    user := (env "NEO4J_USER").getD file.user
    password := (env "NEO4J_PASSWORD").getD file.password
    databases, maxConnections, strategy, schemaPolicy, defaultDepth
    timeout := .ofSeconds timeoutSeconds }

/-- The settings in effect, given variables, files and the path of the file if one is named. -/
def ofSources (keys : Nat → String) (env : String → Option String)
    (files : String → SettingsFile) (path : Option String) : Except SettingsError Settings := do
  let file ← load files path
  override keys env file

/-- One connection for each configured database, or one for the server's default. -/
def connections (s : Settings) : List ConnectionSettings :=
  let connection (database : Option String) : ConnectionSettings :=
    ⟨s.uri, s.user, s.password, database, s.maxConnections⟩
  if s.databases.isEmpty then [connection none] else s.databases.map fun name => connection (some name)

/-- What sessions start with. -/
def sessionOptions (s : Settings) : SessionOptions :=
  ⟨s.defaultDepth, s.timeout⟩

/-- A registry builder for the configured key strategy. -/
def registryBuilder (s : Settings) : RegistryBuilder :=
  .new s.strategy

end Settings

/-- Connect all configured databases and apply the configured schema policy. -/
def Mapper.connect {δ : Type} (settings : Settings) (registry : Registry)
    (server : ConnectionSettings → Server δ) : Action δ (Mapper δ) := do
  if registry.strategy.name ≠ settings.strategy.name then
    Action.fail (.configuration ("registry uses primary key strategy '" ++ registry.strategy.name ++
      "' but the configuration selects '" ++ settings.strategy.name ++ "'"))
  else
    Action.ofExcept (Connection.connectAll settings.connections)
    let mapper ← Action.ofExcept (Mapper.new registry
      (settings.connections.map fun c => ⟨c.database, server c⟩) settings.sessionOptions)
    mapper.reconcile settings.schemaPolicy
    return mapper

end GraphMapping
