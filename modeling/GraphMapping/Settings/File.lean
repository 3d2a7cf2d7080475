import GraphMapping.Schema.Reconcile
import GraphMapping.Settings.Folder
import GraphMapping.Yaml.Document
import GraphMapping.Yaml.Meaning

/-!
# Settings files

A settings file has two sections, one for the connection and one for the mapping.  What it does not say
stays at its default; what it says must be of the right kind, and the first complaint in the order of the
text counts.
-/

namespace GraphMapping

open Yaml (Node Position Document)

/-- What is found at a path. -/
inductive SettingsFile where
  | unreadable (fault : FileFault)
  | document (d : Document)

/-- What a file is, given its text or why there is none. -/
def SettingsFile.ofText : Except FileFault String → SettingsFile
  | .error fault => .unreadable fault
  | .ok text => .document (.ofText text)

/-- What stands at a path in a folder of texts. -/
def SettingsFile.within (folder : Folder String) (path : String) : SettingsFile :=
  .ofText (folder.read path)

/-- What is wrong with a setting. -/
inductive SettingProblem where
  /-- It is of another kind than it should be. -/
  | kind (mismatch : String)
  | policy (text : String)
  | repeated (name : String)
deriving DecidableEq, Repr

/-- The description of what is wrong with a setting. -/
def SettingProblem.message : SettingProblem → String
  | .kind mismatch => mismatch
  | .policy text =>
      "unknown variant `" ++ text ++ "`, expected one of `ignore`, `validate`, `assert`"
  | .repeated name => "duplicate field `" ++ name ++ "`"

/-- The path of a setting: the name of its section and its own; the whole file has none. -/
structure SettingPath where
  text : String
deriving DecidableEq, Repr

namespace SettingPath

/-- The path of the whole file. -/
def root : SettingPath := ⟨""⟩

/-- The path of a member. -/
def member (p : SettingPath) (name : String) : SettingPath :=
  ⟨if p = root then name else p.text ++ "." ++ name⟩

/-- The path of an item. -/
def item (p : SettingPath) (position : Nat) : SettingPath :=
  ⟨p.text ++ "[" ++ toString position ++ "]"⟩

end SettingPath

/-- A complaint about a settings file: about its text, or about the setting at a path. -/
inductive SettingsFault where
  | text (fault : Yaml.Fault)
  | setting (path : SettingPath) (problem : SettingProblem) (place : Position)
deriving DecidableEq, Repr

/-- The text of a complaint. -/
def SettingsFault.message : SettingsFault → String
  | .text fault => fault.message
  | .setting path problem place =>
      (if path = .root then "" else path.text ++ ": ") ++ problem.message ++ place.located

/-- Why a text is no natural number of 64 bits. -/
inductive NumberFault where
  | empty
  | digit
  | large
deriving DecidableEq, Repr

/-- The description of a fault in a number. -/
def NumberFault.message : NumberFault → String
  | .empty => "cannot parse integer from empty string"
  | .digit => "invalid digit found in string"
  | .large => "number too large to fit in target type"

/-- Read digits of a natural number of 64 bits, `n` being the number of the digits before. -/
def readNaturalDigits (n : Nat) : List Char → Except NumberFault Nat
  | [] => .ok n
  | c :: rest =>
      if !c.isDigit then .error .digit
      else
        let n := 10 * n + (c.toNat - '0'.toNat)
        if 2 ^ 64 ≤ n then .error .large else readNaturalDigits n rest

/-- Read a natural number of 64 bits; a plus sign may stand before it. -/
def readNatural : List Char → Except NumberFault Nat
  | [] => .error .empty
  | ['+'] => .error .digit
  | '+' :: rest => readNaturalDigits 0 rest
  | cs => readNaturalDigits 0 cs

/-- The settings of a file, complete with defaults. -/
structure FileSettings where
  uri : String
  user : String
  password : String
  databases : List String
  maxConnections : Nat
  primaryKey : String
  schemaPolicy : SchemaPolicy
  defaultDepth : Nat
  timeoutSeconds : Nat
deriving DecidableEq, Repr

namespace FileSettings

/-- The settings without a file. -/
def standard : FileSettings where
  uri := "bolt://localhost:7687"
  user := "neo4j"
  password := "password"
  databases := []
  maxConnections := 16
  primaryKey := "uuid"
  schemaPolicy := .ignore
  defaultDepth := 1
  timeoutSeconds := 30

/-- A complaint about the kind of a node, or about the fault that takes its place. -/
def wrongKind {α : Type} (path : SettingPath) (expected : String) : Node → Except SettingsFault α
  | .fault f => .error (.text f)
  | node => .error (.setting path (.kind (node.mismatch expected)) node.place)

/-- A text; any scalar stands for its characters. -/
def readText (root : Node) (path : SettingPath) (node : Node) : Except SettingsFault String :=
  match node.resolve root with
  | .scalar _ _ text => .ok text
  | node => wrongKind path "a string" node

/-- A natural number of 64 bits. -/
def readNumber (kind : String) (root : Node) (path : SettingPath) (node : Node) :
    Except SettingsFault Nat :=
  let node := node.resolve root
  match node.natural? with
  | some n => .ok n
  | none => wrongKind path kind node

/-- The texts of list items, of which the first one is at the given position. -/
def readItems (root : Node) (path : SettingPath) (position : Nat) :
    List Node → Except SettingsFault (List String)
  | [] => .ok []
  | node :: rest => do
      let text ← readText root (path.item position) node
      return text :: (← readItems root path (position + 1) rest)

/-- A list of texts; nothing stands for no texts. -/
def readTexts (root : Node) (path : SettingPath) (node : Node) : Except SettingsFault (List String) :=
  match node.resolve root with
  | .list _ items => readItems root path 0 items
  | node => if node.isEmpty then .ok [] else wrongKind path "a sequence" node

/-- The policy with a name. -/
def policyOf (path : SettingPath) (place : Position) (name : String) : Except SettingsFault SchemaPolicy :=
  match SchemaPolicy.ofExactName? name with
  | some policy => .ok policy
  | none => .error (.setting path (.policy name) place)

/-- The policy that a tag names; nothing else may follow it. -/
def taggedPolicy (path : SettingPath) (section_ : SettingPath × Position) (tag : String) (node : Node) :
    Except SettingsFault SchemaPolicy := do
  let policy ← policyOf section_.1 section_.2 tag
  match node with
  | .scalar _ .plain text =>
      if Yaml.Meaning.isNothing text then return policy
      else .error (.setting path (.kind ("invalid value: string " ++ Text.shown text ++ ", expected null"))
        node.place)
  | node => wrongKind path "unit" node

/-- The name in a tag that begins with an exclamation mark. -/
def tagName? (label : Yaml.Label) : Option String :=
  match label.tag.map String.toList with
  | some ('!' :: name) => some (String.ofList name)
  | _ => none

/-- A schema policy, named by a text or by a tag.  A complaint about a tag is one about the section. -/
def readPolicy (section_ : SettingPath × Position) (root : Node) (path : SettingPath) (node : Node) :
    Except SettingsFault SchemaPolicy :=
  let node := node.resolve root
  let kind := "a YAML tag starting with '!'"
  match node with
  | .scalar label _ text =>
      match tagName? label with
      | some tag => taggedPolicy path section_ tag node
      | none => policyOf path label.place text
  | .list label _ | .members label _ =>
      match tagName? label with
      | some tag => taggedPolicy path section_ tag node
      | none => wrongKind path kind node
  | node => wrongKind path kind node

/-- How the settings change by a member of a section, for the members that the section knows.  A change is
given the section, the tree, and the path of the member. -/
abbrev Members :=
  String → Option (SettingPath × Position → Node → SettingPath → FileSettings → Node →
    Except SettingsFault FileSettings)

/-- The name that a key stands for, and what a path says of it: a key that is an alias has no name there. -/
def readName (root : Node) (path : SettingPath) (key : Node) :
    Except SettingsFault (String × SettingPath) :=
  match key.resolve root with
  | .scalar _ _ name =>
      match key with
      | .reference .. => .ok (name, path.member "?")
      | _ => .ok (name, path.member name)
  | node => wrongKind path "field identifier" node

/-- Take up members in the order of the text.  A member that is not known is passed over, and a known one
comes once. -/
def readEntries (members : Members) (root : Node) (path : SettingPath) (place : Position)
    (seen : List String) (s : FileSettings) : List (Node × Node) → Except SettingsFault FileSettings
  | [] => .ok s
  | (key, node) :: rest => do
      let (name, inner) ← readName root path key
      match members name with
      | none =>
          match node.fault? with
          | some f => .error (.text f)
          | none => readEntries members root path place seen s rest
      | some change =>
          if seen.contains name then .error (.setting path (.repeated name) place)
          else readEntries members root path place (name :: seen) (← change (path, place) root inner s node) rest

/-- Take up a section; nothing stands for no members. -/
def readSection (members : Members) (kind : String) (root : Node) (path : SettingPath)
    (s : FileSettings) (node : Node) : Except SettingsFault FileSettings :=
  match node.resolve root with
  | .members label entries => readEntries members root path label.place [] s entries
  | node => if node.isEmpty then .ok s else wrongKind path kind node

/-- The members of the section of the connection. -/
def connectionMembers : Members
  | "uri" => some fun _ root path s node => do return { s with uri := ← readText root path node }
  | "user" => some fun _ root path s node => do return { s with user := ← readText root path node }
  | "password" => some fun _ root path s node => do
      return { s with password := ← readText root path node }
  | "databases" => some fun _ root path s node => do
      return { s with databases := ← readTexts root path node }
  | "max_connections" => some fun _ root path s node => do
      return { s with maxConnections := ← readNumber "usize" root path node }
  | _ => none

/-- The members of the section of the mapping. -/
def mappingMembers : Members
  | "primary_key" => some fun _ root path s node => do
      return { s with primaryKey := ← readText root path node }
  | "index_strategy" => some fun section_ root path s node => do
      return { s with schemaPolicy := ← readPolicy section_ root path node }
  | "default_depth" => some fun _ root path s node => do
      return { s with defaultDepth := ← readNumber "usize" root path node }
  | "query_timeout_secs" => some fun _ root path s node => do
      return { s with timeoutSeconds := ← readNumber "u64" root path node }
  | _ => none

/-- The sections. -/
def sections : Members
  | "neo4j" => some fun _ root => readSection connectionMembers "struct Neo4jYamlConfig" root
  | "mapping" => some fun _ root => readSection mappingMembers "struct MappingYamlConfig" root
  | _ => none

/-- The settings in a document.  What is wrong with the text after its tree is found last. -/
def ofDocument (d : Document) : Except SettingsFault FileSettings := do
  let s ← readSection sections "struct YamlConfig" d.root .root standard d.root
  match d.after with
  | some f => .error (.text f)
  | none => return s

end FileSettings

end GraphMapping
