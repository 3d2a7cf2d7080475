import GraphMapping.Text.Blank

/-!
# Tags

The mapping of a field is declared by a tag: tokens between semicolons, each a flag or an assignment
`key=value`.  A single `-` leaves the field out.  `parse` accepts the tokens in any order, each flag and
key at most once; a relationship needs a direction and the other way round, and the key flag is needed
to name the strategy it belongs to.
-/

namespace GraphMapping

/-- The direction of a relationship, seen from the declaring type. -/
inductive Direction where
  | incoming
  | outgoing
  | both
deriving DecidableEq, Repr

/-- The name of a direction. -/
def Direction.name : Direction → String
  | .incoming => "incoming"
  | .outgoing => "outgoing"
  | .both => "both"

/-- The direction with the given name, in any case of its letters. -/
def Direction.ofChars? (cs : List Char) : Option Direction :=
  let word := String.ofList (Text.lower cs)
  if word = "incoming" then some .incoming
  else if word = "outgoing" then some .outgoing
  else if word = "both" then some .both
  else none

/-- What a tag says about a mapped field. -/
structure Marks where
  /-- The name of the stored property, if it is not the field's. -/
  name : Option String
  /-- The type and direction of the relationship that the field holds. -/
  relationship : Option (String × Direction)
  /-- Whether the field is a key, and if so for which strategy only. -/
  key : Option (Option String)
  unique : Bool
  indexed : Bool
  properties : Bool
deriving DecidableEq, Repr

/-- The meaning of a tag. -/
inductive Tag where
  /-- The field is not mapped. -/
  | ignored
  /-- The field is mapped. -/
  | mapped (marks : Marks)
deriving DecidableEq, Repr

/-- What a tag says; nothing if the field is not mapped. -/
def Tag.marks : Tag → Marks
  | .ignored => ⟨none, none, none, false, false, false⟩
  | .mapped marks => marks

/-- Why a text is no tag.  Tokens are quoted as they stand in the text. -/
inductive TagError where
  | notAlone
  | twice (name : String)
  | emptyValue (token : String)
  | badDirection (token : String)
  | takesNoValue (token key : String)
  | missingValue (token : String)
  | unknown (token : String)
  | relationshipAlone
  | directionAlone
  | strategyAlone
deriving DecidableEq, Repr

/-- The description of a fault in a tag. -/
def TagError.message : TagError → String
  | .notAlone => "'-' cannot be combined with other tokens"
  | .twice name => "'" ++ name ++ "' declared twice"
  | .emptyValue token => "malformed assignment '" ++ token ++ "': empty value"
  | .badDirection token =>
      "malformed assignment '" ++ token ++ "': direction must be incoming, outgoing or both"
  | .takesNoValue token key => "malformed assignment '" ++ token ++ "': '" ++ key ++ "' takes no value"
  | .missingValue token => "malformed assignment '" ++ token ++ "': missing '=value'"
  | .unknown token => "unknown token '" ++ token ++ "'"
  | .relationshipAlone => "'relationship' requires 'direction'"
  | .directionAlone => "'direction' requires 'relationship'"
  | .strategyAlone => "'pk_type' requires 'pk'"

namespace Tag

/-- The keys and flags collected from the tokens read so far. -/
structure Slots where
  name : Option String
  relationship : Option String
  direction : Option Direction
  strategy : Option String
  key : Bool
  unique : Bool
  indexed : Bool
  properties : Bool
deriving DecidableEq, Repr

/-- No token read yet. -/
def Slots.empty : Slots :=
  ⟨none, none, none, none, false, false, false, false⟩

/-- The tokens of a tag: trimmed, and not empty. -/
def tokens (cs : List Char) : List (List Char) :=
  ((Text.split ';' cs).map Text.trim).filter (!·.isEmpty)

/-- Refuse a key or flag that occurred before. -/
def once {α : Type} (taken : Bool) (name : String) (result : α) : Except TagError α :=
  if taken then .error (.twice name) else .ok result

/-- Take one assignment; `token` is its whole text. -/
def assign (slots : Slots) (token key value : String) (direction : Option Direction) :
    Except TagError Slots :=
  if value = "" then .error (.emptyValue token)
  else if key = "name" then once slots.name.isSome key { slots with name := some value }
  else if key = "relationship" then
    once slots.relationship.isSome key { slots with relationship := some value }
  else if key = "pk_type" then once slots.strategy.isSome key { slots with strategy := some value }
  else if key = "direction" then
    if slots.direction.isSome then .error (.twice key)
    else
      match direction with
      | some d => .ok { slots with direction := some d }
      | none => .error (.badDirection token)
  else if key = "pk" ∨ key = "unique" ∨ key = "index" ∨ key = "properties" then
    .error (.takesNoValue token key)
  else .error (.unknown token)

/-- Take one flag. -/
def raise (slots : Slots) (token : String) : Except TagError Slots :=
  if token = "pk" then once slots.key token { slots with key := true }
  else if token = "unique" then once slots.unique token { slots with unique := true }
  else if token = "index" then once slots.indexed token { slots with indexed := true }
  else if token = "properties" then once slots.properties token { slots with properties := true }
  else if token = "name" ∨ token = "relationship" ∨ token = "direction" ∨ token = "pk_type" then
    .error (.missingValue token)
  else .error (.unknown token)

/-- Take one token. -/
def take (slots : Slots) (token : List Char) : Except TagError Slots :=
  match Text.cut '=' token with
  | some (key, value) =>
      let value := Text.trim value
      assign slots (String.ofList token) (String.ofList (Text.trim key)) (String.ofList value)
        (Direction.ofChars? value)
  | none => raise slots (String.ofList token)

/-- Combine the collected keys and flags. -/
def Slots.marks (slots : Slots) : Except TagError Marks :=
  match slots.relationship, slots.direction with
  | some _, none => .error .relationshipAlone
  | none, some _ => .error .directionAlone
  | relationship, direction =>
      if slots.strategy.isSome && !slots.key then .error .strategyAlone
      else
        .ok {
          name := slots.name
          relationship := relationship.bind fun r => direction.map fun d => (r, d)
          key := if slots.key then some slots.strategy else none
          unique := slots.unique
          indexed := slots.indexed
          properties := slots.properties }

/-- Read a tag. -/
def parseChars (cs : List Char) : Except TagError Tag :=
  let tokens := tokens cs
  -- The sign for a field that is left out is looked for before any other token is read.
  if tokens.contains ['-'] then
    if 1 < tokens.length then .error .notAlone else .ok .ignored
  else do
    let slots ← tokens.foldlM take Slots.empty
    return .mapped (← slots.marks)

/-- Read a tag. -/
def parse (text : String) : Except TagError Tag :=
  parseChars text.toList

end Tag

end GraphMapping
