import GraphMapping.Yaml.Scalar.Block
import GraphMapping.Yaml.Scalar.Plain
import GraphMapping.Yaml.Scalar.Quoted
import GraphMapping.Yaml.Token.Name

/-!
# Reading tokens

A colon may turn what stands before it into the key of a member, so tokens wait until it is known
whether a colon follows: a key stands on one line and is short.  A token is given out only when no key
can begin with it any more; where the text cannot be read, the waiting tokens are lost.
-/

namespace GraphMapping.Yaml

/-- What may turn out to be the key of a member. -/
structure PossibleKey where
  place : Position
  /-- The number of the token that it begins with. -/
  number : Nat
  /-- Whether nothing else but a key may stand there. -/
  required : Bool
deriving DecidableEq, Repr

namespace PossibleKey

/-- The number of bytes in which the colon of a key must follow. -/
def maxWidth : Nat := 1024

/-- Whether it is too late for a colon. -/
def isLate (k : PossibleKey) (here : Position) : Bool :=
  k.place.line < here.line || k.place.offset + maxWidth < here.offset

/-- The fault of a required key without a colon. -/
def fault (k : PossibleKey) (here : Position) : Fault :=
  .during .simpleKey k.place .colon here

/-- Give up a key if it is too late for it. -/
def unlessLate (here : Position) : Option PossibleKey → Except Fault (Option PossibleKey)
  | none => .ok none
  | some k =>
      if !k.isLate here then .ok (some k)
      else if k.required then .error (k.fault here)
      else .ok none

end PossibleKey

/-- Where the reading of tokens stands. -/
structure TokenStream where
  cursor : Cursor
  /-- The columns of the collections that are shown by indentation, the innermost first. -/
  columns : List Nat
  /-- The possible key within the innermost brackets. -/
  key : Option PossibleKey
  /-- The possible keys outside of the brackets that are open, the innermost first. -/
  outerKeys : List (Option PossibleKey)
  /-- Whether a key may begin here. -/
  keyAllowed : Bool
  /-- The names of anchors with their numbers. -/
  anchors : List (String × Nat)
  /-- The number of tokens given out. -/
  released : Nat
  waiting : List Placed

namespace TokenStream

/-- The beginning of a text. -/
def ofText (cs : List Char) : TokenStream :=
  ⟨⟨.start, cs⟩, [], none, [], true, [], 0, []⟩

/-- The place that is reached. -/
def place (s : TokenStream) : Position := s.cursor.place

/-- Whether brackets are open. -/
def inFlow (s : TokenStream) : Bool := !s.outerKeys.isEmpty

/-- The number of the next token. -/
def nextNumber (s : TokenStream) : Nat := s.released + s.waiting.length

/-- A further token, with the cursor after it. -/
def push (s : TokenStream) (token : Token) (after : Cursor) : TokenStream :=
  { s with cursor := after, waiting := s.waiting ++ [⟨s.place, after.place, token⟩] }

/-- A token of several characters. -/
def pushMark (s : TokenStream) (token : Token) (width : Nat) : TokenStream :=
  s.push token (s.cursor.skip width)

/-- A token that stands for no character, before the token with a number. -/
def insert (s : TokenStream) (number : Nat) (p : Position) (token : Token) : TokenStream :=
  let before := number - s.released
  { s with waiting := s.waiting.take before ++ ⟨p, p, token⟩ :: s.waiting.drop before }

/-- Give up the keys for which it is too late. -/
def dropLateKeys (s : TokenStream) : Except Fault TokenStream := do
  let outerKeys ← s.outerKeys.mapM (PossibleKey.unlessLate s.place)
  let key ← PossibleKey.unlessLate s.place s.key
  return { s with key, outerKeys }

/-- Give up the key within the innermost brackets. -/
def dropKey (s : TokenStream) : Except Fault TokenStream :=
  match s.key with
  | some k => if k.required then .error (k.fault s.place) else .ok { s with key := none }
  | none => .ok s

/-- A key may begin here; at the column of members shown by indentation it has to. -/
def saveKey (s : TokenStream) : Except Fault TokenStream := do
  if s.keyAllowed then
    let s ← s.dropKey
    let required := !s.inFlow && s.columns.head? == some s.place.column
    return { s with key := some ⟨s.place, s.nextNumber, required⟩ }
  else return s

/-- A token of which a key may consist. -/
def pushKeyPart (s : TokenStream) (read : TokenStream → Except Fault (Token × Cursor)) :
    Except Fault TokenStream := do
  let s ← s.saveKey
  let (token, after) ← read s
  return { s.push token after with keyAllowed := false }

/-- Begin a collection shown by indentation, if it is indented further than the innermost one. -/
def openBlock (s : TokenStream) (number : Nat) (p : Position) (token : Token) : TokenStream :=
  if s.inFlow || s.columns.head?.any (p.column ≤ ·) then s
  else { s.insert number p token with columns := p.column :: s.columns }

/-- End the innermost collections shown by indentation, as long as `ends` holds for their columns. -/
def closeBlocks (s : TokenStream) (ends : Nat → Bool) : TokenStream :=
  if s.inFlow then s
  else
    let closed := s.columns.takeWhile ends
    { s with
      columns := s.columns.drop closed.length
      waiting := s.waiting ++ closed.map fun _ => ⟨s.place, s.place, .blockEnd⟩ }

/-- Skip to the next token, over gaps and comments.  Where indentation counts, a new line may begin with a
key, and no tab may stand before it.  The second part says whether a key may begin there. -/
def skipGap (inFlow keyAllowed comment : Bool) (place : Position) : List Char → Cursor × Bool
  | [] => (⟨place, []⟩, keyAllowed)
  | c :: rest =>
      let skipped :=
        comment || c == ' ' || c == '#' || (c == '\t' && (inFlow || !keyAllowed)) ||
          (c == '\ufeff' && place.offset == 0)
      if isBreak c then skipGap inFlow (keyAllowed || !inFlow) false (place.after c) rest
      else if skipped then skipGap inFlow keyAllowed (comment || c == '#') (place.after c) rest
      else (⟨place, c :: rest⟩, keyAllowed)

/-- The end of the text stands at the beginning of a line. -/
def finish (s : TokenStream) : Except Fault TokenStream := do
  let p := s.place
  let last : Position := if p.column = 0 then p else ⟨p.offset, p.line + 1, 0⟩
  let s := { s with cursor := ⟨last, []⟩ }
  let s ← (s.closeBlocks fun _ => true).dropKey
  return { s with keyAllowed := false }.pushMark .finish 0

/-- A directive. -/
def directive (s : TokenStream) : Except Fault TokenStream := do
  let s ← (s.closeBlocks fun _ => true).dropKey
  let (token, after) ← readDirective s.place (s.cursor.skip 1)
  return { s.push token after with keyAllowed := false }

/-- A line that divides documents. -/
def divider (s : TokenStream) (token : Token) : Except Fault TokenStream := do
  let s ← (s.closeBlocks fun _ => true).dropKey
  return { s with keyAllowed := false }.pushMark token 3

/-- An opening bracket. -/
def openFlow (s : TokenStream) (token : Token) : Except Fault TokenStream := do
  let s ← s.saveKey
  let s := s.pushMark token 1
  return { s with key := none, outerKeys := s.key :: s.outerKeys, keyAllowed := true }

/-- A closing bracket. -/
def closeFlow (s : TokenStream) (token : Token) : Except Fault TokenStream := do
  let s ← s.dropKey
  let s := { s.pushMark token 1 with keyAllowed := false }
  match s.outerKeys with
  | [] => return s
  | key :: outerKeys => return { s with key, outerKeys }

/-- A comma. -/
def comma (s : TokenStream) : Except Fault TokenStream := do
  let s ← s.dropKey
  return { s.pushMark .comma 1 with keyAllowed := true }

/-- Where indentation counts, a mark stands where a key may stand, and may begin a collection. -/
def beginBlock (s : TokenStream) (problem : Problem) (token : Token) : Except Fault TokenStream :=
  if !s.inFlow && !s.keyAllowed then .error ⟨problem, s.place, none⟩
  else .ok (s.openBlock s.nextNumber s.place token)

/-- The mark before an item. -/
def item (s : TokenStream) : Except Fault TokenStream := do
  let s ← (← s.beginBlock .itemPlace .blockList).dropKey
  return { s.pushMark .item 1 with keyAllowed := true }

/-- The mark before a key. -/
def keyMark (s : TokenStream) : Except Fault TokenStream := do
  let s ← (← s.beginBlock .keyPlace .blockMembers).dropKey
  return { s.pushMark .key 1 with keyAllowed := !s.inFlow }

/-- A colon.  It makes a key of the possible key, if there is one. -/
def colon (s : TokenStream) : Except Fault TokenStream := do
  match s.key with
  | some k =>
      let s := (s.insert k.number k.place .key).openBlock k.number k.place .blockMembers
      return { s.pushMark .value 1 with key := none, keyAllowed := false }
  | none =>
      let s ← s.beginBlock .valuePlace .blockMembers
      return { s.pushMark .value 1 with keyAllowed := !s.inFlow }

/-- An anchor.  Its number is the number of names that were in use before it. -/
def anchor (s : TokenStream) : Except Fault TokenStream := do
  let s ← s.saveKey
  let (name, after) ← readAnchor .anchor s.place (s.cursor.skip 1)
  let number := s.anchors.length
  let anchors := (name, number) :: s.anchors.filter (·.1 != name)
  return { s.push (.anchor number) after with keyAllowed := false, anchors }

/-- A block scalar. -/
def block (s : TokenStream) (folded : Bool) : Except Fault TokenStream := do
  let s ← s.dropKey
  let (text, after) ← readBlock folded s.columns.head? s.place (s.cursor.skip 1)
  return { s.push (.scalar (if folded then .folded else .literal) text) after with keyAllowed := true }

/-- A plain scalar.  If a line ended after it, a key may begin there. -/
def plain (s : TokenStream) : Except Fault TokenStream := do
  let s ← s.saveKey
  let margin := match s.columns.head? with
    | some column => column + 1
    | none => 0
  let (text, lineEnded, after) ← readPlain s.inFlow margin s.place s.cursor.rest
  return { s.push (.scalar .plain text) after with keyAllowed := lineEnded }

/-- A character with which no plain scalar begins. -/
def isMark (c : Char) : Bool :=
  isFlowMark c || "-?:#&*!|>'\"%@\x60".toList.contains c

/-- Whether a plain scalar begins here. -/
def beginsPlain (s : TokenStream) (c : Char) (rest : List Char) : Bool :=
  !(isGap c || isMark c) || (c == '-' && !rest.head?.any isSpace) ||
    (!s.inFlow && (c == '?' || c == ':') && !endsWord rest)

/-- Read the token that begins with a character. -/
def readFrom (s : TokenStream) (c : Char) (rest : List Char) : Except Fault TokenStream :=
  let marked := s.inFlow || endsWord rest
  if s.place.column = 0 ∧ c = '%' then s.directive
  else if isDivider s.place (c :: rest) then
    s.divider (if c = '-' then .documentStart else .documentEnd)
  else if c = '[' then s.openFlow .openList
  else if c = '\x7b' then s.openFlow .openMembers
  else if c = ']' then s.closeFlow .closeList
  else if c = '\x7d' then s.closeFlow .closeMembers
  else if c = ',' then s.comma
  else if c = '-' ∧ endsWord rest then s.item
  else if c = '?' ∧ marked then s.keyMark
  else if c = ':' ∧ marked then s.colon
  else if c = '*' then s.pushKeyPart fun s => do
    let (name, after) ← readAnchor .reference s.place (s.cursor.skip 1)
    return (.reference (s.anchors.lookup name), after)
  else if c = '&' then s.anchor
  else if c = '!' then s.pushKeyPart fun s => readTag s.inFlow s.place s.cursor
  else if (c = '|' ∨ c = '>') ∧ !s.inFlow then s.block (c == '>')
  else if c = '\'' ∨ c = '"' then s.pushKeyPart fun s => do
    let (text, after) ← readQuoted c s.place rest
    return (.scalar .quoted text, after)
  else if s.beginsPlain c rest then s.plain
  else .error (.during .token s.place .start s.place)

/-- Read the next token. -/
def readNext (s : TokenStream) : Except Fault TokenStream := do
  let (cursor, keyAllowed) := skipGap s.inFlow s.keyAllowed false s.place s.cursor.rest
  let s ← { s with cursor, keyAllowed }.dropLateKeys
  let s := s.closeBlocks (s.place.column < ·)
  match s.cursor.rest with
  | [] => s.finish
  | c :: rest => s.readFrom c rest

/-- Whether the end of the text is reached. -/
def isFinished (s : TokenStream) : Bool :=
  s.waiting.getLast?.any (·.token == .finish)

/-- The number of the first token with which a key can begin. -/
def firstKey (s : TokenStream) : Nat :=
  (s.key :: s.outerKeys).foldl
    (fun n k => match k with
      | some k => min n k.number
      | none => n)
    s.nextNumber

/-- The tokens that need not wait any longer. -/
def ready (s : TokenStream) : List Placed :=
  s.waiting.take (s.firstKey - s.released)

/-- Give out the tokens that need not wait any longer. -/
def release (s : TokenStream) : TokenStream :=
  { s with released := s.released + s.ready.length, waiting := s.waiting.drop s.ready.length }

/-- The tokens from here on; the last one is the end of the text or a fault. -/
def tokens (s : TokenStream) : List Placed :=
  match s.readNext.bind dropLateKeys with
  | .error f => [⟨f.place, f.place, .fault f⟩]
  | .ok next =>
      if next.cursor.rest.length < s.cursor.rest.length then
        next.ready ++ if next.isFinished then [] else next.release.tokens
      else next.ready
termination_by s.cursor.rest.length

end TokenStream

end GraphMapping.Yaml
