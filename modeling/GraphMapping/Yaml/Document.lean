import GraphMapping.Text.Blank
import GraphMapping.Yaml.Node
import GraphMapping.Yaml.Token.Stream

/-!
# Reading documents

A document is read from its tokens from above: a node, then the nodes within it.  Of a text that cannot be
read to its end a part of the tree is known, and the fault takes the place of the first node that is
missing.
-/

namespace GraphMapping.Yaml

/-- A part of a tree, and the tokens after it or the fault in which it ends. -/
structure Part (α : Type) where
  value : α
  rest : Except Fault (List Placed)

namespace Part

/-- A fault in place of a node. -/
def fault (f : Fault) : Part Node := ⟨.fault f, .error f⟩

/-- A fault in place of an item. -/
def faultItem (f : Fault) : Part (List Node) := ⟨[.fault f], .error f⟩

/-- A fault in place of a member. -/
def faultMember (f : Fault) : Part (List (Node × Node)) := ⟨[(.fault f, .fault f)], .error f⟩

/-- A scalar without characters. -/
def empty (p : Position) (rest : List Placed) : Part Node := ⟨.empty p, .ok rest⟩

/-- The end of a collection. -/
def nil {α : Type} (rest : List Placed) : Part (List α) := ⟨[], .ok rest⟩

/-- A collection with one more element in front. -/
def cons {α : Type} (a : α) (p : Part (List α)) : Part (List α) := ⟨a :: p.value, p.rest⟩

/-- Make something of what was read. -/
def map {α β : Type} (f : α → β) (p : Part α) : Part β := ⟨f p.value, p.rest⟩

end Part

/-- Short forms of tags, each with what it stands for. -/
abbrev Handles := List (String × String)

/-- The short forms that need no directive. -/
def Handles.standard : Handles := [("!", "!"), ("!!", "tag:yaml.org,2002:")]

/-- What is known of a node before its content. -/
structure Heading where
  /-- Where the node begins, if anything is known. -/
  start : Option Position
  anchor : Option Nat
  /-- The handle and the text of a tag, and its place. -/
  tag : Option (String × String × Position)

namespace Heading

/-- Nothing is known. -/
def none : Heading := ⟨.none, .none, .none⟩

/-- The label of a node that begins here at the latest.  A tag with an unknown handle is a fault. -/
def label (handles : Handles) (h : Heading) (here : Position) : Except Fault Label :=
  let start := h.start.getD here
  match h.tag with
  | .none => .ok ⟨start, h.anchor, .none⟩
  | some (handle, text, place) =>
      if handle = "" then .ok ⟨start, h.anchor, some text⟩
      else
        match handles.lookup handle with
        | some long => .ok ⟨start, h.anchor, some (long ++ text)⟩
        | .none => .error (.during .node start .tagUnknown place)

end Heading

/-- Where a node stands. -/
inductive Surroundings where
  /-- Between the brackets of a list. -/
  | flowList
  /-- Between the brackets of members. -/
  | flowMembers
  /-- In a list shown by indentation, or nowhere. -/
  | blockList
  /-- In members shown by indentation. -/
  | blockMembers
  /-- In members shown by indentation, as an item of a list that is indented no further. -/
  | inlineList
deriving DecidableEq, Repr

namespace Surroundings

/-- Whether indentation counts. -/
def isBlock : Surroundings → Bool
  | .flowList | .flowMembers => false
  | .blockList | .blockMembers | .inlineList => true

/-- What is being read there. -/
def activity (s : Surroundings) : Activity :=
  if s.isBlock then .blockNode else .flowNode

/-- Whether a token shows that a value or an item has no characters. -/
def endsValue : Surroundings → Token → Bool
  | .flowList, .comma | .flowList, .closeList => true
  | .flowMembers, .comma | .flowMembers, .closeMembers => true
  | .blockList, .item | .blockList, .blockEnd => true
  | .blockMembers, .key | .blockMembers, .value | .blockMembers, .blockEnd => true
  | .inlineList, .item | .inlineList, .key | .inlineList, .value | .inlineList, .blockEnd => true
  | _, _ => false

/-- Whether a token shows that a key has no characters. -/
def endsKey (s : Surroundings) (t : Token) : Bool :=
  t == .value || s.endsValue t

/-- The place of an empty node between two tokens: where indentation counts, it follows the first one. -/
def emptyPlace (s : Surroundings) (before after : Placed) : Position :=
  if s.isBlock then before.stop else after.start

end Surroundings

/-- The label of a scalar, which a lone exclamation mark leaves without a tag. -/
def Label.ofScalar (l : Label) : Label :=
  if l.tag = some "!" then { l with tag := none } else l

/-- A node of which nothing but its heading is there, if that. -/
def unfinished (handles : Handles) (s : Surroundings) (h : Heading) (t : Placed) (rest : List Placed) :
    Part Node :=
  match h.label handles t.start with
  | .error f => .fault f
  | .ok label =>
      if h.start.isSome then ⟨.scalar label .plain "", .ok (t :: rest)⟩
      else .fault (.during s.activity label.place .node t.start)

mutual

/-- Read a node, given its heading. -/
def readNode (handles : Handles) (s : Surroundings) (h : Heading) : List Placed → Part Node
  | [] => .fault (.ofText .node)
  | t :: rest =>
      let labelled (content : Label → Part Node) : Part Node :=
        match h.label handles t.start with
        | .error f => .fault f
        | .ok label => content label
      match t.token with
      | .fault f => .fault f
      | .reference number =>
          if h.start.isSome then unfinished handles s h t rest
          else
            match number with
            | some n => ⟨.reference t.start n, .ok rest⟩
            | none => .fault ⟨.anchorUnknown, t.start, none⟩
      | .anchor n =>
          if h.anchor.isNone then
            readNode handles s { h with start := h.start.or (some t.start), anchor := some n } rest
          else unfinished handles s h t rest
      | .tag handle text =>
          if h.tag.isNone then
            let tag := some (handle, text, t.start)
            readNode handles s { h with start := h.start.or (some t.start), tag } rest
          else unfinished handles s h t rest
      | .scalar style text => labelled fun label => ⟨.scalar label.ofScalar style text, .ok rest⟩
      | .openList => labelled fun label => (readFlowItem handles t.start rest).map (.list label)
      | .openMembers => labelled fun label => (readFlowMember handles t.start rest).map (.members label)
      | .item =>
          if s = .blockMembers then
            labelled fun label => (readItems handles .inlineList t.start (t :: rest)).map (.list label)
          else unfinished handles s h t rest
      | .blockList =>
          if s.isBlock then
            labelled fun label => (readItems handles .blockList t.start rest).map (.list label)
          else unfinished handles s h t rest
      | .blockMembers =>
          if s.isBlock then
            labelled fun label => (readMembers handles t.start rest).map (.members label)
          else unfinished handles s h t rest
      | _ => unfinished handles s h t rest
termination_by ts => 8 * ts.length + 1

/-- Read a node after a token; it may be empty. -/
def readAfter (handles : Handles) (s : Surroundings) (ends : Token → Bool) (before : Placed) :
    List Placed → Part Node
  | [] => .fault (.ofText .node)
  | t :: rest =>
      if ends t.token then .empty (s.emptyPlace before t) (t :: rest)
      else readNode handles s .none (t :: rest)
termination_by ts => 8 * ts.length + 2

/-- Read the value of a member, which may be missing. -/
def readValue (handles : Handles) (s : Surroundings) : List Placed → Part Node
  | [] => .fault (.ofText .node)
  | t :: rest =>
      match t.token with
      | .fault f => .fault f
      | .value => readAfter handles s s.endsValue t rest
      | _ => .empty t.start (t :: rest)
termination_by ts => 8 * ts.length + 3

/-- Read a member after the mark of its key. -/
def readMember (handles : Handles) (s : Surroundings) (mark : Placed) (ts : List Placed) :
    Part (Node × Node) :=
  let key := readAfter handles s s.endsKey mark ts
  match key.rest with
  | .error f => ⟨(key.value, .fault f), .error f⟩
  | .ok rest =>
      if rest.length ≤ ts.length then (readValue handles s rest).map (key.value, ·)
      else ⟨(key.value, .empty mark.stop), .ok rest⟩
termination_by 8 * ts.length + 4

/-- Read the items of a list between brackets, of which one may begin here. -/
def readFlowItem (handles : Handles) (start : Position) : List Placed → Part (List Node)
  | [] => .nil []
  | t :: rest =>
      match t.token with
      | .closeList => .nil rest
      | token =>
          let item :=
            if token = .key then
              (readPair handles t rest).map fun entry => .members ⟨t.start, none, none⟩ [entry]
            else readNode handles .flowList .none (t :: rest)
          match item.rest with
          | .error f => ⟨[item.value], .error f⟩
          | .ok more =>
              if more.length < rest.length + 1 then .cons item.value (readFlowItems handles start more)
              else ⟨[item.value], .ok more⟩
termination_by ts => 8 * ts.length + 5

/-- Read on after an item of a list between brackets. -/
def readFlowItems (handles : Handles) (start : Position) : List Placed → Part (List Node)
  | [] => .nil []
  | t :: rest =>
      match t.token with
      | .fault f => .faultItem f
      | .closeList => .nil rest
      | .comma => readFlowItem handles start rest
      | _ => .faultItem (.during .flowList start .flowItem t.start)
termination_by ts => 8 * ts.length + 6

/-- Read a member that is an item of a list, after the mark of its key.  An empty key takes the token after
the mark with it. -/
def readPair (handles : Handles) (mark : Placed) : List Placed → Part (Node × Node)
  | [] => ⟨(.empty mark.stop, .empty mark.stop), .ok []⟩
  | t :: rest =>
      if Surroundings.flowList.endsKey t.token then
        (readValue handles .flowList rest).map (.empty t.stop, ·)
      else readMember handles .flowList mark (t :: rest)
termination_by ts => 8 * ts.length + 5

/-- Read members between brackets, of which one may begin here.  A key without a mark has no value. -/
def readFlowMember (handles : Handles) (start : Position) : List Placed → Part (List (Node × Node))
  | [] => .nil []
  | t :: rest =>
      match t.token with
      | .closeMembers => .nil rest
      | token =>
          let entry : Part (Node × Node) :=
            if token = .key then readMember handles .flowMembers t rest
            else
              let key := readNode handles .flowMembers .none (t :: rest)
              match key.rest with
              | .error f => ⟨(key.value, .fault f), .error f⟩
              | .ok [] => ⟨(key.value, .empty t.stop), .ok []⟩
              | .ok (next :: more) =>
                  match next.token with
                  | .fault f => ⟨(key.value, .fault f), .error f⟩
                  | _ => ⟨(key.value, .empty next.start), .ok (next :: more)⟩
          match entry.rest with
          | .error f => ⟨[entry.value], .error f⟩
          | .ok more =>
              if more.length < rest.length + 1 then .cons entry.value (readFlowMembers handles start more)
              else ⟨[entry.value], .ok more⟩
termination_by ts => 8 * ts.length + 5

/-- Read on after a member between brackets. -/
def readFlowMembers (handles : Handles) (start : Position) : List Placed → Part (List (Node × Node))
  | [] => .nil []
  | t :: rest =>
      match t.token with
      | .fault f => .faultMember f
      | .closeMembers => .nil rest
      | .comma => readFlowMember handles start rest
      | _ => .faultMember (.during .flowMembers start .flowMember t.start)
termination_by ts => 8 * ts.length + 6

/-- Read the items of a list shown by indentation. -/
def readItems (handles : Handles) (s : Surroundings) (start : Position) : List Placed → Part (List Node)
  | [] => .nil []
  | t :: rest =>
      match t.token with
      | .fault f => .faultItem f
      | .item =>
          let item := readAfter handles s s.endsValue t rest
          match item.rest with
          | .error f => ⟨[item.value], .error f⟩
          | .ok more =>
              if more.length ≤ rest.length then .cons item.value (readItems handles s start more)
              else ⟨[item.value], .ok more⟩
      | token =>
          if s = .inlineList then .nil (t :: rest)
          else if token = .blockEnd then .nil rest
          else .faultItem (.during .blockList start .blockItem t.start)
termination_by ts => 8 * ts.length + 0

/-- Read members shown by indentation. -/
def readMembers (handles : Handles) (start : Position) : List Placed → Part (List (Node × Node))
  | [] => .nil []
  | t :: rest =>
      match t.token with
      | .fault f => .faultMember f
      | .blockEnd => .nil rest
      | .key =>
          let entry := readMember handles .blockMembers t rest
          match entry.rest with
          | .error f => ⟨[entry.value], .error f⟩
          | .ok more =>
              if more.length ≤ rest.length then .cons entry.value (readMembers handles start more)
              else ⟨[entry.value], .ok more⟩
      | _ => .faultMember (.during .blockMembers start .blockKey t.start)
termination_by ts => 8 * ts.length + 0

end

namespace Document

/-- A token that ends a document or stands before one. -/
def isBoundary : Token → Bool
  | .version .. | .handle .. | .documentStart | .documentEnd | .finish => true
  | _ => false

/-- Whether any but marks for the end of a document come before the end of the text. -/
def hasMore : List Placed → Bool
  | [] => false
  | t :: rest =>
      match t.token with
      | .documentEnd => hasMore rest
      | token => token != .finish

/-- What is wrong with the text after a document. -/
def faultAfter : List Placed → Option Fault
  | [] => none
  | t :: rest =>
      match t.token with
      | .fault f => some f
      | _ => if hasMore (t :: rest) then some (.ofText .moreDocuments) else none

/-- The document whose tree begins here. -/
def ofContent (handles : Handles) (ts : List Placed) : Document :=
  let root := readNode handles .blockList .none ts
  match root.rest with
  | .error _ => ⟨root.value, none⟩
  | .ok rest => ⟨root.value, faultAfter rest⟩

/-- A document that cannot be read. -/
def ofFault (f : Fault) : Document := ⟨.fault f, none⟩

/-- The document after a line that begins it. -/
def ofExplicit (handles : Handles) : List Placed → Document
  | [] => ofFault (.ofText .node)
  | t :: rest =>
      if isBoundary t.token then ⟨.empty t.start, faultAfter (t :: rest)⟩
      else ofContent handles (t :: rest)

/-- The document after directives, which give at most one version and every short form once. -/
def ofDirectives (versioned : Bool) (handles : Handles) : List Placed → Document
  | [] => ofFault (.ofText .documentStart)
  | t :: rest =>
      match t.token with
      | .fault f => ofFault f
      | .version major minor =>
          if versioned then ofFault ⟨.versionTwice, t.start, none⟩
          else if major = 1 ∧ (minor = 1 ∨ minor = 2) then ofDirectives true handles rest
          else ofFault ⟨.versionUnknown, t.start, none⟩
      | .handle short long =>
          if (handles.lookup short).isSome then ofFault ⟨.tagTwice, t.start, none⟩
          else ofDirectives versioned ((short, long) :: handles) rest
      | .documentStart => ofExplicit (handles ++ .standard) rest
      | _ => ofFault ⟨.documentStart, t.start, none⟩

/-- The first document of the tokens of a text.  A text without tokens has no members. -/
def ofTokens : List Placed → Document
  | [] => ⟨.members ⟨.start, none, none⟩ [], none⟩
  | t :: rest =>
      match t.token with
      | .finish => ⟨.members ⟨.start, none, none⟩ [], none⟩
      | .version .. | .handle .. | .documentStart => ofDirectives false [] (t :: rest)
      | _ => ofContent .standard (t :: rest)

/-- A character that a text may hold: no control character but tabs and line breaks, and no noncharacter of
the first plane. -/
def isAllowed (c : Char) : Bool :=
  isGap c || !(Text.isControl c || c.toNat == 0xfffe || c.toNat == 0xffff)

/-- A text with a line feed in place of every pair of carriage return and line feed. -/
def withPlainBreaks : List Char → List Char
  | [] => []
  | ['\r'] => ['\r']
  | '\r' :: '\n' :: rest => '\n' :: withPlainBreaks rest
  | c :: rest => c :: withPlainBreaks rest

/-- The first document of a text.  A mark of the byte order may begin the text. -/
def ofText (text : String) : Document :=
  let cs := text.toList
  let front := cs.takeWhile isAllowed
  if front.length < cs.length then
    ofFault (.ofText (.control (String.ofList front).utf8ByteSize))
  else
    let cs := withPlainBreaks (match cs with
      | '\ufeff' :: rest => rest
      | cs => cs)
    ofTokens (TokenStream.ofText cs).tokens

end Document

end GraphMapping.Yaml
