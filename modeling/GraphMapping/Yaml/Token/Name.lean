import GraphMapping.Text.Digits
import GraphMapping.Yaml.Token

/-!
# Anchors, tags and directives

A node may be given an anchor, by which an alias names it, and a tag, which says what it is.  Directives
before a document name the version of the format and short forms of tags.
-/

namespace GraphMapping.Yaml

/-- What may follow the name of an anchor right away. -/
def endsAnchor (cs : List Char) : Bool :=
  endsWord cs || cs.head?.any fun c => ['?', ':', ',', ']', '\x7d', '%', '@', '\x60'].contains c

/-- Read the name of an anchor or an alias, which begins with a mark at `start`. -/
def readAnchor (activity : Activity) (start : Position) (c : Cursor) : Except Fault (String × Cursor) :=
  let name := c.rest.takeWhile isNameChar
  let after := c.skip name.length
  if name.isEmpty || !endsAnchor after.rest then .error (.during activity start .anchorName after.place)
  else .ok (String.ofList name, after)

/-- What an activity is called in a tag and in a directive. -/
structure TagActivities where
  handle : Activity
  text : Activity
deriving DecidableEq, Repr

/-- The activities within a tag. -/
def TagActivities.ofTag : TagActivities := ⟨.tag, .tagText⟩

/-- The activities within a directive. -/
def TagActivities.ofDirective : TagActivities := ⟨.tagDirectiveHandle, .tagDirectiveText⟩

/-- Read the first part of a tag: an exclamation mark and perhaps a name that ends with another one. -/
def readHandle (names : TagActivities) (start : Position) (c : Cursor) :
    Except Fault (List Char × Cursor) :=
  match c.rest with
  | '!' :: _ =>
      let name := (c.skip 1).rest.takeWhile isNameChar
      let after := c.skip (1 + name.length)
      match after.rest with
      | '!' :: _ => .ok ('!' :: name ++ ['!'], after.skip 1)
      | _ => .ok ('!' :: name, after)
  | _ => .error (.during names.handle start .tagMark c.place)

/-- A character of a tag; brackets and commas only where the tag is put between angle brackets. -/
def isTagChar (bracketed : Bool) (c : Char) : Bool :=
  isNameChar c || ";/?:@&=+$.%!~*'()".toList.contains c || (bracketed && [',', '[', ']'].contains c)

/-- The length of the encoding of a character that an octet begins, zero if it begins none. -/
def encodingLength (octet : Nat) : Nat :=
  if octet < 0x80 then 1
  else if octet / 0x20 = 6 then 2
  else if octet / 0x10 = 14 then 3
  else if octet / 8 = 30 then 4
  else 0

/-- The octet of an escape. -/
def octet? : List Char → Option Nat
  | '%' :: a :: b :: _ => Text.numberIn? 16 [a, b]
  | _ => none

/-- Read the further octets of an encoded character. -/
def readOctets (activity : Activity) (start : Position) (value : Nat) :
    Nat → Cursor → Except Fault (Nat × Cursor)
  | 0, c => .ok (value, c)
  | n + 1, c =>
      match octet? c.rest with
      | none => .error (.during activity start .tagEscape c.place)
      | some octet =>
          if octet / 0x40 = 2 then
            readOctets activity start (value * 0x40 + octet % 0x40) n (c.skip 3)
          else .error (.during activity start .tagTrailing c.place)

/-- Read the character that escapes encode. -/
def readEncoded (activity : Activity) (start : Position) (c : Cursor) : Except Fault (Char × Cursor) :=
  match octet? c.rest with
  | none => .error (.during activity start .tagEscape c.place)
  | some octet =>
      match encodingLength octet with
      | 0 => .error (.during activity start .tagLeading c.place)
      | 1 => .ok (Char.ofNat octet, c.skip 3)
      | length + 1 => do
          let (code, c) ← readOctets activity start (octet % (1 <<< (6 - length))) length (c.skip 3)
          return (Char.ofNat code, c)

/-- Read the characters of a tag; `taken` holds those before, in reverse. -/
def readTagChars (activity : Activity) (bracketed : Bool) (start : Position) (taken : List Char)
    (c : Cursor) : Except Fault (List Char × Cursor) :=
  match c.rest with
  | [] => .ok (taken.reverse, c)
  | d :: _ =>
      if d = '%' then
        match readEncoded activity start c with
        | .error f => .error f
        | .ok (e, after) =>
            if after.rest.length < c.rest.length then
              readTagChars activity bracketed start (e :: taken) after
            else .ok (taken.reverse, after)
      else if isTagChar bracketed d then
        let after := c.skip 1
        if after.rest.length < c.rest.length then
          readTagChars activity bracketed start (d :: taken) after
        else .ok (taken.reverse, after)
      else .ok (taken.reverse, c)
termination_by c.rest.length

/-- Read the second part of a tag, of which the characters in `front` are known.  An empty part is a fault
unless there are such characters. -/
def readTagText (activity : Activity) (bracketed : Bool) (front : List Char) (start : Position) (c : Cursor) :
    Except Fault (String × Cursor) :=
  match readTagChars activity bracketed start front.reverse c with
  | .error f => .error f
  | .ok (text, after) =>
      if text.isEmpty then .error (.during activity start .tagText after.place)
      else .ok (String.ofList text, after)

/-- Read a tag between angle brackets. -/
def readBracketedTag (start : Position) (c : Cursor) : Except Fault (Token × Cursor) := do
  let (text, c) ← readTagText .tagText true [] start c
  if c.rest.head? = some '>' then return (.tag "" text, c.skip 1)
  else .error (.during .tag start .tagEnd c.place)

/-- Read a tag with a handle, or a tag whose handle is a single mark.  The single mark by itself is a tag, too. -/
def readHandledTag (start : Position) (c : Cursor) : Except Fault (Token × Cursor) := do
  let (handle, c) ← readHandle .ofTag start c
  if 1 < handle.length && handle.getLast? == some '!' then
    let (text, c) ← readTagText .tagText false [] start c
    return (.tag (String.ofList handle) text, c)
  else if handle.length = 1 && !c.rest.head?.any (isTagChar false) then
    return (.tag "" "!", c)
  else
    let (text, c) ← readTagText .tagText false (handle.drop 1) start c
    return (.tag "!" text, c)

/-- Read a tag, which begins at `start`.  Between brackets a comma may follow it. -/
def readTag (inFlow : Bool) (start : Position) (c : Cursor) : Except Fault (Token × Cursor) := do
  let (token, c) ← match c.rest with
    | _ :: '<' :: _ => readBracketedTag start (c.skip 2)
    | _ => readHandledTag start c
  if endsWord c.rest || (inFlow && c.rest.head? == some ',') then return (token, c)
  else .error (.during .tag start .spaceOrBreak c.place)

/-- The most digits of a part of a version. -/
def maxVersionDigits : Nat := 9

/-- Read a part of a version. -/
def readVersionPart (start : Position) (c : Cursor) : Except Fault (Nat × Cursor) :=
  let digits := c.rest.takeWhile Char.isDigit
  if maxVersionDigits < digits.length then
    .error (.during .version start .versionLong (c.skip maxVersionDigits).place)
  else if digits.isEmpty then .error (.during .version start .versionDigits c.place)
  else .ok (digits.foldl (fun n d => 10 * n + (d.toNat - '0'.toNat)) 0, c.skip digits.length)

/-- Read the two parts of a version. -/
def readVersion (start : Position) (c : Cursor) : Except Fault (Token × Cursor) := do
  let (major, c) ← readVersionPart start c
  if c.rest.head? = some '.' then
    let (minor, c) ← readVersionPart start (c.skip 1)
    return (.version major minor, c)
  else .error (.during .version start .versionMark c.place)

/-- Read a short form of tags and what it stands for. -/
def readShortForm (start : Position) (c : Cursor) : Except Fault (Token × Cursor) := do
  let (handle, c) ← readHandle .ofDirective start c
  if handle.getLast? ≠ some '!' then
    .error (.during .tagDirectiveName start .tagMark c.place)
  else if !c.rest.head?.any isSpace then .error (.during .tagDirective start .space c.place)
  else
    let (long, c) ← readTagText .tagDirectiveText true [] start (c.skipWhile isSpace)
    if endsWord c.rest then return (.handle (String.ofList handle) long, c)
    else .error (.during .tagDirective start .spaceOrBreak c.place)

/-- Read a directive, which begins with a mark at `start`, up to the end of its line. -/
def readDirective (start : Position) (c : Cursor) : Except Fault (Token × Cursor) := do
  let name := c.rest.takeWhile isNameChar
  let c := c.skip name.length
  if name.isEmpty then .error (.during .directive start .directiveName c.place)
  else if !endsWord c.rest then .error (.during .directive start .directiveCharacter c.place)
  else
    let (token, c) ←
      if name = "YAML".toList then readVersion start (c.skipWhile isSpace)
      else if name = "TAG".toList then readShortForm start (c.skipWhile isSpace)
      else .error (.during .directive start .directiveUnknown c.place)
    let c := c.skipWhile isSpace
    let c := if c.rest.head? = some '#' then c.skipWhile (!isBreak ·) else c
    match c.rest with
    | [] => return (token, c)
    | d :: _ =>
        if isBreak d then return (token, c.skip 1)
        else .error (.during .directive start .lineEnd c.place)

end GraphMapping.Yaml
