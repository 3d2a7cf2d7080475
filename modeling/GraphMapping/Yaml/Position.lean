/-!
# Places in a text

The reader of a text goes from character to character and knows at every one how many bytes, lines and
characters of the line lie before it.
-/

namespace GraphMapping.Yaml

/-- A place in a text: the bytes before it, the line ends before it, and the characters since the last one. -/
structure Position where
  offset : Nat
  line : Nat
  column : Nat
deriving DecidableEq, Repr, Inhabited

/-- A line break: line feed, carriage return, next line, line separator, or paragraph separator. -/
def isBreak (c : Char) : Bool :=
  c == '\n' || c == '\r' || c.toNat == 0x85 || c.toNat == 0x2028 || c.toNat == 0x2029

/-- A space or a tab. -/
def isSpace (c : Char) : Bool :=
  c == ' ' || c == '\t'

/-- A character that separates words. -/
def isGap (c : Char) : Bool :=
  isSpace c || isBreak c

/-- A character of the name of an anchor, a tag or a directive. -/
def isNameChar (c : Char) : Bool :=
  c.isAlphanum || c == '_' || c == '-'

/-- Whether nothing but a gap can follow. -/
def endsWord : List Char → Bool
  | [] => true
  | c :: _ => isGap c

namespace Position

/-- The beginning of a text. -/
def start : Position := ⟨0, 0, 0⟩

/-- The place after a character. -/
def after (p : Position) (c : Char) : Position :=
  if isBreak c then ⟨p.offset + c.utf8Size, p.line + 1, 0⟩
  else ⟨p.offset + c.utf8Size, p.line, p.column + 1⟩

/-- The place after several characters. -/
def afterAll (p : Position) (cs : List Char) : Position :=
  cs.foldl after p

/-- The first line and column, which are not worth a mention. -/
def isStart (p : Position) : Bool :=
  p.line == 0 && p.column == 0

/-- A place in words, which stand after a complaint. -/
def located (p : Position) : String :=
  if p.isStart then ""
  else " at line " ++ toString (p.line + 1) ++ " column " ++ toString (p.column + 1)

end Position

/-- Whether a line begins here that divides documents: three dashes or three dots and nothing right after
them. -/
def isDivider (p : Position) (cs : List Char) : Bool :=
  p.column == 0 && (['-', '-', '-'].isPrefixOf cs || ['.', '.', '.'].isPrefixOf cs) && endsWord (cs.drop 3)

/-- A text from a place on. -/
structure Cursor where
  place : Position
  rest : List Char
deriving DecidableEq, Repr

namespace Cursor

/-- Skip a number of characters. -/
def skip (n : Nat) (c : Cursor) : Cursor :=
  ⟨c.place.afterAll (c.rest.take n), c.rest.drop n⟩

/-- Skip characters as long as they satisfy `p`. -/
def skipWhile (p : Char → Bool) (c : Cursor) : Cursor :=
  c.skip (c.rest.takeWhile p).length

end Cursor

end GraphMapping.Yaml
