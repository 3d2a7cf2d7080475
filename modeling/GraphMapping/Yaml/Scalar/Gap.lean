import GraphMapping.Yaml.Position

/-!
# Gaps in scalars

Between two words of a scalar lie spaces or line ends.  Spaces on one line stay; a single line end is
folded into a space, and of several line ends in a row the first one is dropped.
-/

namespace GraphMapping.Yaml

/-- What lies between two words of a scalar; characters are kept in reverse. -/
inductive Gap where
  /-- Spaces on the same line. -/
  | spaces (taken : List Char)
  /-- The first line end, none if it was escaped, and the line ends after it; spaces around them do not count. -/
  | lines (first : Option Char) (more : List Char)
deriving DecidableEq, Repr

/-- What stays of a line break: the two separators as they are, of all others a line feed. -/
def keptBreak (c : Char) : Char :=
  if c.toNat == 0x2028 || c.toNat == 0x2029 then c else '\n'

namespace Gap

/-- No gap. -/
def empty : Gap := .spaces []

/-- A gap that goes on with a space. -/
def space (c : Char) : Gap → Gap
  | .spaces taken => .spaces (c :: taken)
  | gap => gap

/-- A gap that goes on with a line end. -/
def lineEnd (c : Char) : Gap → Gap
  | .spaces _ => .lines (some (keptBreak c)) []
  | .lines first more => .lines first (keptBreak c :: more)

/-- Whether a line ends in the gap. -/
def endsLine : Gap → Bool
  | .spaces _ => false
  | .lines _ _ => true

/-- What stays of a gap between two words, in reverse. -/
def kept : Gap → List Char
  | .spaces taken => taken
  | .lines (some '\n') [] => [' ']
  | .lines (some '\n') more => more
  | .lines (some c) more => more ++ [c]
  | .lines none more => more

end Gap

end GraphMapping.Yaml
