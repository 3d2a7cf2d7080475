import GraphMapping.Yaml.Fault
import GraphMapping.Yaml.Scalar.Gap

/-!
# Plain scalars

A scalar without marks ends where a token of another kind begins, and may run over several lines as
long as they are indented.
-/

namespace GraphMapping.Yaml

/-- The marks of collections that are written between brackets. -/
def isFlowMark (c : Char) : Bool :=
  c == ',' || c == '[' || c == ']' || c == '\x7b' || c == '\x7d'

/-- A plain scalar as far as it is read. -/
structure PlainScalar where
  start : Position
  /-- Whether it stands between brackets. -/
  inFlow : Bool
  /-- The column from which on a further line belongs to it. -/
  margin : Nat
  gap : Gap
  /-- The text before the gap, in reverse. -/
  taken : List Char
deriving DecidableEq, Repr

namespace PlainScalar

/-- The text with one more character. -/
def push (s : PlainScalar) (c : Char) : PlainScalar :=
  { s with gap := .empty, taken := c :: s.gap.kept ++ s.taken }

/-- Whether a further word cannot belong to the scalar: it stands too far left, divides documents, or begins
a comment. -/
def endsBefore (s : PlainScalar) (place : Position) (cs : List Char) : Bool :=
  s.gap ≠ .empty &&
    ((!s.inFlow && place.column < s.margin) || isDivider place cs || cs.head? == some '#')

/-- Whether a character ends the scalar right after another one. -/
def endsAt (s : PlainScalar) (c : Char) (rest : List Char) : Bool :=
  (c == ':' && endsWord rest) || (s.inFlow && isFlowMark c)

/-- A colon between brackets must not stand before another mark. -/
def isStrayColon (s : PlainScalar) (c : Char) (rest : List Char) : Bool :=
  s.inFlow && c == ':' && rest.head?.any fun d => isFlowMark d || d == '?'

/-- Read on to the end of the scalar: its text, whether a line ended after it, and where the next token may
begin. -/
def read (s : PlainScalar) (place : Position) : List Char → Except Fault (String × Bool × Cursor)
  | [] => .ok (String.ofList s.taken.reverse, s.gap.endsLine, ⟨place, []⟩)
  | c :: rest =>
      if isSpace c then
        if s.gap.endsLine && place.column < s.margin && c == '\t' then
          .error (.during .plain s.start .plainTab place)
        else read { s with gap := s.gap.space c } (place.after c) rest
      else if isBreak c then read { s with gap := s.gap.lineEnd c } (place.after c) rest
      else if s.endsBefore place (c :: rest) then
        .ok (String.ofList s.taken.reverse, s.gap.endsLine, ⟨place, c :: rest⟩)
      else if s.isStrayColon c rest then .error (.during .plain s.start .plainColon place)
      else if s.endsAt c rest then
        .ok (String.ofList s.taken.reverse, s.gap.endsLine, ⟨place, c :: rest⟩)
      else read (s.push c) (place.after c) rest

end PlainScalar

/-- Read a plain scalar. -/
def readPlain (inFlow : Bool) (margin : Nat) (start : Position) (cs : List Char) :
    Except Fault (String × Bool × Cursor) :=
  PlainScalar.read ⟨start, inFlow, margin, .empty, []⟩ start cs

end GraphMapping.Yaml
