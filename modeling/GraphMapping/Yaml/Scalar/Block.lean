import GraphMapping.Yaml.Fault
import GraphMapping.Yaml.Scalar.Gap

/-!
# Block scalars

A block scalar is a run of lines with the same indentation.  A literal block keeps its line ends; in a
folded one a line end between two lines that begin with no space is folded into a space.  A header says
what becomes of the line ends at the end of the block, and may say how far it is indented.
-/

namespace GraphMapping.Yaml

/-- What becomes of the line ends at the end of a block. -/
inductive BlockEnd where
  /-- None stays. -/
  | strip
  /-- The first one stays. -/
  | clip
  /-- All stay. -/
  | keep
deriving DecidableEq, Repr

/-- The header of a block. -/
structure BlockHeader where
  ending : BlockEnd
  /-- How much further than its surroundings the block is indented, if the header says so. -/
  indent : Option Nat
deriving DecidableEq, Repr

namespace BlockHeader

/-- The mark for the end of a block. -/
def ending? : Char → Option BlockEnd
  | '+' => some .keep
  | '-' => some .strip
  | _ => none

/-- Read the digit for the indentation, if there is one; it is not zero. -/
def readIndent (start : Position) (c : Cursor) : Except Fault (Option Nat × Cursor) :=
  match c.rest with
  | d :: _ =>
      if d = '0' then .error (.during .block start .zeroIndent c.place)
      else if d.isDigit then .ok (some (d.toNat - '0'.toNat), c.skip 1)
      else .ok (none, c)
  | [] => .ok (none, c)

/-- Read the mark for the end, if there is one. -/
def readEnding (c : Cursor) : Option BlockEnd × Cursor :=
  match c.rest.head?.bind ending? with
  | some ending => (some ending, c.skip 1)
  | none => (none, c)

/-- Read a header, the two parts in either order, up to the end of its line. -/
def read (start : Position) (c : Cursor) : Except Fault (BlockHeader × Cursor) := do
  let (before, c) := readEnding c
  let (indent, c) ← readIndent start c
  let (after, c) := if before.isNone && indent.isSome then readEnding c else (none, c)
  let c := c.skipWhile isSpace
  let c := if c.rest.head? = some '#' then c.skipWhile (!isBreak ·) else c
  match c.rest with
  | [] => return (⟨(before.or after).getD .clip, indent⟩, c)
  | d :: _ =>
      if isBreak d then return (⟨(before.or after).getD .clip, indent⟩, c.skip 1)
      else .error (.during .block start .lineEnd c.place)

end BlockHeader

/-- The empty lines before a line of a block. -/
structure BlockMargin where
  /-- The line ends, in reverse. -/
  breaks : List Char
  /-- The column of the line that is indented most. -/
  widest : Nat
deriving DecidableEq, Repr

/-- Skip indentation and empty lines.  The indentation of the block is `indent`, zero if it is not known yet. -/
def BlockMargin.read (start : Position) (indent : Nat) (m : BlockMargin) (place : Position) :
    List Char → Except Fault (BlockMargin × Cursor)
  | [] => .ok ({ m with widest := max m.widest place.column }, ⟨place, []⟩)
  | c :: rest =>
      let within := indent = 0 || place.column < indent
      let wider := { m with widest := max m.widest place.column }
      if c = ' ' && within then read start indent m (place.after c) rest
      else if c = '\t' && within then .error (.during .block start .tabInBlock place)
      else if isBreak c then
        read start indent { wider with breaks := keptBreak c :: m.breaks } (place.after c) rest
      else .ok (wider, ⟨place, c :: rest⟩)

/-- A block as far as it is read; texts are kept in reverse. -/
structure BlockScalar where
  start : Position
  folded : Bool
  indent : Nat
  taken : List Char
  /-- The end of the last line. -/
  lineEnd : List Char
  /-- The empty lines after it. -/
  breaks : List Char
  /-- Whether the last line begins with a space. -/
  spaced : Bool
deriving DecidableEq, Repr

namespace BlockScalar

/-- The text up to a further line.  The end of the last line is folded if neither line begins with a space;
it is a space if no empty line follows. -/
def joined (b : BlockScalar) (spaced : Bool) : List Char :=
  if b.folded && b.lineEnd == ['\n'] && !b.spaced && !spaced then
    (if b.breaks.isEmpty then [' '] else b.breaks) ++ b.taken
  else b.breaks ++ b.lineEnd ++ b.taken

/-- Take up a line, given without its end. -/
def addLine (b : BlockScalar) (line : List Char) : BlockScalar :=
  let spaced := line.head?.any isSpace
  { b with taken := line.reverse ++ b.joined spaced, spaced }

/-- The text, with what the end of the block leaves. -/
def text (b : BlockScalar) (ending : BlockEnd) : String :=
  String.ofList (match ending with
    | .strip => b.taken
    | .clip => b.lineEnd ++ b.taken
    | .keep => b.breaks ++ b.lineEnd ++ b.taken).reverse

/-- Read on to the end of the block. -/
def read (b : BlockScalar) (c : Cursor) : Except Fault (BlockScalar × Cursor) :=
  if c.place.column = b.indent ∧ c.rest ≠ [] then
    let line := c.rest.takeWhile (!isBreak ·)
    let atEnd := c.skip line.length
    let lineEnd := (atEnd.rest.take 1).map keptBreak
    let next := atEnd.skip 1
    match BlockMargin.read b.start b.indent ⟨[], 0⟩ next.place next.rest with
    | .error f => .error f
    | .ok (margin, after) =>
        let b := { b.addLine line with lineEnd, breaks := margin.breaks }
        if after.rest.length < c.rest.length then read b after else .ok (b, after)
  else .ok (b, c)
termination_by c.rest.length

end BlockScalar

/-- Read a block, which begins with a mark at `start`; `outer` is the column from which on its surroundings
are indented. -/
def readBlock (folded : Bool) (outer : Option Nat) (start : Position) (c : Cursor) :
    Except Fault (String × Cursor) := do
  let (header, c) ← BlockHeader.read start c
  let known := match header.indent with
    | some n => outer.getD 0 + n
    | none => 0
  let (margin, c) ← BlockMargin.read start known ⟨[], 0⟩ c.place c.rest
  let least := match outer with
    | some column => column + 1
    | none => 1
  let indent := if known = 0 then max margin.widest least else known
  let (b, c) ← BlockScalar.read ⟨start, folded, indent, [], [], margin.breaks, false⟩ c
  return (b.text header.ending, c)

end GraphMapping.Yaml
