import GraphMapping.Number.Decimal.Text
import GraphMapping.Value.Json

/-!
# JSON texts

A JSON tree is written without blanks.  Strings escape quotation marks, backslashes and control
characters below the space, and floating-point values are shortest decimals.
-/

namespace GraphMapping

namespace Json

/-- One character inside a written string. -/
def writeChar (c : Char) : List Char :=
  if c = '"' ∨ c = '\\' then ['\\', c]
  else if c = '\n' then ['\\', 'n']
  else if c = '\t' then ['\\', 't']
  else if c = '\r' then ['\\', 'r']
  else if c = '\x08' then ['\\', 'b']
  else if c = '\x0c' then ['\\', 'f']
  else if c.toNat < 0x20 then
    let digits := Nat.toDigits 16 c.toNat
    ['\\', 'u'] ++ List.replicate (4 - digits.length) '0' ++ digits
  else [c]

/-- A written string. -/
def writeString (s : String) : List Char :=
  '"' :: s.toList.flatMap writeChar ++ ['"']

mutual

/-- The text of a tree. -/
def write : Json → List Char
  | .null => ['n', 'u', 'l', 'l']
  | .bool true => ['t', 'r', 'u', 'e']
  | .bool false => ['f', 'a', 'l', 's', 'e']
  | .natural n => (toString n.toNat).toList
  | .negative n => (toString n.toInt).toList
  | .float x => x.write
  | .string s => writeString s
  | .array items => '[' :: writeItems items ++ [']']
  | .object members => '\x7b' :: writeMembers members ++ ['\x7d']

/-- The text of array items, separated by commas. -/
def writeItems : List Json → List Char
  | [] => []
  | [j] => j.write
  | j :: rest => j.write ++ ',' :: writeItems rest

/-- The text of object members, separated by commas. -/
def writeMembers : List (String × Json) → List Char
  | [] => []
  | [(k, j)] => writeString k ++ ':' :: j.write
  | (k, j) :: rest => writeString k ++ ':' :: j.write ++ ',' :: writeMembers rest

end

end Json

end GraphMapping
