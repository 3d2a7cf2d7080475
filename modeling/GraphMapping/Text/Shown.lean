import GraphMapping.Text.Visible

/-!
# Texts shown between quotation marks

Diagnostics show a name between double quotation marks, with escapes for the marks themselves, for
the backslash and for every character that is not visible on its own.
-/

namespace GraphMapping.Text

/-- One character inside a shown text. -/
def showChar (c : Char) : List Char :=
  if c == '\x00' then ['\\', '0']
  else if c == '\t' then ['\\', 't']
  else if c == '\r' then ['\\', 'r']
  else if c == '\n' then ['\\', 'n']
  else if c == '\\' then ['\\', '\\']
  else if c == '"' then ['\\', '"']
  else if isVisible c then [c]
  else ['\\', 'u', '\x7b'] ++ Nat.toDigits 16 c.toNat ++ ['\x7d']

/-- A text between quotation marks. -/
def shown (s : String) : String :=
  String.ofList ('"' :: s.toList.flatMap showChar ++ ['"'])

/-- A list of texts between square brackets. -/
def shownList (items : List String) : String :=
  "[" ++ ", ".intercalate (items.map shown) ++ "]"

end GraphMapping.Text
