import GraphMapping.Yaml.Fault

/-!
# Tokens

A text is a row of tokens.  Some of them stand for no character: the beginning and the end of a
collection that is shown by indentation, and the key of a member if a colon after it gives it away.
-/

namespace GraphMapping.Yaml

/-- How a scalar is written. -/
inductive Style where
  | plain
  | quoted
  /-- A block whose line breaks stay. -/
  | literal
  /-- A block whose line breaks are folded. -/
  | folded
deriving DecidableEq, Repr

/-- A token of a text. -/
inductive Token where
  | version (major minor : Nat)
  /-- A short form of tags, and what it stands for. -/
  | handle (short long : String)
  | documentStart
  | documentEnd
  /-- The beginning of a list shown by indentation. -/
  | blockList
  /-- The beginning of members shown by indentation. -/
  | blockMembers
  | blockEnd
  | openList
  | closeList
  | openMembers
  | closeMembers
  /-- The mark before an item of a list shown by indentation. -/
  | item
  | comma
  | key
  | value
  | anchor (number : Nat)
  /-- An alias: the number of the anchor that it names, if there is one. -/
  | reference (number : Option Nat)
  | tag (handle suffix : String)
  | scalar (style : Style) (text : String)
  /-- The end of the text. -/
  | finish
  /-- Where the text cannot be read any further. -/
  | fault (f : Fault)
deriving DecidableEq, Repr

/-- A token with the places where it begins and where it ends. -/
structure Placed where
  start : Position
  stop : Position
  token : Token
deriving DecidableEq, Repr

end GraphMapping.Yaml
