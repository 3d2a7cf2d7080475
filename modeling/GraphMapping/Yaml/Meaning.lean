import GraphMapping.Number.Decimal.Text
import GraphMapping.Text.Digits
import GraphMapping.Text.Shown
import GraphMapping.Yaml.Node

/-!
# What scalars stand for

A scalar without marks stands for nothing, for a truth value, for a number, or for a text; a scalar with
marks stands for its text, unless a tag says otherwise.
-/

namespace GraphMapping.Yaml

/-- What a scalar stands for. -/
inductive Meaning where
  | nothing
  | boolean (b : Bool)
  | integer (n : Int)
  | float (x : Binary64)
  /-- An infinite value, or none. -/
  | unbounded (name : String)
  | text (s : String)
deriving DecidableEq, Repr

namespace Meaning

/-- Words for nothing; also no word stands for nothing. -/
def isNothing (s : String) : Bool :=
  ["", "null", "Null", "NULL", "~"].contains s

/-- Words for truth values. -/
def boolean? (s : String) : Option Bool :=
  if ["true", "True", "TRUE"].contains s then some true
  else if ["false", "False", "FALSE"].contains s then some false
  else none

/-- The number that digits of a base write; there is at least one. -/
def natural? (base : Nat) (cs : List Char) : Option Nat :=
  if cs.isEmpty then none else Text.numberIn? base cs

/-- A natural number without its sign.  A letter after a leading zero names the base. -/
def magnitude? (cs : List Char) : Option Nat :=
  match cs with
  | '0' :: 'x' :: digits => natural? 16 digits
  | '0' :: 'o' :: digits => natural? 8 digits
  | '0' :: 'b' :: digits => natural? 2 digits
  | _ => natural? 10 cs

/-- A text without its sign. -/
def unsigned : List Char → List Char
  | '+' :: cs | '-' :: cs => cs
  | cs => cs

/-- Digits that begin with a zero, and more than one of them, are no number. -/
def isPadded (cs : List Char) : Bool :=
  match unsigned cs with
  | '0' :: more => !more.isEmpty && more.all Char.isDigit
  | _ => false

/-- A natural number with the number of bits in which it has to fit. -/
def naturalWithin? (bits : Nat) (cs : List Char) : Option Nat :=
  let digits := match cs with
    | '+' :: rest => rest
    | rest => rest
  if isPadded cs then none else (magnitude? digits).filter (· < 1 <<< bits)

/-- An integer of 128 bits: positive and unsigned, or negative. -/
def integer? (cs : List Char) : Option Int :=
  match cs with
  | '-' :: rest =>
      if isPadded cs then none
      else ((magnitude? rest).filter (· ≤ 1 <<< 127)).map fun n => -(n : Int)
  | _ => (naturalWithin? 128 cs).map Int.ofNat

/-- A floating-point number, finite or not. -/
def float? (cs : List Char) : Option Meaning :=
  let digits := match cs with
    | '+' :: rest => rest
    | rest => rest
  if ['+', '+'].isPrefixOf cs || ['+', '-'].isPrefixOf cs then none
  else if [".inf", ".Inf", ".INF"].contains (String.ofList digits) then some (.unbounded "inf")
  else if ["-.inf", "-.Inf", "-.INF"].contains (String.ofList cs) then some (.unbounded "-inf")
  else if [".nan", ".NaN", ".NAN"].contains (String.ofList cs) then some (.unbounded "NaN")
  else (Binary64.read? digits).map .float

/-- What a scalar without marks stands for. -/
def ofPlain (s : String) : Meaning :=
  if isNothing s then .nothing
  else
    match boolean? s, integer? s.toList with
    | some b, _ => .boolean b
    | none, some n => .integer n
    | none, none => if isPadded s.toList then .text s else (float? s.toList).getD (.text s)

/-- A meaning in words. -/
def described : Meaning → String
  | .nothing => "unit value"
  | .boolean b => "boolean `" ++ toString b ++ "`"
  | .integer n =>
      "integer `" ++ toString n ++ "`" ++
        if 1 <<< 64 ≤ n.toNat then " as u128" else if 1 <<< 63 < (-n).toNat then " as i128" else ""
  | .float x => "floating point `" ++ String.ofList x.writePlain ++ "`"
  | .unbounded name => "floating point `" ++ name ++ "`"
  | .text s => "string " ++ Text.shown s

end Meaning

namespace Node

/-- The tags that name kinds of scalars. -/
def kindTag (kind : String) : String :=
  "tag:yaml.org,2002:" ++ kind

/-- What a scalar with a tag stands for.  If the tag names a kind, the text has to be of that kind; else the
kind is given. -/
def tagged (tag : String) (style : Style) (text : String) : Except String Meaning :=
  let required (kind : String) (m : Option Meaning) : Except String Meaning :=
    match m with
    | some m => .ok m
    | none => .error kind
  if tag = kindTag "bool" then required "a boolean" ((Meaning.boolean? text).map .boolean)
  else if tag = kindTag "int" then
    required "an integer" ((Meaning.integer? text.toList).map .integer)
  else if tag = kindTag "float" then required "a float" (Meaning.float? text.toList)
  else if tag = kindTag "null" then
    required "null" (if text ≠ "" ∧ Meaning.isNothing text then some .nothing else none)
  else if tag.toList.head? = some '!' ∧ style = .plain then .ok (.ofPlain text)
  else .ok (.text text)

/-- Why a node is not what was expected. -/
def mismatch (expected : String) : Node → String
  | .scalar label style text =>
      let meaning := match label.tag with
        | some tag => tagged tag style text
        | none => .ok (if style = Style.plain then .ofPlain text else .text text)
      match meaning with
      | .ok m => "invalid type: " ++ m.described ++ ", expected " ++ expected
      | .error kind => "invalid value: string " ++ Text.shown text ++ ", expected " ++ kind
  | .list .. => "invalid type: sequence, expected " ++ expected
  | .members .. => "invalid type: map, expected " ++ expected
  | .reference .. | .fault _ => ""

/-- The place of a node. -/
def place : Node → Position
  | .scalar label .. | .list label _ | .members label _ => label.place
  | .reference p _ => p
  | .fault f => f.place

/-- A scalar in decimal digits, or in digits of the base that it names, that fits in 64 bits.  It has no
marks, or is a block with the tag of integers. -/
def natural? : Node → Option Nat
  | .scalar label style text =>
      if style = .plain ∨ (style = .literal ∧ label.tag = some (kindTag "int")) then
        Meaning.naturalWithin? 64 text.toList
      else none
  | _ => none

end Node

end GraphMapping.Yaml
