import GraphMapping.Number.Decimal

/-!
# Decimal texts

A decimal is written with a point, or with an exponent where it is very large or very small; the plain
form never has an exponent.  Both forms show a fraction or an exponent, so that a decimal is never taken
for a whole number.
-/

namespace GraphMapping

namespace Decimal

/-- From this many digits before the point on, a decimal is written with an exponent. -/
def maxWhole : Int := 16

/-- From this many zeros after the point on, a decimal is written with an exponent. -/
def maxZeros : Int := 5

/-- So many zeros. -/
def zeros (n : Int) : List Char :=
  List.replicate n.toNat '0'

/-- The digits of a decimal. -/
def digitChars (d : Decimal) : List Char :=
  (toString d.digits).toList

/-- The number of digits before the point; it is negative if zeros follow the point. -/
def wholeDigits (d : Decimal) : Int :=
  d.digitChars.length + d.exponent

/-- The text of a decimal without an exponent.  The point stands after the digits, among them, or before
them. -/
def writePlain (d : Decimal) : List Char :=
  if 0 ≤ d.exponent then d.digitChars ++ zeros d.exponent ++ ['.', '0']
  else if 0 < d.wholeDigits then
    d.digitChars.take d.wholeDigits.toNat ++ '.' :: d.digitChars.drop d.wholeDigits.toNat
  else ['0', '.'] ++ zeros (-d.wholeDigits) ++ d.digitChars

/-- The text of a decimal with one digit before the point, and an exponent that always has a sign. -/
def writeScientific (d : Decimal) : List Char :=
  let fraction := match d.digitChars.drop 1 with
    | [] => []
    | more => '.' :: more
  let exponent := d.wholeDigits - 1
  let sign := if exponent < 0 then '-' else '+'
  d.digitChars.take 1 ++ fraction ++ 'e' :: sign :: (toString exponent.natAbs).toList

/-- The text of a decimal. -/
def write (d : Decimal) : List Char :=
  if -maxZeros < d.wholeDigits ∧ d.wholeDigits ≤ maxWhole then d.writePlain else d.writeScientific

/-- The number that digits write; there is at least one. -/
def digitsValue? (cs : List Char) : Option Nat :=
  if !cs.isEmpty && cs.all Char.isDigit then
    some (cs.foldl (fun n c => 10 * n + (c.toNat - '0'.toNat)) 0)
  else none

/-- The number that digits after an optional sign write. -/
def exponent? : List Char → Option Int
  | '-' :: cs => (digitsValue? cs).map fun n => -n
  | '+' :: cs => (digitsValue? cs).map fun n => n
  | cs => (digitsValue? cs).map fun n => n

/-- Read the text of a decimal without a sign: digits, perhaps with a point before, among or after them, and
perhaps an exponent. -/
def read? (cs : List Char) : Option Decimal := do
  let isMark (c : Char) : Bool := c == 'e' || c == 'E'
  let number := cs.takeWhile (!isMark ·)
  let exponent ← match cs.drop number.length with
    | [] => some 0
    | _ :: rest => exponent? rest
  let whole := number.takeWhile (· != '.')
  let fraction := (number.drop whole.length).drop 1
  let digits ← digitsValue? (whole ++ fraction)
  return ⟨digits, exponent - fraction.length⟩

end Decimal

/-- The nearest floating-point value to the number that a text writes, if it is finite. -/
def Binary64.read? (cs : List Char) : Option Binary64 :=
  match cs with
  | '-' :: rest => (Decimal.read? rest).bind (Binary64.ofDecimal? true)
  | rest => (Decimal.read? rest).bind (Binary64.ofDecimal? false)

/-- The text of a finite floating-point value that never has an exponent. -/
def Binary64.writePlain (x : Binary64) : List Char :=
  (if x.bits.toNat < 1 <<< 63 then [] else ['-']) ++ x.decimal.writePlain

/-- The text of a finite floating-point value. -/
def Binary64.write (x : Binary64) : List Char :=
  (if x.bits.toNat < 1 <<< 63 then [] else ['-']) ++ x.decimal.write

end GraphMapping
