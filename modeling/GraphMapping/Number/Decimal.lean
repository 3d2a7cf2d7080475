import GraphMapping.Number.Binary64

/-!
# Shortest decimals

A finite floating-point value stands for all numbers that round to it, and its decimal is the one of
fewest digits among them; of two such decimals it is the nearer one.  The decimals with a given last
place form a grid, on which only the two neighbours of the value have to be tried.  All arithmetic is
on natural numbers.
-/

namespace GraphMapping

/-- The decimal `digits` times ten to the power of `exponent`. -/
structure Decimal where
  digits : Nat
  exponent : Int
deriving DecidableEq, Repr

/-- A positive value and the ends of the interval of numbers that round to it, as multiples of a fourth of
`2 ^ exponent`. -/
structure RoundingInterval where
  low : Nat
  middle : Nat
  high : Nat
  exponent : Int
  /-- The ends themselves round to the value. -/
  closed : Bool
deriving DecidableEq, Repr

namespace RoundingInterval

/-- The interval of a finite value other than zero.  Right above a power of two the values below lie closer. -/
def ofBits (bits : Nat) : RoundingInterval :=
  let fraction := bits % (1 <<< 52)
  let field := (bits >>> 52) % 2048
  let significand := if field = 0 then fraction else (1 <<< 52) + fraction
  { low := 4 * significand - if fraction = 0 ∧ 1 < field then 1 else 2
    middle := 4 * significand
    high := 4 * significand + 2
    exponent := (max field 1 : Nat) - 1075
    closed := significand % 2 == 0 }

/-- The denominator of fractions of the grid step ten to the power of `place`. -/
def unit (i : RoundingInterval) (place : Int) : Nat :=
  (1 <<< (2 - i.exponent).toNat) * Nat.pow 10 place.toNat

/-- The numerator, over `unit`, of a number given in fourths. -/
def scaled (i : RoundingInterval) (place : Int) (n : Nat) : Nat :=
  (n <<< (i.exponent - 2).toNat) * Nat.pow 10 (-place).toNat

/-- Whether a numerator is that of a number that rounds to the value. -/
def contains (i : RoundingInterval) (place : Int) (n : Nat) : Bool :=
  let low := i.scaled place i.low
  let high := i.scaled place i.high
  (low < n && n < high) || (i.closed && (n == low || n == high))

/-- The two points of a grid next to the value, the nearer one first. -/
def neighbours (i : RoundingInterval) (place : Int) : List Nat :=
  let below := i.scaled place i.middle / i.unit place
  let nearer := Binary64.roundQuotient (i.scaled place i.middle) (i.unit place)
  [nearer, if nearer = below then below + 1 else below]

/-- The nearest point of a grid that rounds to the value, if there is one. -/
def nearest? (i : RoundingInterval) (place : Int) : Option Nat :=
  (i.neighbours place).find? fun n => i.contains place (n * i.unit place)

/-- The decimal on the coarsest grid with a point that rounds to the value, from `place` on downwards. -/
def decimalFrom (i : RoundingInterval) (place : Int) : Nat → Decimal
  | 0 => ⟨0, 0⟩
  | steps + 1 =>
      match i.nearest? place with
      | some digits => ⟨digits, place⟩
      | none => decimalFrom i (place - 1) steps

/-- A point of a grid that is chosen rounds to the value. -/
theorem contains_nearest {i : RoundingInterval} {place : Int} {n : Nat} (h : i.nearest? place = some n) :
    i.contains place (n * i.unit place) = true := by
  unfold nearest? at h
  simpa using List.find?_some h

end RoundingInterval

/-- The shortest decimal of the magnitude of a finite value. -/
def Binary64.decimal (x : Binary64) : Decimal :=
  let magnitude := x.bits.toNat % (1 <<< 63)
  if magnitude = 0 then ⟨0, 0⟩
  else (RoundingInterval.ofBits magnitude).decimalFrom 309 634

namespace Binary64

/-- The bits of the positive value that is nearest to a quotient of natural numbers.  The significand has 53
bits, or fewer at the lower end of the range; a carry raises the exponent. -/
def bitsOfQuotient (n unit : Nat) : Nat :=
  -- The quotient lies between half of the power of two with this exponent and its double.
  let size : Int := Nat.log2 n - Nat.log2 unit
  let isSmaller := n <<< (-size).toNat < unit <<< size.toNat
  let last : Int := max (if isSmaller then size - 53 else size - 52) (-1074)
  let significand := roundQuotient (n <<< (-last).toNat) (unit <<< last.toNat)
  ((last + 1074).toNat <<< 52) + significand

/-- The nearest value to a decimal with a sign, if it is finite.  What is far beyond the range, or far too
small for it, is known by the number of digits. -/
def ofDecimal? (negative : Bool) (d : Decimal) : Option Binary64 :=
  let whole : Int := (toString d.digits).length + d.exponent
  let magnitude : Nat :=
    if d.digits = 0 ∨ whole < -330 then 0
    else if 310 < whole then 2047 <<< 52
    else bitsOfQuotient (d.digits * Nat.pow 10 d.exponent.toNat) (Nat.pow 10 (-d.exponent).toNat)
  if magnitude < 2047 <<< 52 then
    some ⟨UInt64.ofNat (magnitude + if negative then 1 <<< 63 else 0)⟩
  else none

end Binary64

end GraphMapping
