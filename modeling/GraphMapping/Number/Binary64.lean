/-!
# Binary floating-point values

A floating-point property is kept as the 64 bits of its binary representation, so that every value,
with the sign of zero and the payload of a NaN, is kept exactly.  Whole numbers convert by rounding
to the nearest representable value, a tie going to the even neighbour.
-/

namespace GraphMapping

/-- A binary floating-point value, given by its 64 bits: sign, 11 bits of exponent, 52 of fraction. -/
structure Binary64 where
  bits : UInt64
deriving DecidableEq, Repr, Inhabited

namespace Binary64

/-- The whole number nearest to a quotient, a tie going to the even one. -/
def roundQuotient (n unit : Nat) : Nat :=
  let quotient := n / unit
  let twice := 2 * (n % unit)
  if twice < unit then quotient
  else if twice > unit then quotient + 1
  else quotient + quotient % 2

/-- A rounded quotient is off by half a unit at most. -/
theorem roundQuotient_near (n : Nat) {unit : Nat} (h : 0 < unit) :
    2 * n ≤ (2 * roundQuotient n unit + 1) * unit ∧ 2 * roundQuotient n unit * unit ≤ 2 * n + unit := by
  have hn := Nat.div_add_mod n unit
  have hlt := Nat.mod_lt n h
  generalize hq : n / unit = q at *
  generalize hr : n % unit = r at *
  have hmul : unit * q = q * unit := Nat.mul_comm ..
  unfold roundQuotient
  simp only [hq, hr, Nat.add_mul, Nat.mul_assoc]
  split
  · omega
  · split
    · simp only [Nat.add_mul]
      omega
    · rcases Nat.mod_two_eq_zero_or_one q with h0 | h0 <;> simp only [h0, Nat.add_mul] <;> omega

/-- The bits of a natural number of at most 1024 binary digits.  The significand is rounded to 53 bits;
a carry out of the fraction raises the exponent, which is what adding the two fields does. -/
def bitsOfNat (n : Nat) : Nat :=
  if n = 0 then 0
  else
    let exponent := Nat.log2 n
    ((exponent + 1022) <<< 52) +
      if exponent ≤ 52 then n <<< (52 - exponent) else roundQuotient n (1 <<< (exponent - 52))

/-- The nearest value to a natural number. -/
def ofNat (n : Nat) : Binary64 :=
  ⟨UInt64.ofNat (bitsOfNat n)⟩

/-- The nearest value to an integer; zero is positive. -/
def ofInt (n : Int) : Binary64 :=
  if n < 0 then ⟨UInt64.ofNat ((1 <<< 63) + bitsOfNat n.natAbs)⟩ else ofNat n.natAbs

/-- Neither infinite nor a NaN. -/
def isFinite (x : Binary64) : Bool :=
  (x.bits.toNat >>> 52) % 2048 != 2047

end Binary64

end GraphMapping
