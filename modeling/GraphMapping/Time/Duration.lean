/-!
# Durations

A duration is a whole number of nanoseconds.  It is shown in the largest of the units s, ms, µs and
ns of which it holds at least one, with just the decimal places it needs.
-/

namespace GraphMapping

/-- A span of time in nanoseconds. -/
structure Duration where
  nanos : Nat
deriving DecidableEq, Repr, Inhabited

namespace Duration

/-- A span of whole seconds. -/
def ofSeconds (n : Nat) : Duration := ⟨n * 1000000000⟩

/-- A span of whole milliseconds. -/
def ofMillis (n : Nat) : Duration := ⟨n * 1000000⟩

/-- The whole milliseconds of a span. -/
def millis (d : Duration) : Nat := d.nanos / 1000000

/-- The whole seconds of a span. -/
def seconds (d : Duration) : Nat := d.nanos / 1000000000

/-- The decimal places of a fraction, `part` in `places` digits, after a point and without zeros at the
end; nothing for zero. -/
def decimals (places part : Nat) : String :=
  if part = 0 then ""
  else
    let digits := Nat.toDigits 10 part
    let all := List.replicate (places - digits.length) '0' ++ digits
    String.ofList ('.' :: (all.reverse.dropWhile (· == '0')).reverse)

/-- A span of `n` nanoseconds in a unit of `size` nanoseconds, a power of ten with `places` zeros. -/
def inUnit (n size places : Nat) (unit : String) : String :=
  toString (n / size) ++ decimals places (n % size) ++ unit

/-- A span in its natural unit. -/
def shown (d : Duration) : String :=
  if 1000000000 ≤ d.nanos then inUnit d.nanos 1000000000 9 "s"
  else if 1000000 ≤ d.nanos then inUnit d.nanos 1000000 6 "ms"
  else if 1000 ≤ d.nanos then inUnit d.nanos 1000 3 "µs"
  else inUnit d.nanos 1 0 "ns"

end Duration

end GraphMapping
