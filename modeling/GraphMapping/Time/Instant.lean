import GraphMapping.Time.Calendar

/-!
# Instants

A point in time is a count of seconds since the start of 1970 (UTC) and a fraction in nanoseconds, which may
be a whole second or more.  Behind a second 59 such a fraction stands for the leap second that follows it.
Instants that are read or made from numbers have it there only; in an instant that has been given another
fraction it may stand behind any second.  Instants lie in the years -262143 to 262142.
-/

namespace GraphMapping

/-- The day number of 1 January 1970. -/
def epochDay : Int := 719162

/-- The first year of an instant. -/
def firstYear : Int := -262143

/-- The last year of an instant. -/
def lastYear : Int := 262142

/-- The first second of the first year. -/
def firstSecond : Int := (Calendar.daysBeforeYear firstYear - epochDay) * 86400

/-- The last second of the last year. -/
def lastSecond : Int := (Calendar.daysBeforeYear (lastYear + 1) - epochDay) * 86400 - 1

/-- A point in time: seconds since 1970 and nanoseconds, which may go on for a second more. -/
structure Instant where
  seconds : Int
  nanos : Nat
  seconds_range : firstSecond ≤ seconds ∧ seconds ≤ lastSecond
  nanos_lt : nanos < 2000000000
deriving DecidableEq

namespace Instant

/-- The start of 1970. -/
def epoch : Instant :=
  ⟨0, 0, by decide, by decide⟩

instance : Inhabited Instant := ⟨epoch⟩

/-- A fraction of a whole second or more stands for a leap second, behind a second 59. -/
def Regular (t : Instant) : Prop :=
  1000000000 ≤ t.nanos → t.seconds % 60 = 59

instance (t : Instant) : Decidable t.Regular :=
  inferInstanceAs (Decidable (_ → _))

/-- The regular instant with the given parts, if there is one. -/
def ofParts? (seconds : Int) (nanos : Nat) : Option Instant :=
  if h : (firstSecond ≤ seconds ∧ seconds ≤ lastSecond) ∧ nanos < 2000000000 ∧
      (1000000000 ≤ nanos → seconds % 60 = 59) then
    some ⟨seconds, nanos, h.1, h.2.1⟩
  else none

/-- The number of the day holding an instant. -/
def day (t : Instant) : Int :=
  t.seconds / 86400 + epochDay

/-- The second of the day, from 0. -/
def secondOfDay (t : Instant) : Nat :=
  (t.seconds % 86400).toNat

/-- Earlier: by seconds, then by nanoseconds. -/
def Before (s t : Instant) : Prop :=
  s.seconds < t.seconds ∨ (s.seconds = t.seconds ∧ s.nanos < t.nanos)

/-- The parts of a regular instant make it. -/
theorem ofParts?_of_regular {t : Instant} (h : t.Regular) : ofParts? t.seconds t.nanos = some t :=
  dif_pos ⟨t.seconds_range, t.nanos_lt, h⟩

end Instant

end GraphMapping
