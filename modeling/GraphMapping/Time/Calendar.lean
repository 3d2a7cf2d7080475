/-!
# The proleptic Gregorian calendar

Days are counted from 1 January of year 1; years run through all integers, year 0 being a leap year.
Main statement: every day has a date that exists, and the number of this date is the day.
-/

namespace GraphMapping.Calendar

/-- A year, a month from 1 and a day of the month from 1. -/
structure Date where
  year : Int
  month : Nat
  day : Nat
deriving DecidableEq, Repr

/-- Every fourth year, but of the full centuries only every fourth. -/
def isLeap (year : Int) : Bool :=
  year % 4 == 0 && (year % 100 != 0 || year % 400 == 0)

/-- The number of days before 1 January of a year. -/
def daysBeforeYear (year : Int) : Int :=
  365 * (year - 1) + (year - 1) / 4 - (year - 1) / 100 + (year - 1) / 400

/-- The number of days in a year. -/
def yearLength (year : Int) : Nat :=
  if isLeap year then 366 else 365

/-- The lengths of the twelve months. -/
def monthLengths (leap : Bool) : List Nat :=
  [31, if leap then 29 else 28, 31, 30, 31, 30, 31, 31, 30, 31, 30, 31]

/-- The number of days in a month. -/
def monthLength (leap : Bool) (month : Nat) : Nat :=
  (monthLengths leap).getD (month - 1) 0

/-- The number of days of a year before one of its months. -/
def daysBeforeMonth (leap : Bool) (month : Nat) : Nat :=
  ((monthLengths leap).take (month - 1)).foldr (· + ·) 0

/-- Whether a date exists. -/
def Date.exists (d : Date) : Bool :=
  1 ≤ d.month && d.month ≤ 12 && 1 ≤ d.day && d.day ≤ monthLength (isLeap d.year) d.month

/-- The number of a date's day. -/
def dayNumber (d : Date) : Int :=
  daysBeforeYear d.year + daysBeforeMonth (isLeap d.year) d.month + (d.day - 1 : Nat)

/-- The year holding day `n`.  The mean year gives a guess that is off by at most one. -/
def yearOf (n : Int) : Int :=
  let guess := n * 400 / 146097 + 1
  if n < daysBeforeYear guess then guess - 1
  else if daysBeforeYear (guess + 1) ≤ n then guess + 1
  else guess

/-- Find day `n` (from 0) in consecutive months of the given lengths: how many months lie before it,
and its place in its month. -/
def locate : List Nat → Nat → Nat × Nat
  | [], n => (0, n)
  | length :: lengths, n =>
      if n < length then (0, n)
      else
        let (month, day) := locate lengths (n - length)
        (month + 1, day)

/-- The date of day `n`. -/
def dateOf (n : Int) : Date :=
  let year := yearOf n
  let (month, day) := locate (monthLengths (isLeap year)) (n - daysBeforeYear year).toNat
  ⟨year, month + 1, day + 1⟩

theorem daysBeforeYear_succ (year : Int) :
    daysBeforeYear (year + 1) = daysBeforeYear year + yearLength year := by
  unfold daysBeforeYear yearLength isLeap
  simp only [Bool.and_eq_true, Bool.or_eq_true, beq_iff_eq, bne_iff_ne, ne_eq]
  split <;> omega

/-- The year of a day holds the day. -/
theorem daysBeforeYear_yearOf (n : Int) :
    daysBeforeYear (yearOf n) ≤ n ∧ n < daysBeforeYear (yearOf n + 1) := by
  unfold yearOf daysBeforeYear
  simp only
  split
  · omega
  · split <;> omega

theorem daysBeforeYear_mono {year later : Int} (h : year < later) :
    daysBeforeYear (year + 1) ≤ daysBeforeYear later := by
  unfold daysBeforeYear
  omega

theorem locate_of_lt {lengths : List Nat} {n : Nat} (h : n < lengths.foldr (· + ·) 0) :
    (locate lengths n).1 < lengths.length ∧
      (locate lengths n).2 < lengths.getD (locate lengths n).1 0 ∧
      (lengths.take (locate lengths n).1).foldr (· + ·) 0 + (locate lengths n).2 = n := by
  induction lengths generalizing n with
  | nil => simp at h
  | cons length lengths ih =>
      unfold locate
      split
      · simp_all
      · rename_i hn
        simp only [List.foldr_cons] at h
        have hrest : n - length < lengths.foldr (· + ·) 0 := by omega
        obtain ⟨h1, h2, h3⟩ := ih hrest
        simp only [List.length_cons, List.take_succ_cons, List.foldr_cons, List.getD_cons_succ]
        refine ⟨by omega, h2, by omega⟩

theorem foldr_monthLengths (year : Int) :
    (monthLengths (isLeap year)).foldr (· + ·) 0 = yearLength year := by
  unfold yearLength
  cases isLeap year <;> rfl

theorem dayOfYear_lt (n : Int) : (n - daysBeforeYear (yearOf n)).toNat <
    (monthLengths (isLeap (yearOf n))).foldr (· + ·) 0 := by
  have h := daysBeforeYear_yearOf n
  rw [daysBeforeYear_succ] at h
  rw [foldr_monthLengths]
  omega

theorem Date.exists_iff (d : Date) : d.exists = true ↔
    (1 ≤ d.month ∧ d.month ≤ 12) ∧ 1 ≤ d.day ∧ d.day ≤ monthLength (isLeap d.year) d.month := by
  simp only [Date.exists, Bool.and_eq_true, decide_eq_true_eq, and_assoc]

/-- Every day has a date that exists. -/
theorem dateOf_exists (n : Int) : (dateOf n).exists = true := by
  obtain ⟨h1, h2, -⟩ := locate_of_lt (dayOfYear_lt n)
  have hlen : (monthLengths (isLeap (yearOf n))).length = 12 := rfl
  simp only [Date.exists_iff, dateOf, monthLength, Nat.add_sub_cancel]
  omega

/-- The date of a day has the number of that day. -/
theorem dayNumber_dateOf (n : Int) : dayNumber (dateOf n) = n := by
  obtain ⟨-, -, h3⟩ := locate_of_lt (dayOfYear_lt n)
  have h := daysBeforeYear_yearOf n
  simp only [dayNumber, dateOf, daysBeforeMonth, Nat.add_sub_cancel]
  omega

end GraphMapping.Calendar
