import GraphMapping.Proofs.Time.Stamp

/-!
# The form of time stamps

A time stamp spells the date in the Gregorian calendar and the time of day in UTC: every number has a fixed
number of digits, but for the years outside 0 to 9999, which carry a sign and may be longer.  Main
statement: this is what is written for every instant, its fraction carried over where it is no leap second,
and just the regular instants are read back.
-/

namespace GraphMapping.Stamp

/-- Digits that say a number in a fixed number of places. -/
structure Fills (width : Nat) (digits : List Char) (n : Nat) : Prop extends Says digits n where
  length_eq : digits.length = width

/-- Digits that say a number in four places, or in more if it needs them. -/
structure FillsYear (digits : List Char) (n : Nat) : Prop extends Says digits n where
  four : 4 ≤ digits.length
  needed : digits.length = 4 ∨ 10 ^ (digits.length - 1) ≤ n

/-- How a year is spelled. -/
inductive SpellsYear : List Char → Int → Prop
  | plain {digits n} (h : Fills 4 digits n) : SpellsYear digits n
  | early {digits n} (h : FillsYear digits n) (hBefore : 0 < n) : SpellsYear ('-' :: digits) (-n)
  | late {digits n} (h : FillsYear digits n) (hAfter : 9999 < n) : SpellsYear ('+' :: digits) n

/-- How a date and a time of day are spelled. -/
inductive Spells : List Char → Parts → Prop
  | intro {year month day hour minute second fraction : List Char} {date : Calendar.Date}
      {h m s f : Nat} (hYear : SpellsYear year date.year) (hMonth : Fills 2 month date.month)
      (hDay : Fills 2 day date.day) (hHour : Fills 2 hour h) (hMinute : Fills 2 minute m)
      (hSecond : Fills 2 second s) (hFraction : Fills 9 fraction f) :
      Spells (year ++ '-' :: month ++ '-' :: day ++ 'T' :: hour ++ ':' :: minute ++ ':' :: second ++
        '.' :: fraction ++ ['+', '0', '0', ':', '0', '0']) ⟨date, h, m, s, f, 0⟩

/-- Parts that say which day and which moment of the day an instant is.  The second 60 is the leap second
behind the second 59. -/
structure Parts.Tell (p : Parts) (t : Instant) : Prop where
  exists_date : p.date.exists = true
  day : Calendar.dayNumber p.date = t.day
  hour : p.hour < 24
  minute : p.minute < 60
  clock : p.hour * 3600 + p.minute * 60 + min p.second 59 = t.secondOfDay
  leap : p.second = 60 ↔ 1000000000 ≤ t.nanos
  second : p.second ≤ 60
  fraction : p.fraction = t.nanos % 1000000000
  utc : p.offset = 0

variable {n width : Nat} {t : Instant} {p : Parts}

theorem fills_padded (hWidth : 0 < width) (h : n < 10 ^ width) : Fills width (padded width n) n :=
  ⟨says_padded width n, length_padded hWidth h⟩

theorem fillsYear_padded (n : Nat) : FillsYear (padded 4 n) n := by
  have hLength : (padded 4 n).length = max 4 (Nat.toDigits 10 n).length := by
    unfold padded
    simp only [List.length_append, List.length_replicate]
    omega
  refine ⟨says_padded 4 n, by omega, ?_⟩
  rcases Nat.lt_or_ge n (10 ^ 4) with hFits | hLong
  · exact .inl (length_padded (by decide) hFits)
  · refine .inr (Nat.not_lt.1 fun hLess => ?_)
    -- With one digit less there would be room for it.
    have hMore := mt (Nat.length_toDigits_le_iff (k := 4) (by decide) (by decide)).1 (Nat.not_lt.2 hLong)
    have hFewer := (Nat.length_toDigits_le_iff (by decide) (by omega)).2 hLess
    omega

theorem spellsYear_writeYear (year : Int) : SpellsYear (writeYear year) year := by
  unfold writeYear
  by_cases hBefore : year < 0
  · have hSpells : SpellsYear ('-' :: padded 4 year.natAbs) (-(year.natAbs : Int)) :=
      .early (fillsYear_padded _) (by omega)
    rw [if_pos hBefore]
    rwa [show -(year.natAbs : Int) = year by omega] at hSpells
  · have hYear : (year.natAbs : Int) = year := by omega
    rw [if_neg hBefore]
    by_cases hFour : year ≤ 9999
    · have hSpells : SpellsYear (padded 4 year.natAbs) year.natAbs :=
        .plain (fills_padded (by decide) (by omega))
      rw [if_pos hFour]
      rwa [hYear] at hSpells
    · have hSpells : SpellsYear ('+' :: padded 4 year.natAbs) year.natAbs :=
        .late (fillsYear_padded _) (by omega)
      rw [if_neg hFour]
      rwa [hYear] at hSpells

/-- The parts that an instant is written in. -/
def partsOf (t : Instant) : Parts :=
  ⟨Calendar.dateOf t.day, t.secondOfDay / 3600, t.secondOfDay / 60 % 60,
    t.secondOfDay % 60 + t.nanos / 1000000000, t.nanos % 1000000000, 0⟩

theorem partsOf_tell (hRegular : t.Regular) : (partsOf t).Tell t := by
  have hNanos := t.nanos_lt
  have hClock : t.secondOfDay < 86400 := by
    unfold Instant.secondOfDay
    omega
  have hLeap : 1000000000 ≤ t.nanos → t.secondOfDay % 60 = 59 := by
    have hMinute : 1000000000 ≤ t.nanos → t.seconds % 60 = 59 := hRegular
    unfold Instant.secondOfDay
    omega
  refine ⟨Calendar.dateOf_exists t.day, Calendar.dayNumber_dateOf t.day, ?_, ?_, ?_, ?_, ?_, rfl, rfl⟩ <;>
    dsimp only [partsOf] <;> omega

theorem spells_writeParts (h : p.Tell t) :
    Spells (writeParts p.date p.hour p.minute p.second p.fraction) p := by
  obtain ⟨date, hour, minute, second, fraction, offset⟩ := p
  obtain ⟨hDate, -, hHour, hMinute, -, -, hSecond, hFraction, rfl⟩ := h
  have hDay := day_le_of_exists hDate
  obtain ⟨hMonth, -⟩ := (Calendar.Date.exists_iff _).1 hDate
  dsimp only at *
  exact .intro (spellsYear_writeYear _) (fills_padded (by decide) (by omega))
    (fills_padded (by decide) (by omega)) (fills_padded (by decide) (by omega))
    (fills_padded (by decide) (by omega)) (fills_padded (by decide) (by omega))
    (fills_padded (by decide) (by omega))

/-- The time stamp of every instant spells the day and the moment of the day that the instant is, with what
its fraction carries over.  It is read as this moment, so that the instant comes back just if it is regular:
if a fraction of a whole second or more stands for a leap second. -/
theorem time_stamp_reads_back (t : Instant) :
    (∃ p : Parts, p.Tell t.carried ∧ Spells (write t).toList p) ∧
      read (write t) = .ok t.carried ∧ (read (write t) = .ok t ↔ t.Regular) := by
  have hTell := partsOf_tell t.regular_carried
  have hSpells := spells_writeParts hTell
  refine ⟨⟨partsOf t.carried, hTell, ?_⟩, read_write t, read_write_iff⟩
  rw [toList_write, ← writeChars_carried]
  exact hSpells

/-- A fraction of a second and a third behind the second 4 is read as a third behind the second 5. -/
theorem overlong_reads_later :
    read (write .overlong) = .ok ⟨965, 333333333, by decide, by decide⟩ ∧
      ¬ ∀ t : Instant, read (write t) = .ok t := by
  refine ⟨read_write .overlong, fun hAll => ?_⟩
  have hRegular : ¬ Instant.overlong.Regular := by decide
  exact hRegular (read_write_iff.1 (hAll .overlong))

end GraphMapping.Stamp
