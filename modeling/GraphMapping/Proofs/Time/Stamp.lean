import GraphMapping.Proofs.Results
import GraphMapping.Time.Stamp
import Mathlib.Algebra.Group.Nat.Defs

/-!
# Time stamps that were written are read

Every number of a time stamp is written with enough digits for its place, and what follows it is no digit.
So the reader takes the parts off one by one just as they were written, and they denote a regular instant
again: the days of the calendar, and the second 60 that stands for a leap second.  A whole second in the
fraction of another instant is written, and read, as one of its seconds.
-/

namespace GraphMapping

namespace Instant

variable {t : Instant}

/-- The next second lies in the same minute, so that it is no later than the last one. -/
theorem succ_range (h : t.seconds % 60 ≠ 59) :
    firstSecond ≤ t.seconds + 1 ∧ t.seconds + 1 ≤ lastSecond := by
  have hRange := t.seconds_range
  have hLast : lastSecond % 60 = 59 := by decide
  omega

/-- A whole second in the fraction counts among the seconds, unless it stands for a leap second. -/
def carried (t : Instant) : Instant :=
  if h : t.Regular then t
  else
    ⟨t.seconds + 1, t.nanos - 1000000000, succ_range fun hLeap => h fun _ => hLeap,
      Nat.lt_of_le_of_lt (Nat.sub_le _ _) t.nanos_lt⟩

theorem carried_of_regular (h : t.Regular) : t.carried = t :=
  dif_pos h

/-- What is carried over: the second that follows, and the fraction without a whole second. -/
theorem carried_parts (h : ¬ t.Regular) : t.carried.seconds = t.seconds + 1 ∧
    t.carried.nanos + 1000000000 = t.nanos ∧ t.seconds % 60 ≠ 59 := by
  obtain ⟨hWhole, hOther⟩ := Classical.not_imp.1 h
  unfold carried
  rw [dif_neg h]
  exact ⟨rfl, Nat.sub_add_cancel hWhole, hOther⟩

theorem regular_carried (t : Instant) : t.carried.Regular := by
  by_cases h : t.Regular
  · rwa [carried_of_regular h]
  · obtain ⟨-, hNanos, -⟩ := carried_parts h
    have hLess := t.nanos_lt
    intro hWhole
    omega

theorem carried_eq_self : t.carried = t ↔ t.Regular := by
  refine ⟨fun h => ?_, carried_of_regular⟩
  rw [← h]
  exact regular_carried t

theorem day_carried (t : Instant) : t.carried.day = t.day := by
  by_cases h : t.Regular
  · rw [carried_of_regular h]
  · obtain ⟨hSeconds, -, hOther⟩ := carried_parts h
    unfold day
    omega

/-- Behind the second 4 of a minute, a fraction of a second and a third. -/
def overlong : Instant :=
  ⟨964, 1333333333, by decide, by decide⟩

example : overlong.carried = ⟨965, 333333333, by decide, by decide⟩ := by decide

end Instant

end GraphMapping

namespace GraphMapping.Stamp

/-- Digits that say a number, with or without zeros in front. -/
structure Says (digits : List Char) (n : Nat) : Prop where
  some : digits ≠ []
  digit : ∀ c ∈ digits, c.isDigit = true
  value : Nat.ofDigitChars 10 digits 0 = n

/-- A text does not go on with a digit. -/
def Stops (rest : List Char) : Prop :=
  ∀ c, rest.head? = some c → c.isDigit = false

variable {digits rest : List Char} {n width limit low high : Nat} {year : Int}

/-! ## Numbers -/

theorem says_padded (width n : Nat) : Says (padded width n) n := by
  refine ⟨fun hNone => ?_, fun c hc => ?_, ?_⟩
  · exact Nat.toDigits_ne_nil (List.append_eq_nil_iff.1 hNone).2
  · rcases List.mem_append.1 hc with hZero | hDigit
    · rw [List.eq_of_mem_replicate hZero]
      rfl
    · exact Nat.isDigit_of_mem_toDigits (by decide) (by decide) hDigit
  · unfold padded
    rw [Nat.ofDigitChars_append, Nat.ofDigitChars_replicate_zero, Nat.mul_zero]
    exact Nat.ofDigitChars_toDigits (by decide) (by decide)

theorem length_padded (hWidth : 0 < width) (h : n < 10 ^ width) : (padded width n).length = width := by
  have hFits := (Nat.length_toDigits_le_iff (b := 10) (by decide) hWidth).2 h
  unfold padded
  simp only [List.length_append, List.length_replicate]
  omega

/-- A number is read if its digits fit, and are all that may be read or all that there are. -/
theorem readDigits_append (h : Says digits n) (hFits : digits.length ≤ limit)
    (hEnd : digits.length = limit ∨ Stops rest) :
    readDigits limit (digits ++ rest) = .ok (n, rest) := by
  have hMore : (rest.take (limit - digits.length)).takeWhile Char.isDigit = [] := by
    rcases hEnd with hAll | hStops
    · rw [hAll, Nat.sub_self]
      rfl
    · cases hRest : rest with
      | nil => rw [List.take_nil, List.takeWhile_nil]
      | cons c more =>
          cases hRoom : limit - digits.length with
          | zero => rfl
          | succ room =>
              have hNot : c.isDigit = false := hStops c (by rw [hRest, List.head?_cons])
              rw [List.take_succ_cons, List.takeWhile_cons, hNot]
              rfl
  have hDigits : ((digits ++ rest).take limit).takeWhile Char.isDigit = digits := by
    rw [List.take_append, List.take_of_length_le hFits, List.takeWhile_append_of_pos h.digit, hMore,
      List.append_nil]
  unfold readDigits
  simp only [hDigits]
  split
  · rename_i hNone
    exact absurd (List.append_eq_nil_iff.1 hNone).1 h.some
  · exact absurd rfl h.some
  · rw [h.value, List.drop_left]

theorem toNat_of_isDigit {c : Char} (h : c.isDigit = true) : 48 ≤ c.toNat ∧ c.toNat ≤ 57 := by
  simpa [Char.isDigit, UInt32.le_iff_toNat_le] using h

theorem notBlank_of_isDigit {c : Char} (h : c.isDigit = true) : Text.isBlank c = false := by
  have hRange := toNat_of_isDigit h
  unfold Text.isBlank
  simp only [Bool.or_eq_false_iff, Bool.and_eq_false_iff, decide_eq_false_iff_not, beq_eq_false_iff_ne]
  omega

/-- A number does not begin with a blank, nor with a sign. -/
theorem Says.head (h : Says digits n) (rest : List Char) :
    ∃ c more, digits ++ rest = c :: more ∧ Text.trimLeft (digits ++ rest) = c :: more ∧ c.isDigit = true := by
  cases hDigits : digits with
  | nil => exact absurd hDigits h.some
  | cons c more =>
      have hDigit : c.isDigit = true := h.digit c (by rw [hDigits]; exact List.mem_cons_self)
      refine ⟨c, more ++ rest, rfl, ?_, hDigit⟩
      unfold Text.trimLeft
      rw [List.cons_append, List.dropWhile_cons, notBlank_of_isDigit hDigit]
      rfl

theorem readField_padded (hLow : low ≤ n) (hHigh : n ≤ high) (hTwo : n < 100) :
    readField low high (padded 2 n ++ rest) = .ok (n, rest) := by
  have hSays := says_padded 2 n
  have hLength : (padded 2 n).length = 2 := length_padded (by decide) hTwo
  obtain ⟨c, more, hText, hTrim, -⟩ := hSays.head rest
  unfold readField
  rw [hTrim, ← hText, readDigits_append hSays (Nat.le_of_eq hLength) (.inl hLength)]
  change (inRange low high n >>= fun _ => .ok (n, rest)) = _
  unfold inRange
  rw [if_pos (by omega)]
  rfl

theorem readYear_writeYear (hLow : firstYear ≤ year) (hHigh : year ≤ lastYear) (hStops : Stops rest) :
    readYear (writeYear year ++ rest) = .ok (year, rest) := by
  have hSays := says_padded 4 year.natAbs
  unfold firstYear at hLow
  unfold lastYear at hHigh
  have hAll : ∀ text, (padded 4 year.natAbs).length ≤ (padded 4 year.natAbs ++ text).length := by
    intro text
    rw [List.length_append]
    exact Nat.le_add_right _ _
  unfold writeYear readYear
  by_cases hNegative : year < 0
  · rw [if_pos hNegative]
    have hTrim : Text.trimLeft ('-' :: padded 4 year.natAbs ++ rest) =
        '-' :: (padded 4 year.natAbs ++ rest) := rfl
    rw [hTrim]
    simp only [readDigits_append hSays (hAll rest) (.inr hStops)]
    change (inRange (-2147483648) 2147483647 (-(year.natAbs : Int)) >>= fun y => .ok (y, rest)) = _
    unfold inRange
    rw [if_pos (by omega)]
    have hBack : -(year.natAbs : Int) = year := by omega
    rw [hBack]
    rfl
  · rw [if_neg hNegative]
    have hBack : (year.natAbs : Int) = year := by omega
    by_cases hFour : year ≤ 9999
    · rw [if_pos hFour]
      have hLength : (padded 4 year.natAbs).length = 4 := length_padded (by decide) (by omega)
      obtain ⟨c, more, hText, hTrim, hDigit⟩ := hSays.head rest
      rw [hTrim]
      -- A digit is no sign.
      split
      · rename_i hSign
        rw [(List.cons.inj hSign).1] at hDigit
        cases hDigit
      · rename_i hSign
        rw [(List.cons.inj hSign).1] at hDigit
        cases hDigit
      · rw [← hText, readDigits_append hSays (Nat.le_of_eq hLength) (.inl hLength)]
        change Except.ok ((year.natAbs : Int), rest) = _
        rw [hBack]
    · rw [if_neg hFour]
      have hTrim : Text.trimLeft ('+' :: padded 4 year.natAbs ++ rest) =
          '+' :: (padded 4 year.natAbs ++ rest) := rfl
      rw [hTrim]
      simp only [readDigits_append hSays (hAll rest) (.inr hStops)]
      change (inRange (-2147483648) 2147483647 (year.natAbs : Int) >>= fun y => .ok (y, rest)) = _
      unfold inRange
      rw [if_pos (by omega), hBack]
      rfl

theorem length_le_byteSize (cs : List Char) : cs.length ≤ byteSize cs := by
  induction cs with
  | nil => exact Nat.le_refl 0
  | cons c more ih =>
      have hSize := c.utf8Size_pos
      change more.length + 1 ≤ c.utf8Size + byteSize more
      omega

theorem readFraction_padded (h : n < 1000000000) :
    readFraction ('.' :: padded 9 n ++ rest) = .ok (n, rest) := by
  have hSays := says_padded 9 n
  have hLength : (padded 9 n).length = 9 := length_padded (by decide) h
  have hSize : ¬ byteSize (padded 9 n ++ rest) < 9 := by
    have hBytes := length_le_byteSize (padded 9 n ++ rest)
    rw [List.length_append] at hBytes
    omega
  have hTake : (padded 9 n ++ rest).take 9 = padded 9 n := by
    rw [List.take_append, List.take_of_length_le (Nat.le_of_eq hLength), hLength, Nat.sub_self,
      List.take_zero, List.append_nil]
  have hDrop : (padded 9 n ++ rest).drop 9 = rest := by
    rw [List.drop_append, List.drop_of_length_le (Nat.le_of_eq hLength), hLength, Nat.sub_self,
      List.drop_zero, List.nil_append]
  change (if byteSize (padded 9 n ++ rest) < 9 then Except.error Fault.short else
    if ((padded 9 n ++ rest).take 9).all Char.isDigit then
      .ok (Nat.ofDigitChars 10 ((padded 9 n ++ rest).take 9) 0, (padded 9 n ++ rest).drop 9)
    else .error .invalid) = _
  rw [if_neg hSize, hTake, hDrop, if_pos (List.all_eq_true.2 hSays.digit), hSays.value]

/-! ## Time stamps -/

/-- The parts of a time stamp are read as they were written. -/
theorem readParts_writeParts {date : Calendar.Date} {hour minute second fraction : Nat}
    (hFirst : firstYear ≤ date.year) (hLast : date.year ≤ lastYear)
    (hMonth : 1 ≤ date.month ∧ date.month ≤ 12) (hDay : 1 ≤ date.day ∧ date.day ≤ 31)
    (hHour : hour ≤ 23) (hMinute : minute ≤ 59) (hSecond : second ≤ 60)
    (hFraction : fraction < 1000000000) :
    readParts (writeParts date hour minute second fraction) =
      .ok ⟨date, hour, minute, second, fraction, 0⟩ := by
  have hMark : ∀ c (text : List Char), readMark c (c :: text) = .ok text := fun c text => if_pos rfl
  have hStops : ∀ text : List Char, Stops ('-' :: text) := by
    rintro text c ⟨⟩
    rfl
  have hOffset : readOffset ['+', '0', '0', ':', '0', '0'] = .ok (0, []) := by rfl
  unfold readParts writeParts
  simp only [List.append_assoc, List.cons_append]
  refine bind_eq_ok.2 ⟨_, readYear_writeYear hFirst hLast (hStops _), ?_⟩
  refine bind_eq_ok.2 ⟨_, hMark _ _, bind_eq_ok.2 ⟨_, readField_padded hMonth.1 hMonth.2 (by omega), ?_⟩⟩
  refine bind_eq_ok.2 ⟨_, hMark _ _, bind_eq_ok.2 ⟨_, readField_padded hDay.1 hDay.2 (by omega), ?_⟩⟩
  refine bind_eq_ok.2 ⟨_, hMark _ _,
    bind_eq_ok.2 ⟨_, readField_padded (Nat.zero_le hour) hHour (by omega), ?_⟩⟩
  refine bind_eq_ok.2 ⟨_, hMark _ _,
    bind_eq_ok.2 ⟨_, readField_padded (Nat.zero_le minute) hMinute (by omega), ?_⟩⟩
  refine bind_eq_ok.2 ⟨_, hMark _ _,
    bind_eq_ok.2 ⟨_, readField_padded (Nat.zero_le second) hSecond (by omega), ?_⟩⟩
  exact bind_eq_ok.2 ⟨_, readFraction_padded hFraction, bind_eq_ok.2 ⟨_, hOffset, rfl⟩⟩

/-- The date of an instant lies in the years of instants. -/
theorem year_of_instant (t : Instant) :
    firstYear ≤ (Calendar.dateOf t.day).year ∧ (Calendar.dateOf t.day).year ≤ lastYear := by
  have hYear : (Calendar.dateOf t.day).year = Calendar.yearOf t.day := rfl
  obtain ⟨hFrom, hTo⟩ := Calendar.daysBeforeYear_yearOf t.day
  obtain ⟨hFirst, hLast⟩ := t.seconds_range
  unfold firstSecond at hFirst
  unfold lastSecond at hLast
  rw [hYear]
  unfold Instant.day at hFrom hTo ⊢
  constructor
  · by_contra hBefore
    have hMono := Calendar.daysBeforeYear_mono (Int.not_le.1 hBefore)
    omega
  · by_contra hAfter
    have hMono := Calendar.daysBeforeYear_mono (Int.not_le.1 hAfter)
    omega

/-- No month is longer than 31 days. -/
theorem day_le_of_exists {date : Calendar.Date} (h : date.exists = true) : date.day ≤ 31 := by
  have hMonths : ∀ leap, ∀ length ∈ Calendar.monthLengths leap, length ≤ 31 := by decide
  obtain ⟨⟨hFrom, hTo⟩, -, hDay⟩ := (Calendar.Date.exists_iff date).1 h
  refine Nat.le_trans hDay (hMonths (Calendar.isLeap date.year) _ ?_)
  have hPlace : date.month - 1 < (Calendar.monthLengths (Calendar.isLeap date.year)).length := by
    change date.month - 1 < 12
    omega
  unfold Calendar.monthLength
  rw [List.getD_eq_getElem?_getD, List.getElem?_eq_getElem hPlace, Option.getD_some]
  exact List.getElem_mem hPlace

/-- The parts that a regular instant is written in denote the instant. -/
theorem instant_of_parts {t : Instant} (hRegular : t.Regular) :
    Parts.instant ⟨Calendar.dateOf t.day, t.secondOfDay / 3600, t.secondOfDay / 60 % 60,
      t.secondOfDay % 60 + t.nanos / 1000000000, t.nanos % 1000000000, 0⟩ = .ok t := by
  obtain ⟨hFirst, hLast⟩ := year_of_instant t
  have hNanos := t.nanos_lt
  have hLeap : 1000000000 ≤ t.nanos → t.seconds % 60 = 59 := hRegular
  have hSecond : (t.secondOfDay : Int) = t.seconds % 86400 := by
    unfold Instant.secondOfDay
    omega
  have hDate : (!(Calendar.dateOf t.day).exists || decide ((Calendar.dateOf t.day).year < firstYear) ||
      decide (lastYear < (Calendar.dateOf t.day).year)) = false := by
    rw [Calendar.dateOf_exists, decide_eq_false (Int.not_lt.2 hFirst),
      decide_eq_false (Int.not_lt.2 hLast)]
    rfl
  -- In a leap second the fraction is a whole second more than what is written.
  have hParts : ∀ seconds nanos, seconds = t.seconds → nanos = t.nanos →
      Instant.ofParts? seconds nanos = some t := by
    rintro _ _ rfl rfl
    exact Instant.ofParts?_of_regular hRegular
  have hOffset : ¬ 86400 ≤ (0 : Int).natAbs := by decide
  unfold Parts.instant
  rw [if_neg hOffset, hDate]
  simp only [Bool.false_eq_true, if_false]
  rw [hParts]
  · rw [Calendar.dayNumber_dateOf]
    unfold Instant.day
    omega
  · split <;> omega

/-- The seconds and the whole second of a fraction are written as one number. -/
theorem writeChars_carried (t : Instant) : writeChars t.carried = writeChars t := by
  by_cases h : t.Regular
  · rw [Instant.carried_of_regular h]
  · obtain ⟨hSeconds, hNanos, hOther⟩ := Instant.carried_parts h
    have hLess := t.nanos_lt
    have hClock : t.carried.secondOfDay = t.secondOfDay + 1 ∧ t.secondOfDay % 60 ≠ 59 := by
      unfold Instant.secondOfDay
      omega
    have hHour : t.carried.secondOfDay / 3600 = t.secondOfDay / 3600 := by omega
    have hMinute : t.carried.secondOfDay / 60 % 60 = t.secondOfDay / 60 % 60 := by omega
    have hSecond : t.carried.secondOfDay % 60 + t.carried.nanos / 1000000000 =
        t.secondOfDay % 60 + t.nanos / 1000000000 := by omega
    have hFraction : t.carried.nanos % 1000000000 = t.nanos % 1000000000 := by omega
    unfold writeChars
    rw [Instant.day_carried]
    dsimp only
    rw [hHour, hMinute, hSecond, hFraction]

@[simp] theorem toList_write (t : Instant) : (write t).toList = writeChars t :=
  String.toList_ofList

/-- A time stamp is read as the regular instant that it was written for. -/
theorem readChars_writeChars {t : Instant} (hRegular : t.Regular) : readChars (writeChars t) = .ok t := by
  have hExists := Calendar.dateOf_exists t.day
  obtain ⟨hMonth, hDay, -⟩ := (Calendar.Date.exists_iff _).1 hExists
  obtain ⟨hFirst, hLast⟩ := year_of_instant t
  have hNanos := t.nanos_lt
  have hSecond : t.secondOfDay < 86400 := by
    unfold Instant.secondOfDay
    omega
  exact bind_eq_ok.2 ⟨_, readParts_writeParts hFirst hLast hMonth ⟨hDay, day_le_of_exists hExists⟩
    (by omega) (by omega) (by omega) (by omega), instant_of_parts hRegular⟩

/-- A time stamp is read as the instant with what its fraction carries over. -/
theorem read_write (t : Instant) : read (write t) = .ok t.carried := by
  unfold read
  rw [toList_write, ← writeChars_carried]
  exact readChars_writeChars t.regular_carried

/-- Just the regular instants are read back. -/
theorem read_write_iff {t : Instant} : read (write t) = .ok t ↔ t.Regular := by
  rw [read_write, Except.ok.injEq, Instant.carried_eq_self]

theorem write_eq_iff {s t : Instant} : write s = write t ↔ s.carried = t.carried := by
  constructor
  · intro h
    have hRead := read_write s
    rw [h, read_write t] at hRead
    exact (Except.ok.inj hRead).symm
  · intro h
    unfold write
    rw [← writeChars_carried s, h, writeChars_carried]

end GraphMapping.Stamp
