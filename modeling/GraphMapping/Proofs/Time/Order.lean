import GraphMapping.Proofs.Text.ByteOrder
import GraphMapping.Proofs.Time.Stamp
import GraphMapping.Statement.Load

/-!
# Time stamps sort like times

In the years 0 to 9999 every number of a time stamp has its fixed place, the larger units first.  So the
order of the texts is that of their numbers, and the numbers grow with time: through the calendar, and
through a leap second, whose second 60 lies between the second 59 and the next minute.  A whole second in the
fraction of another instant counts among its seconds.  Main statement: what compares time stamps as texts, a
filter or a sort key, compares the times of regular instants.
-/

namespace GraphMapping

namespace Calendar

variable {m n : Int} {i j : Nat} {lengths : List Nat}

/-- Earlier in the order of years, months and days. -/
def Date.Before (d e : Date) : Prop :=
  d.year < e.year ∨ (d.year = e.year ∧ (d.month < e.month ∨ (d.month = e.month ∧ d.day < e.day)))

/-- Later days are found in later months, or later in the same month. -/
theorem locate_lt (h : i < j) : (locate lengths i).1 < (locate lengths j).1 ∨
    ((locate lengths i).1 = (locate lengths j).1 ∧ (locate lengths i).2 < (locate lengths j).2) := by
  induction lengths generalizing i j with
  | nil => exact .inr ⟨rfl, h⟩
  | cons length lengths ih =>
      unfold locate
      by_cases hj : j < length
      · rw [if_pos (Nat.lt_trans h hj), if_pos hj]
        exact .inr ⟨rfl, h⟩
      · rw [if_neg hj]
        by_cases hi : i < length
        · rw [if_pos hi]
          exact .inl (Nat.succ_pos _)
        · rw [if_neg hi]
          have hRest := ih (i := i - length) (j := j - length) (by omega)
          dsimp only
          omega

theorem yearOf_mono (h : m ≤ n) : yearOf m ≤ yearOf n := by
  by_contra hLater
  have hMono := daysBeforeYear_mono (Int.not_le.1 hLater)
  have hm := daysBeforeYear_yearOf m
  have hn := daysBeforeYear_yearOf n
  omega

/-- Later days have later dates. -/
theorem dateOf_before (h : m < n) : (dateOf m).Before (dateOf n) := by
  have hYears : yearOf m ≤ yearOf n := yearOf_mono (Int.le_of_lt h)
  rcases Int.lt_or_eq_of_le hYears with hLess | hSame
  · exact .inl hLess
  · have hm := daysBeforeYear_yearOf m
    have hPlace : (m - daysBeforeYear (yearOf n)).toNat < (n - daysBeforeYear (yearOf n)).toNat := by
      rw [hSame] at hm
      omega
    have hFound := @locate_lt _ _ (monthLengths (isLeap (yearOf n))) hPlace
    refine .inr ⟨hSame, ?_⟩
    unfold dateOf
    rw [hSame]
    dsimp only
    omega

end Calendar

namespace Instant

variable {s t : Instant}

/-- The year of an instant has four digits and no sign. -/
def InFourDigits (t : Instant) : Prop :=
  0 ≤ (Calendar.dateOf t.day).year ∧ (Calendar.dateOf t.day).year ≤ 9999

instance (t : Instant) : Decidable t.InFourDigits :=
  inferInstanceAs (Decidable (_ ∧ _))

instance (s t : Instant) : Decidable (s.Before t) :=
  inferInstanceAs (Decidable (_ ∨ _))

theorem before_trichotomy (s t : Instant) : s.Before t ∨ s = t ∨ t.Before s := by
  obtain ⟨seconds, nanos, _, _⟩ := s
  obtain ⟨seconds', nanos', _, _⟩ := t
  unfold Before
  simp only [Instant.mk.injEq]
  omega

theorem inFourDigits_carried (h : t.InFourDigits) : t.carried.InFourDigits := by
  unfold InFourDigits
  rwa [day_carried]

end Instant

namespace Stamp

variable {c d : Char} {cs ds : List Char} {m n width : Nat} {ms ns : List Nat} {s t : Instant}

/-! ## Digits -/

/-- The number that a digit stands for. -/
def digit (c : Char) : Nat :=
  c.toNat - '0'.toNat

theorem digit_lt_ten (h : c.isDigit = true) : digit c < 10 := by
  have hRange := toNat_of_isDigit h
  have hZero : '0'.toNat = 48 := rfl
  unfold digit
  omega

theorem digit_lt_digit (hc : c.isDigit = true) (h : c < d) : digit c < digit d := by
  have hRange := toNat_of_isDigit hc
  have hZero : '0'.toNat = 48 := rfl
  have hLess : c.toNat < d.toNat := UInt32.lt_iff_toNat_lt.1 h
  unfold digit
  omega

theorem ofDigitChars_cons (c : Char) (cs : List Char) :
    Nat.ofDigitChars 10 (c :: cs) 0 = 10 ^ cs.length * digit c + Nat.ofDigitChars 10 cs 0 := by
  rw [Nat.ofDigitChars_cons, Nat.ofDigitChars_eq_ofDigitChars_zero, Nat.mul_zero, Nat.zero_add]
  rfl

theorem ofDigitChars_lt (h : ∀ c ∈ cs, c.isDigit = true) :
    Nat.ofDigitChars 10 cs 0 < 10 ^ cs.length := by
  induction cs with
  | nil => decide
  | cons c rest ih =>
      obtain ⟨hHere, hRest⟩ := List.forall_mem_cons.1 h
      have hFirst := Nat.mul_le_mul_left (10 ^ rest.length) (Nat.le_of_lt_succ (digit_lt_ten hHere))
      have hOthers := ih hRest
      rw [ofDigitChars_cons, List.length_cons, Nat.pow_succ]
      omega

/-- Of two numbers in equally many digits, the digits of the smaller one come first. -/
theorem digits_lt (hcs : ∀ c ∈ cs, c.isDigit = true) (hds : ∀ c ∈ ds, c.isDigit = true)
    (hLength : cs.length = ds.length)
    (h : Nat.ofDigitChars 10 cs 0 < Nat.ofDigitChars 10 ds 0) : cs < ds := by
  induction cs generalizing ds with
  | nil =>
      rw [List.length_eq_zero_iff.1 hLength.symm] at h
      exact absurd h (Nat.lt_irrefl _)
  | cons c cs ih =>
      cases ds with
      | nil => cases hLength
      | cons d ds =>
          obtain ⟨hc, hcRest⟩ := List.forall_mem_cons.1 hcs
          obtain ⟨hd, hdRest⟩ := List.forall_mem_cons.1 hds
          have hRest : cs.length = ds.length := Nat.succ.inj hLength
          rw [ofDigitChars_cons, ofDigitChars_cons, hRest] at h
          rcases lt_trichotomy c d with hLess | rfl | hMore
          · exact .rel hLess
          · exact .cons (ih hcRest hdRest hRest (Nat.lt_of_add_lt_add_left h))
          · -- A larger first digit outweighs all that follows.
            have hFirst := Nat.mul_le_mul_left (10 ^ ds.length) (digit_lt_digit hd hMore)
            have hOthers := ofDigitChars_lt hdRest
            rw [Nat.mul_succ] at hFirst
            omega

theorem padded_lt (hWidth : 0 < width) (hFits : n < 10 ^ width) (h : m < n) :
    padded width m < padded width n := by
  have hm := says_padded width m
  have hn := says_padded width n
  refine digits_lt hm.digit hn.digit ?_ (by rw [hm.value, hn.value]; exact h)
  rw [length_padded hWidth (Nat.lt_trans h hFits), length_padded hWidth hFits]

/-! ## Numbers in their places -/

/-- The widths of numbers, and what stands behind each of them. -/
abbrev Layout := List (Nat × List Char)

/-- Write numbers in their places. -/
def render : Layout → List Nat → List Char
  | (width, mark) :: layout, n :: ns => padded width n ++ (mark ++ render layout ns)
  | _, _ => []

/-- Every number has a place that is wide enough. -/
abbrev Fit (layout : Layout) (ns : List Nat) : Prop :=
  List.Forall₂ (fun place n => 0 < place.1 ∧ n < 10 ^ place.1) layout ns

theorem render_lt {layout : Layout} (hm : Fit layout ms) (hn : Fit layout ns) (h : ms < ns) :
    render layout ms < render layout ns := by
  induction hm generalizing ns with
  | nil =>
      cases hn
      exact absurd h (lt_irrefl _)
  | @cons place m layout ms hPlace _ ih =>
      obtain _ | ⟨hPlace', hRest⟩ := hn
      rcases List.cons_lt_cons_iff.1 h with hLess | ⟨rfl, hMore⟩
      · refine Text.append_lt_append (padded_lt hPlace.1 hPlace'.2 hLess) ?_ _ _
        rw [length_padded hPlace.1 hPlace.2, length_padded hPlace.1 hPlace'.2]
      · exact List.append_left_lt (List.append_left_lt (ih hRest hMore))

theorem ascii_render {layout : Layout} (h : ∀ place ∈ layout, Text.Ascii place.2) (ns : List Nat) :
    Text.Ascii (render layout ns) := by
  induction layout generalizing ns with
  | nil => exact fun c hc => absurd hc List.not_mem_nil
  | cons place layout ih =>
      obtain ⟨hMark, hRest⟩ := List.forall_mem_cons.1 h
      cases ns with
      | nil => exact fun c hc => absurd hc List.not_mem_nil
      | cons n ns =>
          intro c hc
          rcases List.mem_append.1 hc with hDigit | hc
          · have hRange := toNat_of_isDigit ((says_padded place.1 n).digit c hDigit)
            omega
          · rcases List.mem_append.1 hc with hc | hc
            · exact hMark c hc
            · exact ih hRest ns c hc

/-! ## Time stamps -/

/-- The places of a time stamp whose year has four digits. -/
def layout : Layout :=
  [(4, ['-']), (2, ['-']), (2, ['T']), (2, [':']), (2, [':']), (2, ['.']),
    (9, ['+', '0', '0', ':', '0', '0'])]

/-- The numbers of a time stamp. -/
def numbers (t : Instant) : List Nat :=
  [(Calendar.dateOf t.day).year.natAbs, (Calendar.dateOf t.day).month, (Calendar.dateOf t.day).day,
    t.secondOfDay / 3600, t.secondOfDay / 60 % 60, t.secondOfDay % 60 + t.nanos / 1000000000,
    t.nanos % 1000000000]

theorem writeChars_eq_render (h : t.InFourDigits) : writeChars t = render layout (numbers t) := by
  have hYear : writeYear (Calendar.dateOf t.day).year = padded 4 (Calendar.dateOf t.day).year.natAbs := by
    unfold writeYear
    rw [if_neg (Int.not_lt.2 h.1), if_pos h.2]
  unfold writeChars writeParts
  rw [hYear]
  simp only [render, layout, numbers, List.append_assoc, List.cons_append, List.nil_append,
    List.append_nil]

theorem fit_numbers (h : t.InFourDigits) : Fit layout (numbers t) := by
  have hExists := Calendar.dateOf_exists t.day
  obtain ⟨hMonth, -, -⟩ := (Calendar.Date.exists_iff _).1 hExists
  have hDay := day_le_of_exists hExists
  have hNanos := t.nanos_lt
  have hSecond : t.secondOfDay < 86400 := by
    unfold Instant.secondOfDay
    omega
  obtain ⟨hFirst, hLast⟩ := h
  unfold layout numbers
  refine .cons ?_ (.cons ?_ (.cons ?_ (.cons ?_ (.cons ?_ (.cons ?_ (.cons ?_ .nil)))))) <;>
    refine ⟨by decide, ?_⟩ <;> dsimp only <;> omega

/-- Later instants have larger numbers in their time stamps, if the earlier one is regular. -/
theorem numbers_lt (hs : s.InFourDigits) (hRegular : s.Regular) (h : s.Before t) :
    numbers s < numbers t := by
  have hNanos := s.nanos_lt
  have hClock : s.secondOfDay < 86400 ∧ t.secondOfDay < 86400 := by
    unfold Instant.secondOfDay
    omega
  have hLeap : 1000000000 ≤ s.nanos → s.secondOfDay % 60 = 59 := by
    have hMinute : 1000000000 ≤ s.nanos → s.seconds % 60 = 59 := hRegular
    unfold Instant.secondOfDay
    omega
  have hParts : s.day < t.day ∨ (s.day = t.day ∧ (s.secondOfDay < t.secondOfDay ∨
      (s.secondOfDay = t.secondOfDay ∧ s.nanos < t.nanos))) := by
    unfold Instant.Before at h
    unfold Instant.day Instant.secondOfDay
    omega
  unfold numbers
  simp only [List.cons_lt_cons_iff, List.lt_irrefl, and_false, or_false]
  rcases hParts with hDay | ⟨hDay, hTime⟩
  · have hFrom := hs.1
    have hDate := Calendar.dateOf_before hDay
    unfold Calendar.Date.Before at hDate
    omega
  · -- On the same day a leap second is the last of its minute.
    rw [hDay]
    omega

theorem ascii_writeChars (h : t.InFourDigits) : Text.Ascii (writeChars t) := by
  rw [writeChars_eq_render h]
  exact ascii_render (by decide) _

/-- The time stamps of regular instants stand byte by byte in the order of the instants. -/
theorem precedes_of_before (hs : s.InFourDigits) (ht : t.InFourDigits) (hRegular : s.Regular)
    (h : s.Before t) : Text.Precedes (write s) (write t) := by
  refine Text.precedes_of_lt (ascii_writeChars hs) (ascii_writeChars ht) ?_
  rw [writeChars_eq_render hs, writeChars_eq_render ht]
  exact render_lt (fit_numbers hs) (fit_numbers ht) (numbers_lt hs hRegular h)

theorem precedes_iff_of_regular (hs : s.InFourDigits) (ht : t.InFourDigits) (hsRegular : s.Regular)
    (htRegular : t.Regular) : Text.Precedes (write s) (write t) ↔ s.Before t := by
  refine ⟨fun hText => ?_, precedes_of_before hs ht hsRegular⟩
  rcases Instant.before_trichotomy s t with hBefore | rfl | hAfter
  · exact hBefore
  · exact absurd hText (Text.not_precedes_self _)
  · exact absurd hText (precedes_of_before ht hs htRegular hAfter).asymm

/-- Time stamps stand in the order of what their fractions carry over. -/
theorem precedes_iff (hs : s.InFourDigits) (ht : t.InFourDigits) :
    Text.Precedes (write s) (write t) ↔ s.carried.Before t.carried := by
  have hsText : write s = write s.carried := congrArg String.ofList (writeChars_carried s).symm
  have htText : write t = write t.carried := congrArg String.ofList (writeChars_carried t).symm
  rw [hsText, htText]
  exact precedes_iff_of_regular (Instant.inFourDigits_carried hs) (Instant.inFourDigits_carried ht)
    s.regular_carried t.regular_carried

end Stamp

/-! ## Filters and sort keys -/

/-- What a comparison says of two things, given which of two comes before the other.  The comparisons of
parts of texts and members of lists say nothing of them. -/
def Comparison.test? {α : Type} (before : α → α → Prop) (held bound : α) : Comparison → Option Prop
  | .eq => some (held = bound)
  | .ne => some (held ≠ bound)
  | .lt => some (before held bound)
  | .lte => some (¬ before bound held)
  | .gt => some (before bound held)
  | .gte => some (¬ before held bound)
  | .contains | .startsWith | .member => none

/-- Things stand as a sort key asks, given which of two comes before the other; equal ones stand in any
order. -/
def Order.Sorts {α : Type} (o : Order) (before : α → α → Prop) (xs : List α) : Prop :=
  xs.Pairwise fun x y => ¬ if o.descending then before x y else before y x

variable {s t : Instant}

theorem test?_write (hs : s.InFourDigits) (ht : t.InFourDigits) (c : Comparison) :
    c.test? Text.Precedes (Stamp.write s) (Stamp.write t) =
      c.test? Instant.Before s.carried t.carried := by
  have hSame : Stamp.write s = Stamp.write t ↔ s.carried = t.carried := Stamp.write_eq_iff
  have hHere := Stamp.precedes_iff hs ht
  have hThere := Stamp.precedes_iff ht hs
  cases c <;> simp only [Comparison.test?, hSame, hHere, hThere, ne_eq]

theorem sorts_write {ts : List Instant} (h : ∀ t ∈ ts, t.InFourDigits) (o : Order) :
    o.Sorts Text.Precedes (ts.map Stamp.write) ↔ o.Sorts Instant.Before (ts.map Instant.carried) := by
  unfold Order.Sorts
  rw [List.pairwise_map, List.pairwise_map]
  refine List.Pairwise.iff_of_mem fun {s t} hs ht => ?_
  rw [Stamp.precedes_iff (h s hs) (h t ht), Stamp.precedes_iff (h t ht) (h s hs)]

/-- In the years 0 to 9999 time stamps compare byte by byte as the times with what their fractions carry over.
So regular instants are compared as they are: in themselves, in a filter that compares a stored instant with
a bound one, and under a sort key. -/
theorem time_stamps_sort_like_times :
    (∀ s t : Instant, s.InFourDigits → t.InFourDigits →
      (Text.Precedes (Stamp.write s) (Stamp.write t) ↔ s.carried.Before t.carried)) ∧
    (∀ s t : Instant, s.InFourDigits → t.InFourDigits → s.Regular → t.Regular →
      (Text.Precedes (Stamp.write s) (Stamp.write t) ↔ s.Before t)) ∧
    (∀ (clause : Clause) (subject property : String) (c : Comparison) (t : Instant),
      t.InFourDigits → t.Regular →
      ∃ bound, clause.add subject (.compare property c (.instant t)) =
          ⟨clause.conditions ++ [Identifier.property subject property ++ " " ++ c.operator ++ " $" ++
            clause.nextName], clause.params.insert clause.nextName (.string bound)⟩ ∧
        ∀ s : Instant, s.InFourDigits → s.Regular →
          ∃ stored, (Value.instant s).storage = .string stored ∧
            c.test? Text.Precedes stored bound = c.test? Instant.Before s t) ∧
    ∀ (o : Order) (ts : List Instant), (∀ t ∈ ts, t.InFourDigits ∧ t.Regular) →
      (o.Sorts Text.Precedes (ts.map Stamp.write) ↔ o.Sorts Instant.Before ts) := by
  refine ⟨fun s t => Stamp.precedes_iff, fun s t => Stamp.precedes_iff_of_regular,
    fun clause subject property c t ht htRegular => ?_, fun o ts h => ?_⟩
  · refine ⟨Stamp.write t, ?_, fun s hs hsRegular => ⟨Stamp.write s, ?_, ?_⟩⟩
    · simp only [Clause.add, Clause.bind, Value.storage]
    · simp only [Value.storage]
    · rw [test?_write hs ht c, Instant.carried_of_regular hsRegular, Instant.carried_of_regular htRegular]
  · have hSame : ts.map Instant.carried = ts := by
      rw [List.map_congr_left fun t ht => Instant.carried_of_regular (h t ht).2, List.map_id']
    rw [sorts_write (fun t ht => (h t ht).1), hSame]

namespace Instant

/-- The middle of the leap second at the end of 2016. -/
def leapSecond : Instant :=
  ⟨1483228799, 1500000000, by decide, by decide⟩

/-- The middle of the first second of 2017. -/
def newYear : Instant :=
  ⟨1483228800, 500000000, by decide, by decide⟩

example : Stamp.write leapSecond = "2016-12-31T23:59:60.500000000+00:00" := by decide

end Instant

/-- The leap second stands between the year that it ends and the next one. -/
theorem leap_second_sorts :
    Instant.leapSecond.InFourDigits ∧ Instant.newYear.InFourDigits ∧
      Instant.leapSecond.Regular ∧ Instant.newYear.Regular ∧
      Text.Precedes (Stamp.write .leapSecond) (Stamp.write .newYear) ∧
      (∃ bound, Clause.empty.add "n" (.compare "seen" .lt (.instant .newYear)) =
          ⟨["n.`seen` < $p0"], [("p0", .string bound)]⟩ ∧
        ∃ stored, (Value.instant .leapSecond).storage = .string stored ∧
          Comparison.lt.test? Text.Precedes stored bound =
            Comparison.lt.test? Instant.Before .leapSecond .newYear) ∧
      Order.Sorts ⟨"seen", true⟩ Text.Precedes [Stamp.write .newYear, Stamp.write .leapSecond] := by
  have hLeap : Instant.leapSecond.InFourDigits := by decide
  have hYear : Instant.newYear.InFourDigits := by decide
  have hLeapRegular : Instant.leapSecond.Regular := by decide
  have hYearRegular : Instant.newYear.Regular := by decide
  have hBefore : Instant.leapSecond.Before .newYear := by decide
  obtain ⟨-, hTexts, hFilters, hSorts⟩ := time_stamps_sort_like_times
  refine ⟨hLeap, hYear, hLeapRegular, hYearRegular,
    (hTexts _ _ hLeap hYear hLeapRegular hYearRegular).2 hBefore, ?_, ?_⟩
  · obtain ⟨bound, hClause, hStored⟩ := hFilters .empty "n" "seen" .lt .newYear hYear hYearRegular
    exact ⟨bound, hClause, hStored .leapSecond hLeap hLeapRegular⟩
  · refine (hSorts ⟨"seen", true⟩ [.newYear, .leapSecond] (by decide)).2 ?_
    refine List.pairwise_pair.2 ?_
    decide

/-- A fifth of a second behind the second that follows the one of `overlong`. -/
def Instant.justAfter : Instant :=
  ⟨965, 200000000, by decide, by decide⟩

/-- An instant with a whole second in its fraction comes before one of the next second, but its time stamp
comes behind the time stamp of that one. -/
theorem overlong_sorts_later :
    Instant.overlong.InFourDigits ∧ Instant.justAfter.InFourDigits ∧
      Instant.overlong.Before .justAfter ∧
      Text.Precedes (Stamp.write .justAfter) (Stamp.write .overlong) ∧
      ¬ Text.Precedes (Stamp.write .overlong) (Stamp.write .justAfter) := by
  have hOverlong : Instant.overlong.InFourDigits := by decide
  have hAfter : Instant.justAfter.InFourDigits := by decide
  have hText : Text.Precedes (Stamp.write .justAfter) (Stamp.write .overlong) :=
    (Stamp.precedes_iff hAfter hOverlong).2 (by decide)
  exact ⟨hOverlong, hAfter, by decide, hText, hText.asymm⟩

end GraphMapping
