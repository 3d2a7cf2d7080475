import GraphMapping.Text.Blank
import GraphMapping.Time.Instant

/-!
# Time stamps

Instants are stored as text such as `2024-03-01T12:30:05.000000000+00:00`: date, time of day with
nine digits of fraction, and the offset from UTC.  Writing always uses offset zero; reading takes any
offset below a day, an absent fraction, and blanks before numbers.  A year outside 0 to 9999 carries
its sign, and a leap second is written as second 60.
-/

namespace GraphMapping.Stamp

/-- Why a text is no time stamp. -/
inductive Fault where
  /-- The text ends where more must follow. -/
  | short
  /-- A character does not fit. -/
  | invalid
  /-- A number or the date is out of range. -/
  | range
  /-- Something follows the time stamp. -/
  | trailing
  /-- The offset leads out of the range of instants. -/
  | impossible
deriving DecidableEq, Repr

/-- The description of a fault. -/
def Fault.message : Fault → String
  | .short => "premature end of input"
  | .invalid => "input contains invalid characters"
  | .range => "input is out of range"
  | .trailing => "trailing input"
  | .impossible => "no possible date and time matching input"

/-- The digits of `n` with zeros in front up to `width`. -/
def padded (width n : Nat) : List Char :=
  let digits := Nat.toDigits 10 n
  List.replicate (width - digits.length) '0' ++ digits

/-- A year: four digits, with a sign outside 0 to 9999. -/
def writeYear (year : Int) : List Char :=
  if year < 0 then '-' :: padded 4 year.natAbs
  else if year ≤ 9999 then padded 4 year.natAbs
  else '+' :: padded 4 year.natAbs

/-- Write a date, a time of day and a fraction. -/
def writeParts (date : Calendar.Date) (hour minute second fraction : Nat) : List Char :=
  writeYear date.year ++ '-' :: padded 2 date.month ++ '-' :: padded 2 date.day ++
    'T' :: padded 2 hour ++ ':' :: padded 2 minute ++ ':' :: padded 2 second ++
    '.' :: padded 9 fraction ++ ['+', '0', '0', ':', '0', '0']

/-- Write an instant. -/
def writeChars (t : Instant) : List Char :=
  let s := t.secondOfDay
  writeParts (Calendar.dateOf t.day) (s / 3600) (s / 60 % 60)
    (s % 60 + t.nanos / 1000000000) (t.nanos % 1000000000)

/-- Write an instant. -/
def write (t : Instant) : String :=
  String.ofList (writeChars t)

/-- The size of a text in bytes. -/
def byteSize (cs : List Char) : Nat :=
  cs.foldr (fun c n => c.utf8Size + n) 0

/-- Read one or more digits, at most `limit` of them. -/
def readDigits (limit : Nat) (cs : List Char) : Except Fault (Nat × List Char) :=
  let digits := (cs.take limit).takeWhile Char.isDigit
  match cs, digits with
  | [], _ => .error .short
  | _, [] => .error .invalid
  | _, _ => .ok (Nat.ofDigitChars 10 digits 0, cs.drop digits.length)

/-- Check that a number lies between two bounds. -/
def inRange (low high n : Int) : Except Fault Int :=
  if low ≤ n ∧ n ≤ high then .ok n else .error .range

/-- Read a number of one or two digits between two bounds, after blanks. -/
def readField (low high : Nat) (cs : List Char) : Except Fault (Nat × List Char) := do
  let (n, rest) ← readDigits 2 (Text.trimLeft cs)
  let _ ← inRange low high n
  return (n, rest)

/-- Read a year, after blanks: up to four digits, or any number of digits after a sign. -/
def readYear (cs : List Char) : Except Fault (Int × List Char) := do
  match Text.trimLeft cs with
  | '-' :: rest =>
      let (n, rest) ← readDigits rest.length rest
      return (← inRange (-2147483648) 2147483647 (-n), rest)
  | '+' :: rest =>
      let (n, rest) ← readDigits rest.length rest
      return (← inRange (-2147483648) 2147483647 n, rest)
  | rest =>
      let (n, rest) ← readDigits 4 rest
      return (n, rest)

/-- Read one fixed character. -/
def readMark (mark : Char) : List Char → Except Fault (List Char)
  | [] => .error .short
  | c :: rest => if c = mark then .ok rest else .error .invalid

/-- Read a fraction of exactly nine digits after a point; without a point it is zero. -/
def readFraction : List Char → Except Fault (Nat × List Char)
  | '.' :: rest =>
      if byteSize rest < 9 then .error .short
      else
        let digits := rest.take 9
        if digits.all Char.isDigit then .ok (Nat.ofDigitChars 10 digits 0, rest.drop 9)
        else .error .invalid
  | rest => .ok (0, rest)

/-- Read two digits, of which the first is below `bound`; a larger first digit is out of range. -/
def readPair (bound : Nat) (cs : List Char) : Except Fault (Nat × List Char) :=
  if byteSize cs < 2 then .error .short
  else
    match cs with
    | a :: b :: rest =>
        if a.isDigit && b.isDigit then
          if a.toNat - '0'.toNat < bound then .ok (Nat.ofDigitChars 10 [a, b] 0, rest)
          else .error .range
        else .error .invalid
    | _ => .error .invalid

/-- The sign of an offset: true for west of Greenwich. -/
def readSign : List Char → Except Fault (Bool × List Char)
  | [] => .error .short
  | c :: rest =>
      if c = '+' then .ok (false, rest)
      else if c = '-' ∨ c = '\u2212' then .ok (true, rest)
      else .error .invalid

/-- Read an offset from UTC in seconds, after blanks. -/
def readOffset (cs : List Char) : Except Fault (Int × List Char) := do
  let (west, rest) ← readSign (Text.trimLeft cs)
  let (hours, rest) ← readPair 10 rest
  -- Any run of colons and blanks, also none, stands between hours and minutes.
  let (minutes, rest) ← readPair 6 (rest.dropWhile fun c => c == ':' || Text.isBlank c)
  let size : Int := hours * 3600 + minutes * 60
  return (if west then -size else size, rest)

/-- What a time stamp says, before the date is looked up. -/
structure Parts where
  date : Calendar.Date
  hour : Nat
  minute : Nat
  second : Nat
  fraction : Nat
  offset : Int
deriving Repr

/-- Read all parts of a time stamp. -/
def readParts (cs : List Char) : Except Fault Parts := do
  let (year, rest) ← readYear cs
  let rest ← readMark '-' rest
  let (month, rest) ← readField 1 12 rest
  let rest ← readMark '-' rest
  let (day, rest) ← readField 1 31 rest
  let rest ← readMark 'T' rest
  let (hour, rest) ← readField 0 23 rest
  let rest ← readMark ':' rest
  let (minute, rest) ← readField 0 59 rest
  let rest ← readMark ':' rest
  let (second, rest) ← readField 0 60 rest
  let (fraction, rest) ← readFraction rest
  let (offset, rest) ← readOffset rest
  if rest.isEmpty then return ⟨⟨year, month, day⟩, hour, minute, second, fraction, offset⟩
  else throw .trailing

/-- The instant that parts of a time stamp denote. -/
def Parts.instant (p : Parts) : Except Fault Instant :=
  if 86400 ≤ p.offset.natAbs then .error .range
  else if !p.date.exists || p.date.year < firstYear || lastYear < p.date.year then .error .range
  else
    -- Second 60 is kept as second 59 with a fraction of a whole second more.
    let second := min p.second 59
    let nanos := if p.second = 60 then p.fraction + 1000000000 else p.fraction
    let day := Calendar.dayNumber p.date - epochDay
    let seconds := day * 86400 + (p.hour * 3600 + p.minute * 60 + second : Nat) - p.offset
    match Instant.ofParts? seconds nanos with
    | some t => .ok t
    | none => .error .impossible

/-- Read an instant. -/
def readChars (cs : List Char) : Except Fault Instant :=
  readParts cs >>= Parts.instant

/-- Read an instant. -/
def read (text : String) : Except Fault Instant :=
  readChars text.toList

end GraphMapping.Stamp
