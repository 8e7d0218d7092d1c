import VmNode.Text.Blank
import VmNode.Text.Decimal

/-!
# Points in time

A point in time counts the seconds of the Unix epoch, with nanoseconds. It is
read from a date and time of day with an offset, in the form of RFC 3339 with
blanks allowed between its parts, and written in universal time with as many
thousands of the second as it needs.
-/

namespace VmNode

/-- A point in time. In a leap second the nanoseconds run on past a billion. -/
structure Timestamp where
  /-- Seconds of the Unix epoch. -/
  seconds : Int
  /-- Nanoseconds of the second. -/
  nanos : Nat
  deriving DecidableEq, Inhabited

namespace Timestamp

/-- The point in time of a count of milliseconds. -/
def ofMillis (ms : Nat) : Timestamp := ⟨ms / 1000, ms % 1000 * 1000000⟩

instance : Ord Timestamp := ⟨fun a b => (compare a.seconds b.seconds).then (compare a.nanos b.nanos)⟩

/-! ### The calendar -/

/-- Whether February has 29 days. -/
def isLeapYear (y : Int) : Bool := (y % 4 == 0 && y % 100 != 0) || y % 400 == 0

/-- The number of days of a month. -/
def daysInMonth (y : Int) (m : Nat) : Nat :=
  match m with
  | 2 => if isLeapYear y then 29 else 28
  | 4 | 6 | 9 | 11 => 30
  | _ => 31

/-- The days from the epoch to a date, years counted from March. -/
def daysOfDate (year : Int) (month day : Nat) : Int :=
  let y := if month ≤ 2 then year - 1 else year
  let era := y.fdiv 400
  let yearOfEra := y - era * 400
  let dayOfYear : Int := (153 * ((month + 9) % 12) + 2) / 5 + day - 1
  let dayOfEra := yearOfEra * 365 + yearOfEra / 4 - yearOfEra / 100 + dayOfYear
  era * 146097 + dayOfEra - 719468

/-- The date of a count of days from the epoch. -/
def dateOfDays (days : Int) : Int × Nat × Nat :=
  let z := days + 719468
  let era := z.fdiv 146097
  let dayOfEra := (z - era * 146097).toNat
  let yearOfEra := (dayOfEra - dayOfEra / 1460 + dayOfEra / 36524 - dayOfEra / 146096) / 365
  let dayOfYear := dayOfEra - (365 * yearOfEra + yearOfEra / 4 - yearOfEra / 100)
  let shifted := (5 * dayOfYear + 2) / 153
  let day := dayOfYear - (153 * shifted + 2) / 5 + 1
  let month := if shifted < 10 then shifted + 3 else shifted - 9
  let year := (yearOfEra : Int) + era * 400
  (if month ≤ 2 then year + 1 else year, month, day)

/-! ### The range -/

/-- The first year of the calendar. -/
def firstYear : Int := -262143

/-- The last year of the calendar. -/
def lastYear : Int := 262142

/-- Whether a point in time lies in a year of the calendar, in universal time. -/
def isInRange (t : Timestamp) : Bool :=
  daysOfDate firstYear 1 1 * 86400 ≤ t.seconds &&
    t.seconds < daysOfDate (lastYear + 1) 1 1 * 86400

/-! ### Writing -/

/-- A number with at least `width` digits. -/
def padded (width n : Nat) : String :=
  let ds := Text.Decimal.digits n
  String.ofList (List.replicate (width - ds.length) '0' ++ ds)

/-- The nanoseconds as a fraction of none, three, six or nine digits. -/
def fractionText (nanos : Nat) : String :=
  if nanos = 0 then ""
  else if nanos % 1000000 = 0 then "." ++ padded 3 (nanos / 1000000)
  else if nanos % 1000 = 0 then "." ++ padded 6 (nanos / 1000)
  else "." ++ padded 9 nanos

/-- Date and time of day in universal time. -/
def civilText (t : Timestamp) : String :=
  let (year, month, day) := dateOfDays (t.seconds.fdiv 86400)
  let second := (t.seconds.fmod 86400).toNat
  let leap := t.nanos / 1000000000
  let yearText :=
    if 0 ≤ year ∧ year ≤ 9999 then padded 4 year.toNat
    else (if year < 0 then "-" else "+") ++ padded 4 year.natAbs
  yearText ++ "-" ++ padded 2 month ++ "-" ++ padded 2 day ++ "T" ++
    padded 2 (second / 3600) ++ ":" ++ padded 2 (second / 60 % 60) ++ ":" ++
    padded 2 (second % 60 + leap) ++ fractionText (t.nanos % 1000000000)

/-- The text with the letter for universal time. -/
def text (t : Timestamp) : String := t.civilText ++ "Z"

/-- The text with the offset of universal time. -/
def offsetText (t : Timestamp) : String := t.civilText ++ "+00:00"

/-! ### Reading -/

/-- What stands after blanks. -/
def skipBlanks (s : List Char) : List Char := s.dropWhile Text.isBlank

/-- A number of one to `width` digits after blanks. -/
def scanDigits (width : Nat) (s : List Char) : Option (Nat × List Char) :=
  let s := skipBlanks s
  let ds := (s.take width).takeWhile Char.isDigit
  (Text.Decimal.ofDigits? ds).map fun n => (n, s.drop ds.length)

/-- A year of up to four digits, or of any number of digits after a sign. -/
def scanYear (s : List Char) : Option (Int × List Char) :=
  match skipBlanks s with
  | '-' :: r =>
    let ds := r.takeWhile Char.isDigit
    (Text.Decimal.ofDigits? ds).map fun n => (-(n : Int), r.drop ds.length)
  | '+' :: r =>
    let ds := r.takeWhile Char.isDigit
    (Text.Decimal.ofDigits? ds).map fun n => ((n : Int), r.drop ds.length)
  | s => (scanDigits 4 s).map fun (n, r) => ((n : Int), r)

/-- A given character after blanks. -/
def scanMark (c : Char) (s : List Char) : Option (List Char) :=
  match skipBlanks s with
  | d :: r => if d = c then some r else none
  | [] => none

/-- A fraction of the second in nanoseconds, with digits past the ninth left out. -/
def scanFraction : List Char → Option (Nat × List Char)
  | '.' :: s =>
    let all := s.takeWhile Char.isDigit
    let ds := all.take 9
    (Text.Decimal.ofDigits? ds).map fun n => (n * Nat.pow 10 (9 - ds.length), s.drop all.length)
  | s => some (0, s)

/-- An offset from universal time in seconds. -/
def scanOffset (s : List Char) : Option (Int × List Char) :=
  match s with
  | 'Z' :: r | 'z' :: r => some (0, r)
  | sign :: h :: h' :: r => do
    let negative ← if sign = '+' then some false
      else if sign = '-' ∨ sign = '−' then some true else none
    let hours ← Text.Decimal.ofDigits? [h, h']
    match r.dropWhile fun c => c == ':' || Text.isBlank c with
    | m :: m' :: r =>
      let minutes ← Text.Decimal.ofDigits? [m, m']
      if minutes < 60 then
        let n : Int := hours * 3600 + minutes * 60
        some (if negative then -n else n, r)
      else none
    | _ => none
  | _ => none

/-- The zone after the time of day. -/
def scanZone (s : List Char) : Option (Int × List Char) :=
  match s with
  | u :: t :: c :: r =>
    if u.toUpper = 'U' ∧ t.toUpper = 'T' ∧ c.toUpper = 'C' then some (0, r) else scanOffset s
  | _ => scanOffset s

/-- The point in time that a text spells, if it lies in the calendar both by the
    date that is written and by the date in universal time. -/
def ofText? (text : String) : Option Timestamp := do
  let (year, s) ← scanYear text.toList
  let (month, s) ← scanDigits 2 (← scanMark '-' s)
  let (day, s) ← scanDigits 2 (← scanMark '-' s)
  let s ← match s with
    | c :: r => if c = 't' ∨ c = 'T' ∨ c = ' ' then some r else none
    | [] => none
  let (hour, s) ← scanDigits 2 s
  let (minute, s) ← scanDigits 2 (← scanMark ':' s)
  let (second, s) ← scanDigits 2 (← scanMark ':' s)
  let (nanos, s) ← scanFraction s
  let (offset, s) ← scanZone (skipBlanks s)
  if (skipBlanks s).isEmpty ∧ 1 ≤ month ∧ month ≤ 12 ∧ 1 ≤ day ∧ day ≤ daysInMonth year month ∧
      hour < 24 ∧ minute < 60 ∧ second ≤ 60 ∧ offset.natAbs < 86400 ∧
      firstYear ≤ year ∧ year ≤ lastYear then
    let leap := second / 60
    let clock : Int := hour * 3600 + minute * 60 + (second - leap)
    let t : Timestamp :=
      ⟨daysOfDate year month day * 86400 + clock - offset, nanos + leap * 1000000000⟩
    -- the offset can carry a date of the calendar out of it
    if t.isInRange then some t else none
  else none

end Timestamp

end VmNode
