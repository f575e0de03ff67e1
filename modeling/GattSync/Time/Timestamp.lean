/-!
# Timestamps and the civil calendar

A moment in UTC to the nanosecond, and the conversion between day numbers and dates of the Gregorian
calendar. Day 0 is 1970-01-01. Years are counted in eras of 400, which all have the same number of
days, and begin in March, so that the day added in a leap year is the last one of its year.
-/

namespace GattSync

/-- A moment in UTC. Nanoseconds from `10 ^ 9` on lie in a leap second after the second given. -/
structure Timestamp where
  /-- Since 1970-01-01T00:00:00Z. -/
  seconds : Int
  nanos : Nat := 0
  deriving DecidableEq, Repr, Inhabited

/-- A date of the Gregorian calendar. -/
structure Date where
  year : Int
  /-- From 1. -/
  month : Nat
  /-- From 1. -/
  day : Nat
  deriving DecidableEq, Repr

namespace Date

def isLeapYear (year : Int) : Bool := year % 4 == 0 && (year % 100 != 0 || year % 400 == 0)

def daysInMonth (year : Int) (month : Nat) : Nat :=
  match month with
  | 2 => if isLeapYear year then 29 else 28
  | 4 | 6 | 9 | 11 => 30
  | _ => 31

/-- The date exists in the calendar. -/
def isValid (d : Date) : Bool :=
  1 ≤ d.month && d.month ≤ 12 && 1 ≤ d.day && d.day ≤ daysInMonth d.year d.month

/-- The number of the day. -/
def toDays (d : Date) : Int :=
  let year := if d.month ≤ 2 then d.year - 1 else d.year
  let era := year / 400
  let yearOfEra := year % 400
  let dayOfYear : Int := (153 * ((d.month + 9) % 12) + 2) / 5 + d.day - 1
  era * 146097 + (yearOfEra * 365 + yearOfEra / 4 - yearOfEra / 100 + dayOfYear) - 719468

/-- The date of a day. -/
def ofDays (days : Int) : Date :=
  let z := days + 719468
  let era := z / 146097
  let dayOfEra := z % 146097
  let yearOfEra :=
    (dayOfEra - dayOfEra / 1460 + dayOfEra / 36524 - dayOfEra / 146096) / 365
  let dayOfYear := dayOfEra - (365 * yearOfEra + yearOfEra / 4 - yearOfEra / 100)
  let shifted := (5 * dayOfYear + 2) / 153
  let month := if shifted < 10 then shifted + 3 else shifted - 9
  let year := yearOfEra + era * 400 + (if month ≤ 2 then 1 else 0)
  ⟨year, month.toNat, (dayOfYear - (153 * shifted + 2) / 5 + 1).toNat⟩

end Date

namespace Timestamp

def secondsPerDay : Int := 86400

/-- The moment at that second of a day. -/
def ofDate (d : Date) (secondOfDay : Nat) (nanos : Nat := 0) : Timestamp :=
  ⟨d.toDays * secondsPerDay + secondOfDay, nanos⟩

def date (t : Timestamp) : Date := Date.ofDays (t.seconds / secondsPerDay)

def secondOfDay (t : Timestamp) : Nat := (t.seconds % secondsPerDay).toNat

end Timestamp
end GattSync
