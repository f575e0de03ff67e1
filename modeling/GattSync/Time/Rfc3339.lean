import GattSync.Time.Timestamp
import GattSync.Decimal.Binary64
import GattSync.Text.Character

/-!
# Timestamps as text

Moments are written by RFC 3339 in UTC, with 0, 3, 6 or 9 decimals of a second, whichever is the
first to be exact. Years outside of 0 to 9999 have a sign and at least four digits.

Reading is more lenient: blanks may stand before a number and before a mark, numbers may have fewer
digits than they should, a small letter or a blank may separate date and time, and the offset may
have any number of colons and blanks in its middle, or be `UTC`.
-/

namespace GattSync.Rfc3339

/-! ## Writing -/

/-- A number with at least `width` digits. -/
def padded (width n : Nat) : List Char :=
  let written := (Decimal.digits n).map Decimal.digitChar
  List.replicate (width - written.length) '0' ++ written

def yearText (year : Int) : List Char :=
  if 0 ≤ year ∧ year ≤ 9999 then padded 4 year.toNat
  else (if year < 0 then '-' else '+') :: padded 4 year.natAbs

/-- The decimals of a second, as few groups of three as are exact. -/
def fractionText (nanos : Nat) : List Char :=
  if nanos = 0 then []
  else if nanos % 1000000 = 0 then '.' :: padded 3 (nanos / 1000000)
  else if nanos % 1000 = 0 then '.' :: padded 6 (nanos / 1000)
  else '.' :: padded 9 nanos

/-- A moment in UTC. A leap second is the sixtieth of its minute. -/
def write (t : Timestamp) : String :=
  let d := t.date
  let s := t.secondOfDay
  let leap := t.nanos / 1000000000
  String.ofList <|
    yearText d.year ++ '-' :: padded 2 d.month ++ '-' :: padded 2 d.day ++
      'T' :: padded 2 (s / 3600) ++ ':' :: padded 2 (s / 60 % 60) ++
      ':' :: padded 2 (s % 60 + leap) ++ fractionText (t.nanos % 1000000000) ++ ['Z']

/-! ## Reading -/

/-- A number of one to `limit` digits, after any blanks. -/
def number? (limit : Nat) (s : List Char) : Option (Nat × List Char) :=
  match Decimal.takeDigits limit (Text.trimStart s) with
  | ([], _) => none
  | (ds, rest) => some (Decimal.ofDigits ds, rest)

/-- A year of one to four digits, or of any number of digits after a sign. -/
def year? (s : List Char) : Option (Int × List Char) :=
  match Text.trimStart s with
  | '-' :: rest =>
    match Decimal.takeAllDigits rest with
    | ([], _) => none
    | (ds, rest) => some (-(Decimal.ofDigits ds : Int), rest)
  | '+' :: rest =>
    match Decimal.takeAllDigits rest with
    | ([], _) => none
    | (ds, rest) => some (Decimal.ofDigits ds, rest)
  | rest => (number? 4 rest).map fun (n, rest) => (n, rest)

/-- The rest after a mark, which may have blanks before it. -/
def mark? (c : Char) (s : List Char) : Option (List Char) :=
  match Text.trimStart s with
  | d :: rest => if d = c then some rest else none
  | [] => none

/-- Nanoseconds after a point. Digits beyond the ninth are dropped. -/
def fraction? : List Char → Option (Nat × List Char)
  | '.' :: s =>
    match Decimal.takeDigits 9 s with
    | ([], _) => none
    | (ds, rest) =>
      some (Decimal.ofDigits ds * Nat.pow 10 (9 - ds.length), (Decimal.takeAllDigits rest).2)
  | s => some (0, s)

/-- Two digits, the first of them at most `most`. -/
def twoDigits? (most : Nat) : List Char → Option (Nat × List Char)
  | a :: b :: rest => do
    let a ← Decimal.digit? a
    let b ← Decimal.digit? b
    if a.val ≤ most then some (a.val * 10 + b.val, rest) else none
  | _ => none

/-- Hours and minutes, with colons and blanks between them, in seconds. -/
def hoursMinutes? (s : List Char) : Option (Nat × List Char) := do
  let (hours, s) ← twoDigits? 9 s
  let (minutes, s) ← twoDigits? 5 (s.dropWhile fun c => c = ':' || Text.isBlank c)
  some (hours * 3600 + minutes * 60, s)

/-- The offset from UTC in seconds. -/
def offset? (s : List Char) : Option (Int × List Char) :=
  match Text.trimStart s with
  | 'Z' :: rest => some (0, rest)
  | 'z' :: rest => some (0, rest)
  | '+' :: rest => (hoursMinutes? rest).map fun (n, rest) => (n, rest)
  | '-' :: rest => (hoursMinutes? rest).map fun (n, rest) => (-(n : Int), rest)
  | '−' :: rest => (hoursMinutes? rest).map fun (n, rest) => (-(n : Int), rest)
  | u :: t :: c :: rest =>
    if u.toUpper = 'U' ∧ t.toUpper = 'T' ∧ c.toUpper = 'C' then some (0, rest) else none
  | _ => none

/-- The first and the last day that a moment in UTC can have. -/
def firstDay : Int := Date.toDays ⟨-262143, 1, 1⟩

def lastDay : Int := Date.toDays ⟨262142, 12, 31⟩

/-- The moment a text gives. -/
def read? (text : String) : Option Timestamp := do
  let (year, s) ← year? text.toList
  let (month, s) ← number? 2 (← mark? '-' s)
  let (day, s) ← number? 2 (← mark? '-' s)
  let separator :: s := s | none
  guard (separator = 'T' ∨ separator = 't' ∨ separator = ' ')
  let (hour, s) ← number? 2 s
  let (minute, s) ← number? 2 (← mark? ':' s)
  let (second, s) ← number? 2 (← mark? ':' s)
  let (nanos, s) ← fraction? s
  let (offset, s) ← offset? s
  guard (Text.trimStart s = [])
  let date : Date := ⟨year, month, day⟩
  guard (date.isValid && hour ≤ 23 && minute ≤ 59 && second ≤ 60 && offset.natAbs < 86400)
  guard (firstDay ≤ date.toDays && date.toDays ≤ lastDay)
  let leap := second / 60
  let civil := Timestamp.ofDate date (hour * 3600 + minute * 60 + (second - leap))
  let moment : Timestamp := ⟨civil.seconds - offset, nanos + leap * 1000000000⟩
  guard (firstDay ≤ moment.seconds / Timestamp.secondsPerDay &&
    moment.seconds / Timestamp.secondsPerDay ≤ lastDay)
  some moment

end GattSync.Rfc3339
