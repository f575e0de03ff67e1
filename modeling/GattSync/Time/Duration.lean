import GattSync.Decimal.Binary64

/-!
# Durations

A length of time in whole nanoseconds, and its text: the largest of the units s, ms, µs and ns that
it fills at least once, with as many decimals as it takes to be exact. Nothing waits longer than 30
years: a wait for more than that ends then (`capped`).
-/

namespace GattSync

/-- A length of time. -/
structure Duration where
  nanos : Nat
  deriving DecidableEq, Repr, Inhabited

namespace Duration

def zero : Duration := ⟨0⟩

def ofSeconds (n : Nat) : Duration := ⟨n * 1000000000⟩

def ofMillis (n : Nat) : Duration := ⟨n * 1000000⟩

/-- Seconds and nanoseconds together. There is no duration of `2 ^ 64` seconds or more. -/
def ofParts? (seconds nanos : Nat) : Option Duration :=
  if seconds + nanos / 1000000000 < Nat.pow 2 64 then some ⟨seconds * 1000000000 + nanos⟩ else none

/-- Whole seconds; what is left of a second is dropped. -/
def seconds (d : Duration) : Nat := d.nanos / 1000000000

/-- Whole milliseconds; what is left of a millisecond is dropped. -/
def millis (d : Duration) : Nat := d.nanos / 1000000

def isZero (d : Duration) : Bool := d.nanos == 0

instance : Add Duration := ⟨fun a b => ⟨a.nanos + b.nanos⟩⟩

instance : LE Duration := ⟨fun a b => a.nanos ≤ b.nanos⟩

instance : LT Duration := ⟨fun a b => a.nanos < b.nanos⟩

theorem le_iff {a b : Duration} : a ≤ b ↔ a.nanos ≤ b.nanos := Iff.rfl

theorem lt_iff {a b : Duration} : a < b ↔ a.nanos < b.nanos := Iff.rfl

@[simp] theorem nanos_add (a b : Duration) : (a + b).nanos = a.nanos + b.nanos := rfl

instance (a b : Duration) : Decidable (a ≤ b) := inferInstanceAs (Decidable (a.nanos ≤ b.nanos))

instance (a b : Duration) : Decidable (a < b) := inferInstanceAs (Decidable (a.nanos < b.nanos))

/-- The longest wait: 30 years of 365 days. -/
def longestWait : Duration := ofSeconds (30 * 365 * 86400)

/-- How long a wait for this time takes. The timer library documents the 30 years only as what it
falls back on when the end of a wait is beyond the clock. Measured, every longer wait ends after
them, also one that the clock could count, and so it does here. -/
def capped (d : Duration) : Duration := if d ≤ longestWait then d else longestWait

/-- `n` units of `10 ^ places` parts each, with no more decimals than are needed. -/
def inUnits (n places : Nat) : List Char :=
  let whole := (Decimal.digits (n / Nat.pow 10 places)).map Decimal.digitChar
  let fraction := n % Nat.pow 10 places
  if fraction = 0 then whole else
  let written := (Decimal.digits fraction).map Decimal.digitChar
  let padded := List.replicate (places - written.length) '0' ++ written
  whole ++ '.' :: (padded.reverse.dropWhile (· == '0')).reverse

/-- The text of a duration, such as `1.5s`, `250ms` or `0ns`. -/
def text (d : Duration) : String :=
  String.ofList <|
    if 1000000000 ≤ d.nanos then inUnits d.nanos 9 ++ ['s']
    else if 1000000 ≤ d.nanos then inUnits d.nanos 6 ++ ['m', 's']
    else if 1000 ≤ d.nanos then inUnits d.nanos 3 ++ ['µ', 's']
    else inUnits d.nanos 0 ++ ['n', 's']

end Duration
end GattSync
