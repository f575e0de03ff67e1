import GattSync.Time.Duration

/-!
# The ticker of the resync loop

A ticker is due every period, counted from the deadline before when it is served in time, and from
the moment it is served when that is too late. So cycles that take long are not made up for.

Moments are durations since the clock began. The clock counts seconds in a signed 64-bit number, and
a moment beyond them does not exist.
-/

namespace GattSync

/-- A recurring deadline. -/
structure Ticker where
  period : Duration
  deadline : Duration
  deriving DecidableEq, Repr

namespace Ticker

/-- The seconds that the clock can count. -/
def clockRange : Nat := Nat.pow 2 63

/-- How late a tick may be served and still count as in time. -/
def tolerance : Duration := .ofMillis 5

/-- A ticker whose first deadline is a period from now, if the clock has that moment. -/
def start? (now period : Duration) : Option Ticker :=
  if (now + period).seconds < clockRange then some ⟨period, now + period⟩ else none

/-- The ticker after a tick that is served now. -/
def next (t : Ticker) (now : Duration) : Ticker :=
  if now ≤ t.deadline + tolerance then { t with deadline := t.deadline + t.period }
  else { t with deadline := now + t.period }

theorem start?_eq_none_iff {now period : Duration} :
    start? now period = none ↔ clockRange ≤ (now + period).seconds := by
  simp [start?]

@[simp] theorem period_next (t : Ticker) (now : Duration) : (t.next now).period = t.period := by
  simp only [next]
  split <;> rfl

end Ticker
end GattSync
