import GattSync.Decimal.Binary64

/-!
# The fewest digits that read back

Each positive binary64 number is the nearest one to every real in an interval around it, ends
included exactly when its mantissa is even. For one digit, two digits and so on, the two neighbours
of the number on that decimal grid are tested against the interval; the first grid with a hit gives
the digits, the nearer of two hits wins, and the even one where both are equally near. Seventeen
digits always suffice.

All comparisons are between whole numbers, over a common denominator.
-/

namespace GattSync.Decimal

/-- The decimal `coefficient * 10 ^ exponent`. -/
structure Scientific where
  coefficient : Nat
  exponent : Int
  deriving DecidableEq, Repr

namespace Shortest

/-- A positive number and the interval that rounds to it, as fractions over `den`. -/
structure Interval where
  value : Nat
  lower : Nat
  upper : Nat
  den : Nat
  closed : Bool
  deriving DecidableEq, Repr

/-- The interval of `mantissa * 2 ^ exponent`, in quarters of the last binary place. Below a power
of two the next number is half as far away. -/
def Interval.ofBinary (mantissa : Nat) (exponent : Int) : Interval :=
  let narrow := mantissa = Nat.pow 2 52 ∧ exponent ≠ -1074
  let scale := Nat.pow 2 exponent.toNat
  { value := 4 * mantissa * scale
    lower := (4 * mantissa - (if narrow then 1 else 2)) * scale
    upper := (4 * mantissa + 2) * scale
    den := 4 * Nat.pow 2 (-exponent).toNat
    closed := mantissa % 2 = 0 }

/-- The same interval counted in units of `10 ^ exponent`. -/
def Interval.inUnits (i : Interval) (exponent : Int) : Interval :=
  let up := Nat.pow 10 (-exponent).toNat
  { i with
    value := i.value * up, lower := i.lower * up, upper := i.upper * up
    den := i.den * Nat.pow 10 exponent.toNat }

/-- The whole number `n` lies in the interval. -/
def Interval.contains (i : Interval) (n : Nat) : Bool :=
  if i.closed then i.lower ≤ n * i.den && n * i.den ≤ i.upper
  else i.lower < n * i.den && n * i.den < i.upper

/-- The better of the two whole numbers next to the value, if one lies in the interval. -/
def Interval.neighbour? (i : Interval) : Option Nat :=
  let below := i.value / i.den
  match i.contains below, i.contains (below + 1) with
  | true, true => some (roundHalfEven i.value i.den)
  | true, false => some below
  | false, true => some (below + 1)
  | false, false => none

/-- The decimal exponent of the value: the largest `e` with `10 ^ e ≤ value`. -/
def Interval.magnitude (i : Interval) : Int :=
  if i.den ≤ i.value then ((digits (i.value / i.den)).length : Int) - 1
  else
    let size := (digits (i.den / i.value)).length
    if i.value * Nat.pow 10 (size - 1) < i.den then -(size : Int) else 1 - (size : Int)

/-- The shortest hit among grids of `count` digits, `count + 1` digits and so on. -/
def search (i : Interval) (magnitude : Int) : (grids count : Nat) → Option Scientific
  | 0, _ => none
  | grids + 1, count =>
    let exponent := magnitude + 1 - count
    match (i.inUnits exponent).neighbour? with
    | some n => some ⟨n, exponent⟩
    | none => search i magnitude grids (count + 1)

/-- The digits of `n` with the zeros at its end moved into the exponent. -/
def strip (n : Nat) (exponent : Int) : Scientific :=
  if h : n ≠ 0 ∧ n % 10 = 0 then strip (n / 10) (exponent + 1) else ⟨n, exponent⟩
termination_by n
decreasing_by omega

end Shortest

open Shortest in
/-- The shortest decimal that reads back as `mantissa * 2 ^ exponent`. -/
def shortest (mantissa : Nat) (exponent : Int) : Scientific :=
  if mantissa = 0 then ⟨0, 0⟩ else
  let i := Interval.ofBinary mantissa exponent
  match search i i.magnitude 17 1 with
  | some s => strip s.coefficient s.exponent
  | none => ⟨0, 0⟩

end GattSync.Decimal
