import GattSync.Decimal.Shortest

/-!
# JSON numerals

A numeral keeps the digits of a number as they were written. What it counts for is decided where it
is used: as a whole number of a certain width, for which it must be written without point and
exponent, or as a binary64 number.

A binary64 number is read from the leading digits that fit in 64 bits. They are rounded to binary64
and then multiplied or divided by a power of ten, which rounds again; a number that overflows is
refused.
-/

namespace GattSync.Json

open GattSync.Decimal

/-- The part of a numeral after its `e`. -/
structure Exponent where
  /-- The sign, if one is written. -/
  sign : Option Char
  digits : List (Fin 10)
  deriving DecidableEq, Repr

/-- A number as it is written. -/
structure Numeral where
  negative : Bool := false
  whole : List (Fin 10)
  /-- Digits after the point; none without a point. -/
  fraction : List (Fin 10) := []
  exponent : Option Exponent := none
  deriving DecidableEq, Repr

namespace Numeral

/-! ## Text -/

def render (n : Numeral) : List Char :=
  (if n.negative then ['-'] else []) ++ n.whole.map digitChar ++
    (if n.fraction = [] then [] else '.' :: n.fraction.map digitChar) ++
    match n.exponent with
    | none => []
    | some e => 'e' :: e.sign.toList ++ e.digits.map digitChar

/-- A single digit, or several that do not begin with a zero. -/
def isWhole : List (Fin 10) → Bool
  | [] => false
  | [_] => true
  | d :: _ => d != 0

/-- The exponent that makes up the whole text. -/
def exponentOfChars? (s : List Char) : Option Exponent :=
  let (sign, s) : Option Char × List Char := match s with
    | '+' :: s => (some '+', s)
    | '-' :: s => (some '-', s)
    | s => (none, s)
  match takeAllDigits s with
  | ([], _) => none
  | (ds, []) => some ⟨sign, ds⟩
  | (_, _ :: _) => none

/-- The numeral that makes up the whole text, by the grammar of RFC 8259. -/
def ofChars? (s : List Char) : Option Numeral := do
  let (negative, s) : Bool × List Char := match s with
    | '-' :: s => (true, s)
    | s => (false, s)
  let (whole, s) := takeAllDigits s
  guard (isWhole whole)
  let (fraction, s) ← match s with
    | '.' :: s => match takeAllDigits s with
      | ([], _) => none
      | r => some r
    | s => some ([], s)
  match s with
  | [] => some { negative, whole, fraction }
  | c :: s =>
    guard (c = 'e' ∨ c = 'E')
    let e ← exponentOfChars? s
    some { negative, whole, fraction, exponent := some e }

/-! ## Value -/

def ofNat (n : Nat) : Numeral := { whole := digits n }

/-- The whole number written, if it is below the limit. A minus sign, a point and an exponent are
refused, whatever the number is. -/
def toNat? (limit : Nat) (n : Numeral) : Option Nat :=
  if n.negative || n.fraction != [] || n.exponent.isSome then none
  else if ofDigits n.whole < limit then some (ofDigits n.whole) else none

/-- Takes digits into a significand as long as it stays below `2 ^ 64`. -/
def significand (acc : Nat) : List (Fin 10) → Nat × List (Fin 10)
  | [] => (acc, [])
  | d :: ds =>
    if acc * 10 + d.val < Nat.pow 2 64 then significand (acc * 10 + d.val) ds else (acc, d :: ds)

def powerOfTen (n : Nat) : Float := Float.ofScientific 1 false n

/-- The largest power of ten that binary64 has. -/
def largestPower : Nat := 308

/-- Divides by a power of ten, in several steps where it is too large for one. -/
def divideByPower (x : Float) (n : Nat) : Float :=
  if n ≤ largestPower then x / powerOfTen n
  else if x == 0.0 then x
  else divideByPower (x / powerOfTen largestPower) (n - largestPower)
termination_by n
decreasing_by simp only [largestPower] at *; omega

/-- The number `significand * 10 ^ exponent`, unless it overflows. -/
def scale? (significand : Nat) (exponent : Int) : Option Float :=
  let x := significand.toUInt64.toFloat
  if exponent < 0 then some (divideByPower x exponent.natAbs)
  else if exponent.natAbs ≤ largestPower then
    let y := x * powerOfTen exponent.natAbs
    if y.isInf then none else some y
  else if significand = 0 then some x else none

/-- The binary64 number that a numeral gives. -/
def toFloat? (n : Numeral) : Option Float :=
  let (s, beyond) := significand 0 n.whole
  let (t, unread) := significand s n.fraction
  let shift : Int := beyond.length - (n.fraction.length - unread.length : Int)
  let written : Int := match n.exponent with
    | none => 0
    | some e => if e.sign = some '-' then -(ofDigits e.digits : Int) else ofDigits e.digits
  (scale? t (shift + written)).map fun x => if n.negative then -x else x

/-- Where shortest decimals are written without an exponent: from `10 ^ -5` to below `10 ^ 16`. -/
def isPositional (magnitude : Int) : Bool := -5 ≤ magnitude && magnitude < 16

/-- A positive decimal of the given sign: positional with at least one decimal, or one digit before
the point and a signed exponent. -/
def ofScientific (negative : Bool) (s : Scientific) : Numeral :=
  let ds := digits s.coefficient
  let magnitude := s.exponent + ds.length - 1
  if isPositional magnitude then
    if 0 ≤ s.exponent then
      { negative, whole := ds ++ List.replicate s.exponent.toNat 0, fraction := [0] }
    else if 0 ≤ magnitude then
      { negative, whole := ds.take (magnitude.toNat + 1)
        fraction := ds.drop (magnitude.toNat + 1) }
    else { negative, whole := [0], fraction := List.replicate (magnitude.natAbs - 1) 0 ++ ds }
  else
    { negative, whole := ds.take 1, fraction := ds.drop 1
      exponent := some ⟨some (if magnitude < 0 then '-' else '+'), digits magnitude.natAbs⟩ }

/-- The shortest numeral that reads back; none for what is no number. -/
def ofFloat? (x : Float) : Option Numeral :=
  match Binary64.ofBits x.toBits with
  | .finite negative m e => some (ofScientific negative (shortest m e))
  | _ => none

end Numeral
end GattSync.Json
