/-!
# Binary64

The bits of a binary64 number as a sign, a whole mantissa and a power of two, which is the exact
value that the decimal formats start from; decimal digits; and the exact value rounded to so many
places, with a half going to the even neighbour. The sign is that of the number, also where nothing
is left of its size.
-/

namespace GattSync
namespace Decimal

/-- What a binary64 number denotes. -/
inductive Binary64 where
  | nan
  | infinite (negative : Bool)
  /-- The number `± mantissa * 2 ^ exponent`. -/
  | finite (negative : Bool) (mantissa : Nat) (exponent : Int)
  deriving DecidableEq, Repr

namespace Binary64

/-- Reads the three fields of the interchange format. -/
def ofBits (bits : UInt64) : Binary64 :=
  let negative := bits.toNat / Nat.pow 2 63 == 1
  let biased : Nat := bits.toNat / Nat.pow 2 52 % Nat.pow 2 11
  let fraction := bits.toNat % Nat.pow 2 52
  if biased = 2047 then
    if fraction = 0 then .infinite negative else .nan
  else if biased = 0 then .finite negative fraction (-1074)
  else .finite negative (Nat.pow 2 52 + fraction) ((biased : Int) - 1075)

end Binary64

/-- The decimal digits of a number, most significant first; zero has one digit. -/
def digits (n : Nat) : List (Fin 10) :=
  if h : n < 10 then [⟨n, h⟩] else digits (n / 10) ++ [⟨n % 10, Nat.mod_lt _ (by decide)⟩]
termination_by n
decreasing_by omega

/-- The number that digits denote. -/
def ofDigits (ds : List (Fin 10)) : Nat := ds.foldl (fun n d => n * 10 + d.val) 0

/-- The character of a digit. -/
def digitChar (d : Fin 10) : Char := Char.ofNat (48 + d.val)

/-- The digit a character stands for. -/
def digit? (c : Char) : Option (Fin 10) :=
  if h : 48 ≤ c.toNat ∧ c.toNat ≤ 57 then some ⟨c.toNat - 48, by omega⟩ else none

/-- The digits at the front of a text, at most `limit` of them, and the rest. -/
def takeDigits : (limit : Nat) → List Char → List (Fin 10) × List Char
  | 0, s => ([], s)
  | _ + 1, [] => ([], [])
  | limit + 1, c :: s =>
    match digit? c with
    | some d => ((takeDigits limit s).map (d :: ·) id)
    | none => ([], c :: s)

/-- All the digits at the front of a text, and the rest. -/
def takeAllDigits (s : List Char) : List (Fin 10) × List Char := takeDigits s.length s

/-- The quotient rounded to the nearest whole number, a half to the even neighbour. -/
def roundHalfEven (num den : Nat) : Nat :=
  let q := num / den
  let twice := 2 * (num % den)
  if twice < den then q else if den < twice then q + 1 else if q % 2 = 0 then q else q + 1

/-! ## A fixed number of places -/

namespace Fixed

/-- The size `mantissa * 2 ^ exponent` in units of the last place. -/
def units (places mantissa : Nat) (exponent : Int) : Nat :=
  match exponent with
  | .ofNat e => mantissa * Nat.pow 2 e * Nat.pow 10 places
  | .negSucc e => roundHalfEven (mantissa * Nat.pow 10 places) (Nat.pow 2 (e + 1))

/-- A number of units as whole part, point and exactly `places` digits. -/
def unitsText (places n : Nat) : List Char :=
  let fraction := (digits (n % Nat.pow 10 places)).map digitChar
  (digits (n / Nat.pow 10 places)).map digitChar ++
    '.' :: List.replicate (places - fraction.length) '0' ++ fraction

/-- The text of a binary64 number with so many places. -/
def text (places : Nat) : Binary64 → List Char
  | .nan => "NaN".toList
  | .infinite negative => (if negative then ['-'] else []) ++ "inf".toList
  | .finite negative m e => (if negative then ['-'] else []) ++ unitsText places (units places m e)

end Fixed
end Decimal

/-- A reading is reported with six places. -/
def readingPlaces : Nat := 6

/-- A converted reading as it is reported. -/
def formatReading (value : Float) : String :=
  String.ofList (Decimal.Fixed.text readingPlaces (Decimal.Binary64.ofBits value.toBits))

end GattSync
