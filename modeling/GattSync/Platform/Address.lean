import GattSync.Uuid

/-!
# Hardware addresses

A hardware address has six octets. Its text has two digits for each in upper case, with colons
between them.
-/

namespace GattSync.Platform

/-- A hardware address, as the number its twelve hexadecimal digits denote. -/
structure Address where
  bits : BitVec 48
  deriving DecidableEq, Repr, Inhabited

namespace Address

/-- The address given for a peripheral about which nothing is known. -/
def zero : Address := ⟨0⟩

/-- Pairs of digits with colons between them. -/
def pairs : List Char → List Char
  | a :: b :: c :: rest => a :: b :: ':' :: pairs (c :: rest)
  | cs => cs

def text (a : Address) : String :=
  String.ofList (pairs ((Text.Payload.hex 12 a.bits.toNat).map Char.toUpper))

/-- The digits of pairs with colons between them. -/
def unpaired? : List Char → Option (List Char)
  | [a, b] => some [a, b]
  | a :: b :: ':' :: rest => (unpaired? rest).map fun cs => a :: b :: cs
  | _ => none

/-- The address that a text denotes, its digits in any letter case. -/
def ofText? (s : String) : Option Address := do
  let digits ← unpaired? s.toList
  let n ← if digits.length = 12 then Uuid.hexNumber? digits else none
  return ⟨BitVec.ofNat 48 n⟩

end Address
end GattSync.Platform
