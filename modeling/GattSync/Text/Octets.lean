/-!
# Octets as text

A string of octets is cut into the characters whose UTF-8 forms it holds and the octets that
belong to none. Unicode's table of well-formed sequences is written out as one test per length;
the shortest form and the surrogate gap are part of it.

An octet that starts no well-formed sequence stands alone. What follows it is looked at afresh:
the rest of a cut-off sequence consists of octets that start no sequence either, so each of them
stands alone too.
-/

namespace GattSync

/-- A string of octets. -/
abbrev Bytes := List UInt8

namespace Text

/-- One element of a string of octets: a character, or an octet outside of all characters. -/
inductive Piece where
  | char (c : Char)
  | octet (b : UInt8)
  deriving DecidableEq, Repr

namespace Octets

/-- An octet that can stand anywhere after the second place. -/
def isTail (b : UInt8) : Bool := 0x80 ≤ b && b ≤ 0xbf

/-- The two octets are a well-formed sequence. -/
def isPair (a b : UInt8) : Bool := 0xc2 ≤ a && a ≤ 0xdf && isTail b

/-- The three octets are a well-formed sequence: no longer than needed, and no surrogate. -/
def isTriple (a b c : UInt8) : Bool :=
  isTail c &&
    (a == 0xe0 && 0xa0 ≤ b && b ≤ 0xbf ||
     0xe1 ≤ a && a ≤ 0xec && isTail b ||
     a == 0xed && 0x80 ≤ b && b ≤ 0x9f ||
     0xee ≤ a && a ≤ 0xef && isTail b)

/-- The four octets are a well-formed sequence: no longer than needed, and within Unicode. -/
def isQuad (a b c d : UInt8) : Bool :=
  isTail c && isTail d &&
    (a == 0xf0 && 0x90 ≤ b && b ≤ 0xbf ||
     0xf1 ≤ a && a ≤ 0xf3 && isTail b ||
     a == 0xf4 && 0x80 ≤ b && b ≤ 0x8f)

/-- The six low bits, the payload of every octet but the first. -/
def low (b : UInt8) : Nat := b.toNat % 64

/-- The character of a two-octet sequence. -/
def pair (a b : UInt8) : Char := Char.ofNat (a.toNat % 32 * 64 + low b)

/-- The character of a three-octet sequence. -/
def triple (a b c : UInt8) : Char := Char.ofNat ((a.toNat % 16 * 64 + low b) * 64 + low c)

/-- The character of a four-octet sequence. -/
def quad (a b c d : UInt8) : Char :=
  Char.ofNat (((a.toNat % 8 * 64 + low b) * 64 + low c) * 64 + low d)

end Octets

open Octets in
/-- The characters and the stray octets of a string of octets, in order. -/
def pieces : Bytes → List Piece
  | [] => []
  | a :: l =>
    if a < 0x80 then .char (Char.ofNat a.toNat) :: pieces l else
    match l with
    | [] => [.octet a]
    | b :: m =>
      if isPair a b then .char (pair a b) :: pieces m else
      match m with
      | [] => .octet a :: pieces [b]
      | c :: n =>
        if isTriple a b c then .char (triple a b c) :: pieces n else
        match n with
        | [] => .octet a :: pieces [b, c]
        | d :: o =>
          if isQuad a b c d then .char (quad a b c d) :: pieces o
          else .octet a :: pieces (b :: c :: d :: o)

end Text
end GattSync
