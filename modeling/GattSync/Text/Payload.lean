import GattSync.Text.Octets

/-!
# Payloads as text

A notified payload is reported as a quoted text. Its characters stand for themselves, except that
quote, backslash and the control characters are escaped; octets that are not part of any character
are written in hexadecimal. The quoting loses nothing: `\x` escapes below 80 are characters, from
80 on they are stray octets, and `\u` escapes are the control characters above 7f.
-/

namespace GattSync.Text.Payload

/-- The digit of a number below sixteen, in lower case. -/
def hexDigit (n : Nat) : Char := if n < 10 then Char.ofNat (48 + n) else Char.ofNat (87 + n)

/-- The lowest `width` hexadecimal digits of a number, most significant first. -/
def hex : (width : Nat) → Nat → List Char
  | 0, _ => []
  | width + 1, n => hex width (n / 16) ++ [hexDigit (n % 16)]

/-- A control character: C0, delete, or C1. -/
def isControl (c : Char) : Bool := c.toNat < 0x20 || (0x7f ≤ c.toNat && c.toNat ≤ 0x9f)

/-- The letter of the characters with an escape of their own. -/
def letter? (c : Char) : Option Char :=
  match c.toNat with
  | 0x22 => some '"'
  | 0x5c => some '\\'
  | 0x07 => some 'a'
  | 0x08 => some 'b'
  | 0x0c => some 'f'
  | 0x0a => some 'n'
  | 0x0d => some 'r'
  | 0x09 => some 't'
  | 0x0b => some 'v'
  | _ => none

/-- How a character is written. -/
def escapeChar (c : Char) : List Char :=
  match letter? c with
  | some l => ['\\', l]
  | none =>
    if isControl c then
      if c.toNat < 0x80 then '\\' :: 'x' :: hex 2 c.toNat else '\\' :: 'u' :: hex 4 c.toNat
    else [c]

/-- How an element of a payload is written. -/
def escape : Piece → List Char
  | .char c => escapeChar c
  | .octet b => '\\' :: 'x' :: hex 2 b.toNat

/-- The payload between the quotes. -/
def body (payload : Bytes) : List Char := (pieces payload).flatMap escape

/-- The payload as a quoted text. -/
def quote (payload : Bytes) : String := String.ofList ('"' :: body payload ++ ['"'])

end GattSync.Text.Payload
