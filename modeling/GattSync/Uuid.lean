import GattSync.Error
import GattSync.Text.Character
import GattSync.Text.Payload

/-!
# UUIDs

128-bit identifiers of services, characteristics and descriptors. The numbers assigned by the
Bluetooth standard are short; they stand for the UUID that has them in its top 32 bits and the
Bluetooth base UUID below.
-/

namespace GattSync

/-- A UUID, as the number its 32 hexadecimal digits denote. -/
structure Uuid where
  bits : BitVec 128
  deriving DecidableEq, Repr, Inhabited

namespace Uuid

/-- The Bluetooth base UUID, `00000000-0000-1000-8000-00805f9b34fb`. -/
def base : Uuid := ⟨0x00000000_0000_1000_8000_00805f9b34fb⟩

/-- The UUID of a 32-bit assigned number. -/
def ofShort32 (n : BitVec 32) : Uuid := ⟨base.bits ||| (n.setWidth 128 <<< 96)⟩

/-- The UUID of a 16-bit assigned number. -/
def ofShort16 (n : BitVec 16) : Uuid := ofShort32 (n.setWidth 32)

/-- Battery level, the characteristic read when no spec is given. -/
def batteryLevel : Uuid := ofShort16 0x2a19

instance : LT Uuid := ⟨fun a b => a.bits.toNat < b.bits.toNat⟩

instance (a b : Uuid) : Decidable (a < b) :=
  inferInstanceAs (Decidable (a.bits.toNat < b.bits.toNat))

instance : Ord Uuid := ⟨compareOn fun u => u.bits.toNat⟩

/-- The digits in lower case, grouped by hyphens as 8, 4, 4, 4 and 12. -/
def text (u : Uuid) : String :=
  let ds := Text.Payload.hex 32 u.bits.toNat
  String.ofList <|
    ds.take 8 ++ '-' :: (ds.drop 8).take 4 ++ '-' :: (ds.drop 12).take 4 ++
      '-' :: (ds.drop 16).take 4 ++ '-' :: ds.drop 20

/-! ## Reading

An identifier is given in full or as a short number. Blanks around it are ignored and one `0x` or
`0X` in front of a short number is taken off; what is left is short if it takes four or eight
octets, otherwise the text, with its `0x`, has to be a UUID in full.

A short number is read as a number: a plus sign may stand in place of its first digit. A UUID in
full is 32 digits in a row, or the same in groups of 8, 4, 4, 4 and 12 with hyphens between them,
and the grouped form may be enclosed in braces or follow `urn:uuid:` in any letter case.
-/

/-- The number that hexadecimal digits denote, continued from `acc`. -/
def hexNumberFrom? (acc : Nat) : List Char → Option Nat
  | [] => some acc
  | c :: cs => (Text.hexValue? c).bind fun d => hexNumberFrom? (acc * 16 + d) cs

/-- The number that one or more hexadecimal digits denote. -/
def hexNumber? : List Char → Option Nat
  | [] => none
  | cs => hexNumberFrom? 0 cs

/-- A hexadecimal number that may have a plus sign. -/
def signedHexNumber? : List Char → Option Nat
  | '+' :: cs => hexNumber? cs
  | cs => hexNumber? cs

/-- The text without a leading `0x` or `0X`. -/
def stripHexMark : List Char → List Char
  | '0' :: 'x' :: cs => cs
  | '0' :: 'X' :: cs => cs
  | cs => cs

/-- The UUID of 32 digits in a row. -/
def ofSimple? (cs : List Char) : Option Uuid :=
  if cs.length = 32 then (hexNumber? cs).map fun n => ⟨BitVec.ofNat 128 n⟩ else none

/-- The UUID of 32 digits in hyphenated groups. -/
def ofHyphenated? (cs : List Char) : Option Uuid :=
  if cs.length = 36 ∧ cs[8]? = some '-' ∧ cs[13]? = some '-' ∧ cs[18]? = some '-' ∧
      cs[23]? = some '-' then
    ofSimple? (cs.take 8 ++ (cs.drop 9).take 4 ++ (cs.drop 14).take 4 ++ (cs.drop 19).take 4 ++
      cs.drop 24)
  else none

/-- What may stand before a UUID in full. It is taken in any letter case, as the uuid library does
in its present 1.x releases; early ones took small letters only. -/
def urnMark : List Char := ['u', 'r', 'n', ':', 'u', 'u', 'i', 'd', ':']

/-- The text between a pair of braces, or after `urn:uuid:`; any other text as it is. -/
def unwrap (cs : List Char) : List Char :=
  if (cs.take urnMark.length).map Char.toLower = urnMark then cs.drop urnMark.length
  else match cs with
    | '\x7b' :: inner => if inner.getLast? = some '\x7d' then inner.dropLast else cs
    | _ => cs

/-- The UUID that a text gives in full. -/
def ofFull? (cs : List Char) : Option Uuid :=
  if cs.length = 32 then ofSimple? cs else ofHyphenated? (unwrap cs)

/-- The number of octets a text takes. -/
def octetCount (cs : List Char) : Nat := cs.foldl (fun n c => n + c.utf8Size) 0

/-- The UUID that a text names, in full or by a short number. -/
def ofText? (s : String) : Option Uuid :=
  let trimmed := Text.trim s.toList
  let short := stripHexMark trimmed
  match octetCount short with
  | 4 => (signedHexNumber? short).map fun n => ofShort16 (BitVec.ofNat 16 n)
  | 8 => (signedHexNumber? short).map fun n => ofShort32 (BitVec.ofNat 32 n)
  | _ => ofFull? trimmed

/-- The UUID that a text names, or the error that quotes the text as it was given. -/
def parse (s : String) : Except Error Uuid :=
  match ofText? s with
  | some u => .ok u
  | none => .error (.invalidUuid s)

end Uuid
end GattSync
