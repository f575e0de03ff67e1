import GattSync.Error
import GattSync.Text.Octets

/-!
# Payload layouts

A layout says which octets of a payload make up a number, how that number is shifted, and which
arithmetic turns it into a reading.

The octets from `start` to `stop` are taken in that order and put together with the first one as the
most significant, so a range given backwards reads a little-endian field. A field has at most eight
octets; the number has 64 bits, and bits shifted out of them are lost.
-/

namespace GattSync

/-- A kind of arithmetic step. -/
inductive Arithmetic where
  | add
  | subtract
  | multiply
  | divide
  deriving DecidableEq, Repr

/-- One arithmetic step with its constant. -/
structure Operation where
  kind : Arithmetic
  operand : Float
  deriving Repr

/-- The layout of a payload. -/
structure Layout where
  /-- Index of the first octet. -/
  start : UInt64 := 0
  /-- Index of the last octet; below `start` for a field read backwards. -/
  stop : UInt64 := 0
  shiftLeft : UInt32 := 0
  /-- Used only if `shiftLeft` is zero. -/
  shiftRight : UInt32 := 0
  operations : List Operation := []
  deriving Repr

namespace Layout

/-- Why a payload does not fit a layout. -/
inductive Fault where
  | outOfRange (index length : Nat)
  | tooWide (width : Nat)
  | divisionByZero
  deriving DecidableEq, Repr

/-- The most octets a field can have. -/
def maxWidth : Nat := 8

def Fault.message : Fault → String
  | .outOfRange index length =>
    "byte index " ++ toString index ++ " out of range for " ++ toString length ++ "-byte payload"
  | .tooWide width =>
    "field of " ++ toString width ++ " bytes exceeds " ++ toString maxWidth ++ " byte limit"
  | .divisionByZero => "division by zero in converter operations"

/-- The number of octets a layout takes. -/
def width (l : Layout) : Nat :=
  max l.start.toNat l.stop.toNat - min l.start.toNat l.stop.toNat + 1

/-- The octets of the field, in reading order. -/
def octets (l : Layout) (payload : Bytes) : Bytes :=
  let taken := (payload.drop (min l.start.toNat l.stop.toNat)).take l.width
  if l.start ≤ l.stop then taken else taken.reverse

/-- The number that octets denote, most significant first. -/
def bigEndian (octets : Bytes) : UInt64 :=
  octets.foldl (fun n b => (n <<< 8) ||| b.toUInt64) 0

/-- The number in the field. An index outside of the payload is reported before a field too wide. -/
def field (l : Layout) (payload : Bytes) : Except Fault UInt64 :=
  let last := max l.start.toNat l.stop.toNat
  if payload.length ≤ last then .error (.outOfRange last payload.length)
  else if maxWidth < l.width then .error (.tooWide l.width)
  else .ok (bigEndian (l.octets payload))

/-- A shift moves all bits out from 64 places on. -/
def shift (l : Layout) (n : UInt64) : UInt64 :=
  if l.shiftLeft ≠ 0 then
    if l.shiftLeft < 64 then n <<< l.shiftLeft.toUInt64 else 0
  else if l.shiftRight < 64 then n >>> l.shiftRight.toUInt64 else 0

end Layout

/-- The reading after one step. Dividing by a zero of either sign fails. -/
def Operation.apply (op : Operation) (x : Float) : Except Layout.Fault Float :=
  match op.kind with
  | .add => .ok (x + op.operand)
  | .subtract => .ok (x - op.operand)
  | .multiply => .ok (x * op.operand)
  | .divide => if op.operand == 0.0 then .error .divisionByZero else .ok (x / op.operand)

namespace Layout

/-- The reading that a payload holds. -/
def reading (l : Layout) (payload : Bytes) : Except Fault Float := do
  let n ← l.field payload
  l.operations.foldlM (fun x op => op.apply x) (l.shift n).toFloat

/-- The reading that a payload holds, with faults as errors of the data received. -/
def convert (l : Layout) (payload : Bytes) : Except Error Float :=
  (l.reading payload).mapError fun fault => .invalidData fault.message

end Layout
end GattSync
