import GattSync.Spec.Basic
import GattSync.Json.Decoder

/-!
# Device specs as JSON

All fields of a spec, of its identity and of a layout have defaults; a property has to be given a
name, an access mode and a characteristic.
-/

namespace GattSync

open Json

namespace Arithmetic

def choices : List (String × Arithmetic) :=
  [("add", .add), ("subtract", .subtract), ("multiply", .multiply), ("divide", .divide)]

def name : Arithmetic → String
  | .add => "add"
  | .subtract => "subtract"
  | .multiply => "multiply"
  | .divide => "divide"

def toJson (a : Arithmetic) : Json := ofText a.name

def ofJson? : Json → Option Arithmetic := asChoice? choices

end Arithmetic

def Operation.toJson (op : Operation) : Json :=
  .object [member "operationType" op.kind.toJson, member "operationValue" (ofFloat op.operand)]

def Operation.ofJson? (v : Json) : Option Operation := do
  match ← asFields? ["operationType", "operationValue"] v with
  | [kind, operand] => some ⟨← required? Arithmetic.ofJson? kind, ← required? asFloat? operand⟩
  | _ => none

namespace Layout

def toJson (l : Layout) : Json :=
  .object
    [member "startIndex" (ofNat l.start.toNat), member "endIndex" (ofNat l.stop.toNat),
     member "shiftLeft" (ofNat l.shiftLeft.toNat), member "shiftRight" (ofNat l.shiftRight.toNat),
     member "orderOfOperations" (.array (l.operations.map Operation.toJson))]

/-- An octet's index. -/
def index? (v : Json) : Option UInt64 := (asNat? (Nat.pow 2 64) v).map Nat.toUInt64

/-- A number of places to shift by. -/
def places? (v : Json) : Option UInt32 := (asNat? (Nat.pow 2 32) v).map Nat.toUInt32

def ofJson? (v : Json) : Option Layout := do
  match ← asFields?
    ["startIndex", "endIndex", "shiftLeft", "shiftRight", "orderOfOperations"] v with
  | [start, stop, left, right, operations] =>
    some ⟨← optional? index? 0 start, ← optional? index? 0 stop, ← optional? places? 0 left,
      ← optional? places? 0 right, ← optional? (asList? Operation.ofJson?) [] operations⟩
  | _ => none

end Layout

def AccessMode.toJson (m : AccessMode) : Json := Json.ofText m.text

def AccessMode.ofJson? (v : Json) : Option AccessMode := (asText? v).map AccessMode.ofText

def ProtocolIdentity.toJson (i : ProtocolIdentity) : Json :=
  .object [member "name" (ofText i.name), member "macAddress" (ofText i.macAddress)]

def ProtocolIdentity.ofJson? (v : Json) : Option ProtocolIdentity := do
  match ← asFields? ["name", "macAddress"] v with
  | [name, macAddress] => some ⟨← optional? asText? "" name, ← optional? asText? "" macAddress⟩
  | _ => none

namespace WriteTable

/-- A payload is the array of its octets. -/
def payloadToJson (payload : Bytes) : Json := .array (payload.map fun b => ofNat b.toNat)

def octet? (v : Json) : Option UInt8 := (asNat? 256 v).map Nat.toUInt8

def toJson (t : WriteTable) : Json :=
  .object (t.entries.map fun (label, payload) => member label (payloadToJson payload))

/-- Payloads by label. Of two under one label the later one counts. -/
def ofJson? (v : Json) : Option WriteTable := (asEntries? (asList? octet?) v).map ofList

end WriteTable

namespace Visitor

def toJson (p : Visitor) : Json :=
  .object
    [member "characteristicUuid" (ofText p.characteristic.text),
     member "dataConverter" p.layout.toJson, member "dataWrite" p.writes.toJson,
     member "defaultValue" (ofText p.defaultValue)]

/-- A characteristic is named by any text that names a UUID. -/
def characteristic? (v : Json) : Option Uuid := do Uuid.ofText? (← asText? v)

def ofJson? (v : Json) : Option Visitor := do
  match ← asFields? ["characteristicUuid", "dataConverter", "dataWrite", "defaultValue"] v with
  | [characteristic, layout, writes, defaultValue] =>
    some ⟨← required? characteristic? characteristic, ← optional? Layout.ofJson? {} layout,
      ← optional? WriteTable.ofJson? {} writes, ← optional? asText? "" defaultValue⟩
  | _ => none

end Visitor

def Property.toJson (p : Property) : Json :=
  .object
    [member "name" (ofText p.name), member "accessMode" p.access.toJson,
     member "visitor" p.visitor.toJson]

def Property.ofJson? (v : Json) : Option Property := do
  match ← asFields? ["name", "accessMode", "visitor"] v with
  | [name, access, visitor] =>
    some ⟨← required? asText? name, ← required? AccessMode.ofJson? access,
      ← required? Visitor.ofJson? visitor⟩
  | _ => none

namespace DeviceSpec

def toJson (s : DeviceSpec) : Json :=
  .object
    [member "protocol" s.protocol.toJson,
     member "properties" (.array (s.properties.map Property.toJson))]

def ofJson? (v : Json) : Option DeviceSpec := do
  match ← asFields? ["protocol", "properties"] v with
  | [protocol, properties] =>
    some ⟨← optional? ProtocolIdentity.ofJson? {} protocol,
      ← optional? (asList? Property.ofJson?) [] properties⟩
  | _ => none

/-- The spec that a JSON text gives. -/
def ofText (s : String) : Except Error DeviceSpec :=
  match Json.parse? s >>= ofJson? with
  | some spec => .ok spec
  | none => .error .json

end DeviceSpec
end GattSync
