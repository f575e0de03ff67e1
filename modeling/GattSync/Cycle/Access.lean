import GattSync.Cycle.Effect
import GattSync.Decimal.Binary64
import GattSync.Spec.Basic

/-!
# Access to one characteristic

How a property is accessed on a connected peripheral, by its mode. A reading is recorded once it has
been converted. A written value is recorded once the peripheral has been seen to hold it: the
characteristic is read back, and the reading is recorded along with the label that was written.
-/

namespace GattSync.Cycle

/-- Turns a payload of a layout into a reading. -/
abbrev Converter : Type := Layout → Bytes → Except Error Float

namespace Access

variable (convert : Converter) (peripheral : Peripheral) (characteristic : Characteristic)
  (property : Property)

/-- Reads, converts and records; the result is the text recorded. -/
def read : Prog (Except Error String) := do
  match ← ask (.read peripheral characteristic) with
  | .error e => return .error e
  | .ok payload =>
    match convert property.visitor.layout payload with
    | .error e => return .error e
    | .ok reading =>
      let reported := formatReading reading
      record property.name "" reported
      return .ok reported

/-- Writes the default payload, reads back and records. Without a payload to write, the peripheral
is left alone. -/
def write : Prog (Except Error Unit) := do
  match property.defaultPayload with
  | .error e => return .error e
  | .ok payload =>
    match ← ask (.write peripheral characteristic payload true) with
    | .error e => return .error e
    | .ok () =>
      match ← read convert peripheral characteristic property with
      | .error e => return .error e
      | .ok reported =>
        record property.name property.visitor.defaultValue reported
        return .ok ()

/-- Routes what is notified to the property. A characteristic that cannot notify is left alone, and
that is no error. -/
def subscribe : Prog (Except Error Unit) := do
  match ← ask (.discoverDescriptors peripheral characteristic) with
  | .error e => return .error e
  | .ok _ =>
    if characteristic.canNotify then
      ask (.subscribe peripheral characteristic property.name)
    else return .ok ()

end Access
end GattSync.Cycle
