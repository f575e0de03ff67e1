import GattSync.Text.Quoted
import GattSync.Time.Duration

/-!
# Errors

Everything that can go wrong, by cause, with one wording for each cause. The platform's own faults
are a type of their own, because they also appear in connection events by their bare wording.
-/

namespace GattSync

/-- A fault reported by the platform's Bluetooth stack. -/
inductive PlatformError where
  | permissionDenied
  | deviceNotFound
  | notConnected
  | unexpectedCallback
  | unexpectedCharacteristic
  | noSuchCharacteristic
  | notSupported (operation : String)
  | timedOut (after : Duration)
  | runtime (text : String)
  | other (text : String)
  deriving DecidableEq, Repr

def PlatformError.message : PlatformError → String
  | .permissionDenied => "Permission denied"
  | .deviceNotFound => "Device not found"
  | .notConnected => "Not connected"
  | .unexpectedCallback => "Unexpected callback"
  | .unexpectedCharacteristic => "Unexpected characteristic"
  | .noSuchCharacteristic => "No such characteristic"
  | .notSupported operation => "The operation is not supported: " ++ operation
  | .timedOut after => "Timed out after " ++ after.text
  | .runtime text => "Runtime Error: " ++ text
  | .other text => text

/-- What an operation can fail with. -/
inductive Error where
  /-- A fault of the Bluetooth stack below. -/
  | bluetooth (fault : PlatformError)
  /-- There is no Bluetooth to use. -/
  | bluetoothUnavailable
  /-- The session has not been started, or has been stopped. -/
  | sessionNotStarted
  /-- The session knows no such peripheral. -/
  | peripheralNotFound (identifier : String)
  | notConnected
  /-- The peripheral's data make no sense. -/
  | invalidData (context : String)
  | notSupported (operation : String)
  | characteristicNotFound (uuid : String)
  /-- A property to be written declares no payloads. -/
  | emptyWriteTable (property : String)
  /-- A property to be written has no payload for its default label. -/
  | missingWriteEntry (property label : String)
  /-- A text that names no UUID. -/
  | invalidUuid (value : String)
  /-- A configuration that cannot be run. -/
  | config (text : String)
  /-- A text that is no JSON, or JSON of another shape. -/
  | json
  deriving DecidableEq, Repr

def Error.message : Error → String
  | .bluetooth fault => "Bluetooth error: " ++ fault.message
  | .bluetoothUnavailable => "Bluetooth not available or disabled"
  | .sessionNotStarted => "BLE session not started"
  | .peripheralNotFound identifier => "Peripheral not found: " ++ identifier
  | .notConnected => "Peripheral not connected"
  | .invalidData context => "Invalid data received: " ++ context
  | .notSupported operation => "Operation not supported: " ++ operation
  | .characteristicNotFound uuid => "Characteristic not found: " ++ uuid
  | .emptyWriteTable property => "Property " ++ property ++ " has an empty write table"
  | .missingWriteEntry property label =>
    "Property " ++ property ++ " has no write entry for default value " ++ Text.Quoted.quote label
  | .invalidUuid value => "Invalid UUID: " ++ value
  | .config text => "Invalid configuration: " ++ text
  | .json => "JSON error"

end GattSync
