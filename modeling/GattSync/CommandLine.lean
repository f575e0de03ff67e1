import GattSync.Spec.Codec
import GattSync.Config.Codec

/-!
# The command line

Loads a device spec and a configuration, says what is going to be kept in sync, and then needs
Bluetooth. The logic is a function from arguments and files to a report; reading files and printing
is left to the program's main module.
-/

namespace GattSync.CommandLine

/-- The spec used when none is given: the battery level of a peripheral called Sensor. -/
def sampleSpec : DeviceSpec where
  protocol := { name := "Sensor" }
  properties := [Property.on "battery-level" .readOnly Uuid.batteryLevel]

/-- The argument after the first occurrence of a flag. -/
def valueOf? (flag : String) : List String → Option String
  | [] => none
  | a :: rest => if a = flag then rest.head? else valueOf? flag rest

/-- The files that the arguments name. -/
def files (args : List String) : List String :=
  (valueOf? "--spec" args).toList ++ (valueOf? "--config" args).toList

/-- What a run prints, and the error that it ends with, if any. -/
structure Report where
  output : String
  error : Option Error
  deriving DecidableEq, Repr

def heading : String := "BLE Device Sync\n===============\n\n"

/-- Decodes the text of a file, or says why it cannot be read. -/
def load {α : Type} (decode : String → Except Error α) (path : String)
    (content : Except String String) : Except Error α :=
  match content with
  | .ok text => decode text
  | .error reason => .error (.config (path ++ ": " ++ reason))

/-- The spec and the configuration that the arguments ask for, the spec first. -/
def settings (args : List String) (read : String → Except String String) :
    Except Error (DeviceSpec × SyncConfig) := do
  let spec ← match valueOf? "--spec" args with
    | some path => load DeviceSpec.ofText path (read path)
    | none => .ok sampleSpec
  let config ← match valueOf? "--config" args with
    | some path => load SyncConfig.ofText path (read path)
    | none => .ok {}
  return (spec, config)

def propertyLine (p : Property) : String :=
  "  " ++ p.name ++ " (" ++ p.access.text ++ ") on " ++ p.visitor.characteristic.text ++ "\n"

/-- What is going to be kept in sync. -/
def summary (spec : DeviceSpec) (config : SyncConfig) : String :=
  "Properties:\n" ++ String.join (spec.properties.map propertyLine) ++
    "Resyncing every " ++ config.syncInterval.text ++ "\n\n"

/-- A run on a machine without Bluetooth, with a reader of files. -/
def run (args : List String) (read : String → Except String String) : Report :=
  match settings args read with
  | .error e => ⟨heading, some e⟩
  | .ok (spec, config) => ⟨heading ++ summary spec config, some .bluetoothUnavailable⟩

end GattSync.CommandLine
