import GattSync.Uuid

/-!
# Peripherals, services and characteristics

What a Bluetooth session tells about the devices around it and about the attributes of a connected
one, and the lifecycle events it reports.
-/

namespace GattSync

/-- Power state of the local adapter. -/
inductive AdapterState where
  | unknown
  | poweredOn
  | poweredOff
  deriving DecidableEq, Repr, Inhabited

namespace AdapterState

def text : AdapterState → String
  | .unknown => "Unknown"
  | .poweredOn => "PoweredOn"
  | .poweredOff => "PoweredOff"

/-- The state of that name; any other text is the unknown state. -/
def ofText (s : String) : AdapterState :=
  if s = "PoweredOn" then .poweredOn else if s = "PoweredOff" then .poweredOff else .unknown

def isPoweredOn (s : AdapterState) : Bool := s == .poweredOn

end AdapterState

/-- A peripheral seen by a session. -/
structure Peripheral where
  /-- Unique within the session. -/
  id : String
  /-- Hardware address as the platform writes it. -/
  address : String
  localName : Option String := none
  deriving DecidableEq, Repr

def Peripheral.text (p : Peripheral) : String :=
  match p.localName with
  | some name => name ++ " (" ++ p.address ++ ")"
  | none => p.address

/-- What a peripheral advertises. -/
structure Advertisement where
  localName : Option String := none
  /-- Data by company number. -/
  manufacturerData : List (UInt16 × Bytes) := []
  services : List Uuid := []
  txPower : Option Int := none
  deriving DecidableEq, Repr

/-- A service of a connected peripheral. -/
structure Service where
  uuid : Uuid
  isPrimary : Bool
  deriving DecidableEq, Repr

/-- A characteristic of a connected peripheral. -/
structure Characteristic where
  uuid : Uuid
  service : Uuid
  /-- The declared property bits. -/
  properties : UInt8
  deriving DecidableEq, Repr

namespace Characteristic

def notifyBit : UInt8 := 16

def indicateBit : UInt8 := 32

/-- Values can be pushed by notification or indication. -/
def canNotify (c : Characteristic) : Bool := c.properties &&& (notifyBit ||| indicateBit) != 0

end Characteristic

/-- A lifecycle event of a started session. -/
inductive Event where
  | adapterState (state : AdapterState)
  | discovered (peripheral : Peripheral) (advertisement : Advertisement) (rssi : Option Int)
  /-- A connection request has completed; with an error it has failed. -/
  | connected (peripheral : Peripheral) (error : Option String)
  /-- A peripheral is gone; with an error the link was lost. -/
  | disconnected (peripheral : Peripheral) (error : Option String)
  deriving DecidableEq, Repr

end GattSync
