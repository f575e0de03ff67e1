import GattSync.Platform.Attribute
import GattSync.Time.Duration

/-!
# Dummy peripherals

What a peripheral of a rehearsal holds: services with characteristics that have values, take written
ones, and notify when they are subscribed to.
-/

namespace GattSync.Rehearsal

namespace Dummy

/-- A characteristic of a dummy. -/
structure Characteristic where
  uuid : Uuid
  properties : UInt8
  descriptors : List Uuid := []
  value : Bytes := []
  /-- What it holds after any write; without one, what was written. -/
  afterWrite : Option Bytes := none
  /-- What it notifies, and how long after it was subscribed to. -/
  notifications : List (Duration × Bytes) := []
  deriving Repr

/-- A service of a dummy. -/
structure Service where
  uuid : Uuid
  isPrimary : Bool := true
  characteristics : List Characteristic := []
  deriving Repr

/-- The first characteristic of that UUID in services of that one. -/
def find? (services : List Service) (service characteristic : Uuid) : Option Characteristic :=
  ((services.filter fun s => s.uuid == service).flatMap (·.characteristics)).find? fun c =>
    c.uuid == characteristic

/-- What a session lists of a service. -/
def Service.listed (s : Service) : GattSync.Service := ⟨s.uuid, s.isPrimary⟩

/-- What a session lists of a characteristic. -/
def Characteristic.listed (c : Characteristic) (service : Uuid) : GattSync.Characteristic :=
  ⟨c.uuid, service, c.properties⟩

/-- What the platform lists of services. -/
def listed (services : List Service) : List Platform.Service :=
  Platform.ascending <| services.map fun s =>
    { toService := s.listed
      characteristics := Platform.ascending <| s.characteristics.map fun c =>
        { toCharacteristic := c.listed s.uuid, descriptors := Platform.ascending c.descriptors } }

end Dummy

/-- What has been written, by peripheral, service and characteristic, the latest first. -/
abbrev Memory : Type := List ((String × Uuid × Uuid) × Bytes)

namespace Memory

/-- What a characteristic holds now. -/
def value (m : Memory) (id : String) (service : Uuid) (c : Dummy.Characteristic) : Bytes :=
  (m.lookup (id, service, c.uuid)).getD c.value

/-- The memory after a characteristic has been written. -/
def write (m : Memory) (id : String) (service : Uuid) (c : Dummy.Characteristic)
    (payload : Bytes) : Memory :=
  ((id, service, c.uuid), c.afterWrite.getD payload) :: m

end Memory
end GattSync.Rehearsal
