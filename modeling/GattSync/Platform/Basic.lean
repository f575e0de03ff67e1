import GattSync.Error
import GattSync.Platform.Address
import GattSync.Platform.Attribute

/-!
# The platform

What the Bluetooth stack below a session can be asked for, and what it reports. A peripheral is
asked through a handle. A handle lists what has been discovered through it, at first nothing.
Reports come as streams: the adapter's events, and the notified values of one peripheral.
-/

namespace GattSync.Platform

/-- The number of a handle on a peripheral. -/
abbrev Handle := Nat

/-- The number of a stream. -/
abbrev Stream := Nat

/-- An event of the adapter. -/
inductive Event where
  | state (state : AdapterState)
  | discovered (id : String)
  | updated (id : String)
  | connected (id : String)
  | disconnected (id : String)
  | services (id : String)
  deriving DecidableEq, Repr

/-- What is known of a peripheral. -/
structure Properties where
  address : Address := .zero
  localName : Option String := none
  /-- Data by company number, in ascending order. -/
  manufacturerData : List (UInt16 × Bytes) := []
  services : List Uuid := []
  txPower : Option Int := none
  rssi : Option Int := none
  deriving DecidableEq, Repr, Inhabited

namespace Properties

/-- Puts a company's data at the place of its number, over data that are already there. -/
def insertCompany (company : UInt16) (payload : Bytes) :
    List (UInt16 × Bytes) → List (UInt16 × Bytes)
  | [] => [(company, payload)]
  | (c, p) :: rest =>
    if company = c then (company, payload) :: rest
    else if company < c then (company, payload) :: (c, p) :: rest
    else (c, p) :: insertCompany company payload rest

/-- Manufacturer data in ascending order of companies; of two for one company the later count. -/
def companies (entries : List (UInt16 × Bytes)) : List (UInt16 × Bytes) :=
  entries.foldl (fun data (company, payload) => insertCompany company payload data) []

end Properties

/-- A value that a peripheral has notified. -/
structure Notification where
  characteristic : Uuid
  payload : Bytes
  deriving DecidableEq, Repr

/-- A request to the platform. -/
inductive Request where
  /-- Asks whether there is Bluetooth at all. -/
  | availability
  /-- Asks for the names of the adapters. -/
  | adapters
  | adapterState
  /-- Opens a stream of adapter events. -/
  | events
  /-- With no services, every peripheral is of interest. -/
  | startScan (services : List Uuid)
  | stopScan
  /-- Asks for a new handle. -/
  | peripheral (id : String)
  | properties (handle : Handle)
  | isConnected (handle : Handle)
  | connect (handle : Handle)
  | disconnect (handle : Handle)
  /-- Makes the handle list the peripheral's services. -/
  | discoverServices (handle : Handle)
  | read (handle : Handle) (characteristic : Characteristic)
  | write (handle : Handle) (characteristic : Characteristic) (payload : Bytes)
      (acknowledged : Bool)
  | subscribe (handle : Handle) (characteristic : Characteristic)
  /-- Opens a stream of notified values. -/
  | notifications (handle : Handle)
  deriving DecidableEq, Repr

/-- What a request is answered with if it succeeds. -/
def Request.Reply : Request → Type
  | .adapters => List String
  | .adapterState => AdapterState
  | .events => Stream
  | .peripheral _ => Handle
  | .properties _ => Option Properties
  | .isConnected _ => Bool
  | .read _ _ => Bytes
  | .notifications _ => Stream
  | _ => Unit

/-- What a request is answered with. -/
abbrev Request.Answer (r : Request) : Type := Except PlatformError r.Reply

end GattSync.Platform
