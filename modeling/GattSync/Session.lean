import GattSync.Error
import GattSync.Gatt
import GattSync.Program

/-!
# Sessions

What a Bluetooth session can be asked for. A session is started and stopped; while it is started it
reports lifecycle events on the queue that the start has answered with. Everything else is asked for
one peripheral. Connecting and disconnecting are requests whose completion is an event.
-/

namespace GattSync.Session

/-- The number of an event queue. -/
abbrev Queue := Nat

/-- A request to a session. A listener, of type `η`, is what notified values are routed to. -/
inductive Request (η : Type) where
  /-- Opens a queue whose first event is the state of the adapter. -/
  | start
  /-- Ends scanning, connections and listening. -/
  | stop
  /-- With no services, every peripheral is of interest. -/
  | scan (services : List Uuid)
  | stopScanning
  | connect (peripheral : Peripheral)
  | cancelConnection (peripheral : Peripheral)
  | setMtu (peripheral : Peripheral) (mtu : UInt16)
  | discoverServices (peripheral : Peripheral)
  | discoverCharacteristics (peripheral : Peripheral) (service : Service)
  | discoverDescriptors (peripheral : Peripheral) (characteristic : Characteristic)
  | read (peripheral : Peripheral) (characteristic : Characteristic)
  | write (peripheral : Peripheral) (characteristic : Characteristic) (payload : Bytes)
      (acknowledged : Bool)
  | subscribe (peripheral : Peripheral) (characteristic : Characteristic) (listener : η)
  deriving DecidableEq, Repr

/-- What a request is answered with if it succeeds. -/
abbrev Request.Reply {η : Type} : Request η → Type
  | .start => Queue
  | .discoverServices _ => List Service
  | .discoverCharacteristics _ _ => List Characteristic
  | .discoverDescriptors _ _ => List Uuid
  | .read _ _ => Bytes
  | _ => Unit

/-- What a request is answered with. -/
abbrev Request.Answer {η : Type} (r : Request η) : Type := Except Error r.Reply

/-- Answers requests by those that have another listener in the place of each. -/
def Request.via {S : Signature} {η θ : Type} (listener : η → θ)
    (answer : (r : Request θ) → Program S r.Answer) : (r : Request η) → Program S r.Answer
  | .start => answer .start
  | .stop => answer .stop
  | .scan services => answer (.scan services)
  | .stopScanning => answer .stopScanning
  | .connect p => answer (.connect p)
  | .cancelConnection p => answer (.cancelConnection p)
  | .setMtu p mtu => answer (.setMtu p mtu)
  | .discoverServices p => answer (.discoverServices p)
  | .discoverCharacteristics p s => answer (.discoverCharacteristics p s)
  | .discoverDescriptors p c => answer (.discoverDescriptors p c)
  | .read p c => answer (.read p c)
  | .write p c payload acknowledged => answer (.write p c payload acknowledged)
  | .subscribe p c l => answer (.subscribe p c (listener l))

end GattSync.Session
