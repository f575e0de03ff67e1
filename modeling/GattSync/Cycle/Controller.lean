import GattSync.Cycle.Access
import GattSync.Cycle.Connection

/-!
# The controller of a cycle

The controller follows the events of one session. Powered on, it scans; the first peripheral that
the spec means becomes its target and is connected to; once connected, the target's services and
characteristics are walked and every characteristic with a property is accessed by the property's
mode; then the connection is held for the observation window and released. When the target has
disconnected, the cycle is finished.

An attempt to connect that fails gives the target up and scans again.
-/

namespace GattSync.Cycle

/-- What a controller is given for its cycle. -/
structure Plan where
  spec : DeviceSpec
  convert : Converter := Layout.convert
  /-- Transfer unit asked for after connecting. -/
  mtu : UInt16
  /-- How long a connection is held for notifications. -/
  window : Duration

/-! ## The walk -/

namespace Plan

variable (plan : Plan) (peripheral : Peripheral)

/-- Accesses a characteristic as its property asks. The result says whether the walk goes on: a
failed read does not end it, a failed write or subscription does. -/
def visit (characteristic : Characteristic) : Prog Bool := do
  match plan.spec.property? characteristic.uuid with
  | none => return true
  | some property =>
    match property.access with
    | .readOnly =>
      let _ ← Access.read plan.convert peripheral characteristic property
      return true
    | .readWrite =>
      return (← Access.write plan.convert peripheral characteristic property).isOk
    | .notifyOnly =>
      return (← Access.subscribe peripheral characteristic property).isOk
    | .unrecognized _ => return true

/-- Visits characteristics in order for as long as the walk goes on. -/
def visitAll : List Characteristic → Prog Bool
  | [] => return true
  | c :: rest => do
    if ← plan.visit peripheral c then visitAll rest else return false

/-- Visits the characteristics of services in order. A service whose characteristics cannot be
discovered is passed over. -/
def walk : List Service → Prog Bool
  | [] => return true
  | s :: rest => do
    match ← ask (.discoverCharacteristics peripheral s) with
    | .error _ => walk rest
    | .ok characteristics =>
      if ← plan.visitAll peripheral characteristics then walk rest else return false

/-- All that is done with a connected peripheral. The connection is held only after a walk that has
come to its end. -/
def process : Prog Unit := do
  let _ ← ask (.setMtu peripheral plan.mtu)
  match ← ask (.discoverServices peripheral) with
  | .error _ => return ()
  | .ok services =>
    if ← plan.walk peripheral services then hold plan.window

end Plan

/-! ## The state machine -/

/-- The state of a controller. -/
structure Controller where
  connection : Connection := .idle
  /-- The peripheral that was selected. -/
  target : Option Peripheral := none
  /-- The end of the cycle has been told. -/
  isFinished : Bool := false
  deriving DecidableEq, Repr, Inhabited

namespace Controller

/-- The peripheral is the selected one. -/
def isTarget (c : Controller) (p : Peripheral) : Bool :=
  match c.target with
  | some t => t.id == p.id
  | none => false

/-- Scans for all peripherals. The state is kept if that fails. -/
def startScanning (c : Controller) : Prog Controller := do
  match ← ask (.scan []) with
  | .ok () => return { c with connection := .scanning }
  | .error _ => return c

/-- Scans when the adapter is on and no peripheral has been selected yet, and ends the scan when it
is not on. -/
def onAdapterState (c : Controller) (state : AdapterState) : Prog Controller := do
  if state.isPoweredOn then
    match c.connection with
    | .idle | .scanning => c.startScanning
    | _ => return c
  else
    let _ ← ask .stopScanning
    return c

/-- Selects a peripheral that the spec means and connects to it. -/
def onDiscovered (plan : Plan) (c : Controller) (p : Peripheral) (advertisement : Advertisement) :
    Prog Controller := do
  if c.connection == .scanning &&
      plan.spec.protocol.isMatch advertisement.localName p.address then
    let _ ← ask .stopScanning
    match ← ask (.connect p) with
    | .ok () => return { c with connection := .connecting, target := some p }
    | .error _ => startScanning { c with connection := .connecting, target := none }
  else return c

/-- Processes the target once it is connected, and releases it whatever has failed. -/
def onConnected (plan : Plan) (c : Controller) (p : Peripheral) (error : Option String) :
    Prog Controller := do
  if c.connection.awaitsConnection && c.isTarget p then
    match error with
    | some _ => startScanning { c with target := none }
    | none =>
      plan.process p
      let _ ← ask (.cancelConnection p)
      return { c with connection := .connected, target := some p }
  else return c

/-- Ends the cycle when the target has disconnected. -/
def onDisconnected (c : Controller) (p : Peripheral) : Prog Controller := do
  if (c.connection == .connecting || c.connection == .connected) && c.isTarget p then
    if !c.isFinished then finish
    return { c with connection := .disconnected, isFinished := true }
  else return c

/-- Follows one event. -/
def handle (plan : Plan) (c : Controller) : Event → Prog Controller
  | .adapterState state => c.onAdapterState state
  | .discovered p advertisement _ => c.onDiscovered plan p advertisement
  | .connected p error => c.onConnected plan p error
  | .disconnected p _ => c.onDisconnected p

/-- Follows events in order until the target has disconnected. -/
def run (plan : Plan) : Controller → List Event → Prog Controller
  | c, [] => return c
  | c, e :: rest => do
    let c ← c.handle plan e
    if c.connection.isDone then return c else run plan c rest

end Controller
end GattSync.Cycle
