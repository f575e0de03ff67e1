import GattSync.Adapter.Worker
import GattSync.Rehearsal.World

/-!
# Playing a scripted platform

How a scripted platform answers. Most requests are written into the log; all but the look at what a
handle lists go through the rules; what is left of them is then looked up in the scene.
-/

namespace GattSync.Rehearsal

namespace Scene

/-- The peripheral of a handle. -/
def ofHandle (s : Scene) (handle : Platform.Handle) : String :=
  ((s.handles[handle]?).map (·.1)).getD ""

/-- The services that a handle lists. -/
def listed (s : Scene) (handle : Platform.Handle) : List Platform.Service :=
  ((s.handles[handle]?).map (·.2)).getD []

def find? (s : Scene) (id : String) : Option Scene.Peripheral :=
  s.peripherals.find? fun p => p.id == id

/-- The characteristic that a request on a handle is for. -/
def characteristic? (s : Scene) (handle : Platform.Handle) (c : Platform.Characteristic) :
    Option Dummy.Characteristic :=
  (s.find? (s.ofHandle handle)).bind fun p => Dummy.find? p.services c.service c.uuid

/-- The peripheral that a request is for. -/
def subject (s : Scene) : Platform.Request → String
  | .peripheral id => id
  | .properties handle => s.ofHandle handle
  | .isConnected handle => s.ofHandle handle
  | .connect handle => s.ofHandle handle
  | .disconnect handle => s.ofHandle handle
  | .discoverServices handle => s.ofHandle handle
  | .read handle _ => s.ofHandle handle
  | .write handle _ _ _ => s.ofHandle handle
  | .subscribe handle _ => s.ofHandle handle
  | .notifications handle => s.ofHandle handle
  | _ => ""

/-- The name of a request in rules. -/
def callName : Platform.Request → String
  | .availability => "open"
  | .adapters => "adapters"
  | .adapterState => "adapter_state"
  | .events => "events"
  | .startScan _ => "start_scan"
  | .stopScan => "stop_scan"
  | .peripheral _ => "peripheral"
  | .properties _ => "properties"
  | .isConnected _ => "is_connected"
  | .connect _ => "connect"
  | .disconnect _ => "disconnect"
  | .discoverServices _ => "discover_services"
  | .read _ _ => "read"
  | .write _ _ _ _ => "write"
  | .subscribe _ _ => "subscribe"
  | .notifications _ => "notifications"

/-- The key of a request in rules: its characteristic, or else its peripheral. -/
def callKey (s : Scene) : Platform.Request → String
  | .read _ c => c.uuid.text
  | .write _ c _ _ => c.uuid.text
  | .subscribe _ c => c.uuid.text
  | r => s.subject r

/-- The request is written into the log. -/
def isLogged : Platform.Request → Bool
  | .availability => false
  | .adapters => false
  | .adapterState => false
  | .peripheral _ => false
  | .properties _ => false
  | .isConnected _ => false
  | _ => true

/-! ## Changes -/

/-- Sends an event to every stream that is open. -/
def emit (s : Scene) (event : Platform.Event) : Scene :=
  { s with events := s.events.map (·.push event) }

/-- An event happens. A peripheral that disconnects is not connected any more. -/
def occur (s : Scene) (event : Platform.Event) : Scene :=
  match event with
  | .disconnected id => { s with connected := s.connected.filter (· != id) }.emit event
  | _ => s.emit event

/-- A peripheral notifies a value. -/
def notify (s : Scene) (id : String) (n : Platform.Notification) : Scene :=
  { s with values := s.values.map fun (of, pipe) => (of, if of == id then pipe.push n else pipe) }

/-- The open streams of adapter events end. -/
def endEvents (s : Scene) : Scene := { s with events := s.events.map (·.close) }

/-- The open streams of a peripheral's values end. -/
def endValues (s : Scene) (id : String) : Scene :=
  { s with values := s.values.map fun (of, pipe) => (of, if of == id then pipe.close else pipe) }

end Scene

def changeScene (f : Scene → Scene) : Prog Unit := change fun w => { w with scene := f w.scene }

namespace Scene

/-- Answers a request that no rule stands against. -/
def reply : (r : Platform.Request) → Prog r.Answer
  | .availability => do
    if (← look).scene.isAvailable then return .ok () else return .error (.notSupported "Bluetooth")
  | .adapters => return .ok (← look).scene.adapters
  | .adapterState => return .ok (← look).scene.state
  | .events => do
    let stream := (← look).scene.events.length
    changeScene fun s => { s with events := s.events ++ [{}] }
    return .ok stream
  | .startScan _ => do
    let scene := (← look).scene
    if scene.scanEmits then
      scene.peripherals.forM fun p => changeScene (·.emit (.discovered p.id))
    return .ok ()
  | .stopScan => return .ok ()
  | .peripheral id => do
    let scene := (← look).scene
    match scene.find? id with
    | none => return .error .deviceNotFound
    | some _ =>
      changeScene fun s => { s with handles := s.handles ++ [(id, [])] }
      return .ok scene.handles.length
  | .properties handle => do
    let scene := (← look).scene
    return .ok ((scene.find? (scene.ofHandle handle)).bind (·.properties))
  | .isConnected handle => do
    let scene := (← look).scene
    return .ok (scene.connected.contains (scene.ofHandle handle))
  | .connect handle => do
    let id := (← look).scene.ofHandle handle
    changeScene fun s => { s with connected := id :: s.connected }.emit (.connected id)
    return .ok ()
  | .disconnect handle => do
    let scene := (← look).scene
    let id := scene.ofHandle handle
    changeScene fun s => { s with connected := s.connected.filter (· != id) }
    if scene.disconnectEmits then changeScene (·.emit (.disconnected id))
    return .ok ()
  | .discoverServices handle => do
    let scene := (← look).scene
    let id := scene.ofHandle handle
    let services := ((scene.find? id).map (·.services)).getD []
    changeScene fun s => { s with handles := s.handles.set handle (id, Dummy.listed services) }
    return .ok ()
  | .read handle c => do
    let scene := (← look).scene
    match scene.characteristic? handle c with
    | some d => return .ok (scene.written.value (scene.ofHandle handle) c.service d)
    | none => return .error .noSuchCharacteristic
  | .write handle c payload _ => do
    let scene := (← look).scene
    match scene.characteristic? handle c with
    | some d =>
      changeScene fun s =>
        { s with written := s.written.write (s.ofHandle handle) c.service d payload }
      return .ok ()
    | none => return .error .noSuchCharacteristic
  | .subscribe handle c => do
    let scene := (← look).scene
    match scene.characteristic? handle c with
    | some d =>
      d.notifications.forM fun (time, payload) => do
        let due ← Clockwork.after time
        let _ ← Clockwork.spawn (.notify due (scene.ofHandle handle) ⟨c.uuid, payload⟩)
      return .ok ()
    | none => return .error .noSuchCharacteristic
  | .notifications handle => do
    let scene := (← look).scene
    let stream := scene.values.length
    changeScene fun s => { s with values := s.values ++ [(scene.ofHandle handle, {})] }
    return .ok stream

/-- Answers a request. -/
def answer (r : Platform.Request) : Prog r.Answer := do
  let scene := (← look).scene
  if isLogged r then log (.platform (scene.subject r) r)
  let rule := Rule.find? scene.rules (callName r) (scene.callKey r)
  changeScene fun s => { s with rules := Rule.tally s.rules (callName r) (scene.callKey r) }
  match ← Rule.obey rule with
  | none => reply r
  | some e => return .error e

end Scene

/-! ## The adapter session -/

/-- Notes that a worker has ended. -/
def dismiss (task : Adapter.Task) : Prog Unit :=
  change fun w => { w with workers := w.workers.filter fun v => v.1 != task }

/-- What the operations of an adapter session are on the scripted platform. -/
def adapterOperation : (e : Adapter.Effect Listener) → Prog e.Answer
  | .platform r => Scene.answer r
  | .services handle => return (← look).scene.listed handle
  | .tables => return (← look).tables
  | .change f => change fun w => { w with tables := f w.tables }
  | .openQueue => openQueue
  | .send queue event => do
    let isAbandoned := (← look).isAbandoned queue
    change (·.enqueue queue event)
    return !isAbandoned
  | .employ worker => do
    let task ← Clockwork.spawn (.work worker)
    change fun w => { w with workers := w.workers ++ [(task, worker)] }
    return task
  | .abort task => do
    Clockwork.abort task
    dismiss task
  | .nextEvent stream => do
    Clockwork.await fun w => ((w.scene.events[stream]?).map (·.isReady)).getD true
    let event := ((← look).scene.events[stream]?).bind (·.items.head?)
    changeScene fun s => { s with events := s.events.modify stream (·.pop) }
    return event
  | .nextValue stream => do
    Clockwork.await fun w => ((w.scene.values[stream]?).map (·.2.isReady)).getD true
    let value := ((← look).scene.values[stream]?).bind (·.2.items.head?)
    changeScene fun s =>
      { s with values := s.values.modify stream fun (of, pipe) => (of, pipe.pop) }
    return value
  | .deliver listener payload => deliver listener payload

/-- A program of the adapter session, on the scripted platform. -/
def onPlatform {α : Type} (p : Adapter.Prog Listener α) : Prog α := p.interpret adapterOperation

end GattSync.Rehearsal
