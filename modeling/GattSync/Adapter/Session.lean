import GattSync.Adapter.Effect

/-!
# Sessions on the platform's adapter

How an adapter session answers the requests of a session. Peripherals are known from the events that
the session has forwarded, and a request for any other one fails.

Connecting is never refused once the peripheral is known: whether it has succeeded is told by the
event. A connected peripheral is listened to, and the listener hands each notified value to the
consumers routed to its characteristic. Connecting again replaces the listener.
-/

namespace GattSync.Adapter

variable {η : Type}

/-- Looks for an adapter; the result is the name of the first one. -/
def choose : Prog η (Except Error String) := do
  match ← ask .availability with
  | .error _ => return .error .bluetoothUnavailable
  | .ok () =>
    match ← ask .adapters with
    | .error e => return .error (.bluetooth e)
    | .ok [] => return .error .bluetoothUnavailable
    | .ok (name :: _) => return .ok name

/-- An answer of the platform as one of the session. -/
def answered {α : Type} (a : Except PlatformError α) : Except Error α := a.mapError .bluetooth

/-- The characteristic of a handle that a request names by UUID and service. -/
def find? (services : List Platform.Service) (c : Characteristic) :
    Option Platform.Characteristic :=
  (Platform.characteristics services).find? fun d => d.uuid == c.uuid && d.service == c.service

/-- Goes on with the handle of a peripheral. -/
def withHandle {α : Type} (p : Peripheral) (next : Platform.Handle → Prog η (Except Error α)) :
    Prog η (Except Error α) := do
  match (← tables).handle? p.id with
  | some handle => next handle
  | none => return .error (.peripheralNotFound p.id)

/-- Goes on with the handle of a peripheral and a characteristic that it lists. -/
def withCharacteristic {α : Type} (p : Peripheral) (c : Characteristic)
    (next : Platform.Handle → Platform.Characteristic → Prog η (Except Error α)) :
    Prog η (Except Error α) :=
  withHandle p fun handle => do
    match find? (← services handle) c with
    | some found => next handle found
    | none => return .error (.characteristicNotFound c.uuid.text)

/-! ## The life of a session -/

/-- Sends an event, if the session is started. -/
def emit (event : Event) : Prog η Unit := do
  match (← tables).events with
  | some queue => let _ ← send queue event
  | none => return ()

/-- Opens a queue and forwards the adapter's events to it from now on. An adapter that cannot tell
its state is taken to be on. -/
def start : Prog η (Except Error Session.Queue) := do
  match ← ask .events with
  | .error e => return .error (.bluetooth e)
  | .ok stream =>
    let state := match ← ask .adapterState with
      | .ok state => state
      | .error _ => .poweredOn
    let queue ← openQueue
    let _ ← send queue (.adapterState state)
    change fun t => { t with events := some queue }
    let task ← employ (.forward stream queue)
    let previous := (← tables).forwarder
    change fun t => { t with forwarder := some task }
    abort previous
    return .ok queue

/-- Ends listening to a peripheral. -/
def unlisten (id : String) : Prog η Unit := do
  abort ((← tables).listener? id)
  change (Tables.unlisten · id)

/-- Ends listening to a peripheral and disconnects it if it is connected. -/
def release (id : String) : Prog η Unit := do
  unlisten id
  match (← tables).handle? id with
  | none => return ()
  | some handle =>
    match ← ask (.isConnected handle) with
    | .ok true => let _ ← ask (.disconnect handle)
    | _ => return ()

/-- Ends scanning, releases every peripheral that is listened to, and closes the queue. -/
def stop : Prog η Unit := do
  let _ ← ask .stopScan
  (← tables).listeners.forM fun l => release l.1
  let forwarder := (← tables).forwarder
  change Tables.shut
  abort forwarder

/-- The session is given up: its workers end and its queue is closed. -/
def dispose : Prog η Unit := do
  let t ← tables
  change fun t => { t with events := none }
  abort t.forwarder
  t.listeners.forM fun l => abort (some l.2)

/-! ## Requests -/

/-- Listens to a connected peripheral. One that has no stream to listen to is left connected. -/
def listen (id : String) (handle : Platform.Handle) : Prog η Unit := do
  match ← ask (.notifications handle) with
  | .error _ => return ()
  | .ok stream =>
    let task ← employ (.listen id stream)
    let previous := (← tables).listener? id
    change (Tables.listen · id task)
    abort previous

/-- Answers a request. -/
def answer : (r : Session.Request η) → Prog η r.Answer
  | .start => start
  | .stop => do
    stop
    return .ok ()
  | .scan services => return answered (← ask (.startScan services))
  | .stopScanning => return answered (← ask .stopScan)
  | .connect p => withHandle p fun handle => do
    match ← ask (.connect handle) with
    | .ok () =>
      listen p.id handle
      emit (.connected p none)
    | .error e => emit (.connected p (some e.message))
    return .ok ()
  | .cancelConnection p => withHandle p fun handle => do
    unlisten p.id
    match ← ask (.disconnect handle) with
    | .error e => return .error (.bluetooth e)
    | .ok () =>
      emit (.disconnected p none)
      return .ok ()
  | .setMtu _ mtu =>
    return .error (.notSupported
      ("explicit MTU negotiation (" ++ toString mtu.toNat ++ " bytes)"))
  | .discoverServices p => withHandle p fun handle => do
    match ← ask (.discoverServices handle) with
    | .error e => return .error (.bluetooth e)
    | .ok () => return .ok ((← services handle).map (·.toService))
  | .discoverCharacteristics p s => withHandle p fun handle => do
    let listed := (← services handle).filter fun t => t.uuid == s.uuid
    return .ok ((listed.flatMap (·.characteristics)).map (·.toCharacteristic))
  | .discoverDescriptors p c => withCharacteristic p c fun _ found =>
    return .ok found.descriptors
  | .read p c => withCharacteristic p c fun handle found =>
    return answered (← ask (.read handle found))
  | .write p c payload acknowledged => withCharacteristic p c fun handle found =>
    return answered (← ask (.write handle found payload acknowledged))
  | .subscribe p c consumer => withCharacteristic p c fun handle found => do
    change (Tables.addRoute · p.id found.uuid consumer)
    match ← ask (.subscribe handle found) with
    | .ok () => return .ok ()
    | .error e =>
      change (Tables.removeRoute · p.id found.uuid)
      return .error (.bluetooth e)

end GattSync.Adapter
