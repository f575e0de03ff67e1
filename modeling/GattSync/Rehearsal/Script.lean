import GattSync.Rehearsal.World

/-!
# Playing a scripted session

How a scripted session answers. Each request is written into the log and goes through the rules
first; what is left of it is then looked up in the script.
-/

namespace GattSync.Rehearsal

namespace Script

/-- The name of a request in rules. -/
def callName {η : Type} : Session.Request η → String
  | .start => "start"
  | .stop => "stop"
  | .scan _ => "scan"
  | .stopScanning => "stop_scanning"
  | .connect _ => "connect"
  | .cancelConnection _ => "cancel_connection"
  | .setMtu _ _ => "set_mtu"
  | .discoverServices _ => "discover_services"
  | .discoverCharacteristics _ _ => "discover_characteristics"
  | .discoverDescriptors _ _ => "discover_descriptors"
  | .read _ _ => "read"
  | .write _ _ _ _ => "write"
  | .subscribe _ _ _ => "set_notify"

/-- The key of a request in rules: its service or characteristic, or else its peripheral. -/
def callKey {η : Type} : Session.Request η → String
  | .connect p => p.id
  | .cancelConnection p => p.id
  | .setMtu p _ => p.id
  | .discoverServices p => p.id
  | .discoverCharacteristics _ s => s.uuid.text
  | .discoverDescriptors _ c => c.uuid.text
  | .read _ c => c.uuid.text
  | .write _ c _ _ => c.uuid.text
  | .subscribe _ c _ => c.uuid.text
  | _ => ""

/-- The services of a peripheral. -/
def services (s : Script) (p : GattSync.Peripheral) : Except Error (List Dummy.Service) :=
  match s.peripherals.find? fun q => q.peripheral.id == p.id with
  | some q => .ok q.services
  | none => .error (.peripheralNotFound p.id)

/-- A characteristic of a peripheral. -/
def find (s : Script) (p : GattSync.Peripheral) (c : GattSync.Characteristic) :
    Except Error Dummy.Characteristic := do
  match Dummy.find? (← s.services p) c.service c.uuid with
  | some d => .ok d
  | none => .error (.characteristicNotFound c.uuid.text)

end Script

/-- Changes the script. -/
def changeScript (f : Script → Script) : Prog Unit :=
  change fun w => { w with script := f w.script }

/-- Emits an event of the scripted session, if a queue is open. -/
def emit (event : Event) : Prog Unit :=
  change fun w =>
    match w.script.queue with
    | some queue => w.enqueue queue event
    | none => w

/-- Closes the queue of the scripted session. -/
def closeQueue : Prog Unit := changeScript fun s => { s with queue := none }

namespace Script

/-- Answers a request that no rule stands against. -/
def reply : (r : Session.Request Listener) → Prog r.Answer
  | .start => do
    let queue ← openQueue
    let script := (← look).script
    changeScript fun s => { s with queue := some queue, starts := s.starts + 1 }
    match script.adapter with
    | some state => emit (.adapterState state)
    | none => pure ()
    (script.cues.filter fun c => c.cycle == script.starts).forM fun c => do
      let _ ← Clockwork.spawn (.cue (← Clockwork.after c.after) script.starts c.event)
    return .ok queue
  | .stop => do
    closeQueue
    return .ok ()
  | .scan _ => do
    let script := (← look).script
    if script.scanEmits then
      script.peripherals.forM fun p =>
        emit (.discovered p.peripheral { localName := p.advertisedName } p.rssi)
    return .ok ()
  | .stopScanning => return .ok ()
  | .connect p => do
    let script := (← look).script
    changeScript fun s => { s with connects := s.connects + 1 }
    if script.connectEmits then
      emit (.connected p (script.connectErrors[script.connects]?).join)
    return .ok ()
  | .cancelConnection p => do
    if (← look).script.cancelEmits then emit (.disconnected p none)
    return .ok ()
  | .setMtu _ _ => return .ok ()
  | .discoverServices p =>
    return ((← look).script.services p).map fun services => services.map (·.listed)
  | .discoverCharacteristics p s =>
    return ((← look).script.services p).map fun services =>
      (services.filter fun t => t.uuid == s.uuid).flatMap fun t =>
        t.characteristics.map (·.listed t.uuid)
  | .discoverDescriptors p c =>
    return ((← look).script.find p c).map fun _ => []
  | .read p c => do
    let script := (← look).script
    return (script.find p c).map fun d => script.written.value p.id c.service d
  | .write p c payload _ => do
    match (← look).script.find p c with
    | .error e => return .error e
    | .ok d =>
      changeScript fun s => { s with written := s.written.write p.id c.service d payload }
      return .ok ()
  | .subscribe p c listener => do
    match (← look).script.find p c with
    | .error e => return .error e
    | .ok d =>
      changeScript fun s => { s with listeners := s.listeners ++ [(c.uuid, listener)] }
      d.notifications.forM fun (time, payload) => do
        let _ ← Clockwork.spawn (.deliver (← Clockwork.after time) listener payload)
      return .ok ()

/-- Answers a request. A stop closes the queue even if it fails. -/
def answer (r : Session.Request Listener) : Prog r.Answer := do
  log (.session r)
  let rule := Rule.find? (← look).script.rules (callName r) (callKey r)
  changeScript fun s => { s with rules := Rule.tally s.rules (callName r) (callKey r) }
  match ← Rule.obey rule with
  | none => reply r
  | some e =>
    match r with
    | .stop => closeQueue
    | _ => pure ()
    return .error e

/-- Emits a scripted event at its time, unless the session has been started again. -/
def play (time : Duration) (start : Nat) (event : Option Event) : Prog Unit := do
  Clockwork.sleepUntil time
  if (← look).script.starts = start + 1 then
    match event with
    | some event => emit event
    | none => closeQueue

/-- Hands a value to everything that listens to a characteristic; the result is their number. -/
def notify (characteristic : Uuid) (payload : Bytes) : Prog Nat := do
  let listeners := (← look).script.listeners.filter fun l => l.1 == characteristic
  listeners.forM fun l => deliver l.2 payload
  return listeners.length

end Script
end GattSync.Rehearsal
