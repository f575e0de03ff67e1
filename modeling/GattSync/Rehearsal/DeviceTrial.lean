import GattSync.Rehearsal.Staging
import GattSync.Spec.Codec

/-!
# Trials of a device

Configures and shuts down a device and looks at it in between, on a scripted session or on an
adapter session over a scripted platform. The log has what its loops have asked for and published.
-/

namespace GattSync.Rehearsal

/-! ## The adapter session -/

/-- The state after an adapter session has been made, with the name of its adapter. -/
def adapterSession (scene : Scene) : Option (Except Error (State × String)) :=
  let (s, name) := clockwork.run { world := { backing := .adapter, scene } }
    (onPlatform Adapter.choose)
  name.map fun name => name.map fun name => ({ world := s.world, now := s.now }, name)

/-- Lets the events of a scripted platform happen at their times, which count from now. -/
def startTimeline : Prog Unit := do
  (← look).scene.timeline.forM fun (time, event) => do
    let _ ← Clockwork.spawn (.occur (← Clockwork.after time) event)

namespace DeviceTrial

/-! ## Steps -/

/-- A step of a trial. Specs are given as texts. -/
inductive Step where
  | configure (spec : String) (initial : Status.Snapshot)
  /-- Two calls at once, of which the first one is first. -/
  | configureBoth (first second : String × Status.Snapshot)
  | sleep (time : Duration)
  | shutdown
  | drop
  | inspect

/-- What can be seen of a device. -/
structure View where
  identity : DeviceIdentity
  isRunning : Bool
  mtu : UInt16
  lastPublished : Option Status.Snapshot

/-- What a step has led to. -/
inductive Outcome where
  | none
  | view (view : Option View)
  | failed (error : Error)

/-- The view of a device. -/
def View.of (d : Device) : View := ⟨d.identity, d.isRunning, d.config.mtu, d.lastPublished⟩

def changeDevice (f : Device → Device) : Prog Unit :=
  change fun w => { w with device := w.device.map f }

/-- Waits until the device is as wanted. -/
def awaitDevice (ready : Device → Bool) : Prog Unit :=
  Clockwork.await fun w => (w.device.map ready).getD true

/-- Waits for a call that has entered the line to return. -/
def follow (caller : Nat) (call : Device.Call) : Prog Unit := do
  awaitDevice (·.isFirst caller)
  rouseLoop
  changeDevice Device.grant
  awaitDevice Device.canReturn
  changeDevice Device.complete
  match call, (← look).device with
  | .configure spec initial, some d =>
    let _ ← Clockwork.spawn (.loop (d.loops.length - 1) ⟨d.config, spec, initial⟩ .launched)
  | _, _ => return ()

/-- Makes a call and waits for it to return. -/
def make (call : Device.Call) : Prog Unit := do
  changeDevice (·.enter 0 call)
  follow 0 call

/-- Goes through a step. -/
def Step.run : Step → Prog Outcome
  | .configure spec initial => do
    match DeviceSpec.ofText spec with
    | .error e => return .failed e
    | .ok spec =>
      make (.configure spec initial)
      return .none
  | .configureBoth first second => do
    match DeviceSpec.ofText first.1, DeviceSpec.ofText second.1 with
    | .error e, _ => return .failed e
    | _, .error e => return .failed e
    | .ok spec₀, .ok spec₁ =>
      changeDevice (·.enter 0 (.configure spec₀ first.2))
      changeDevice (·.enter 1 (.configure spec₁ second.2))
      follow 0 (.configure spec₀ first.2)
      follow 1 (.configure spec₁ second.2)
      return .none
  | .sleep time => do
    Clockwork.sleep time
    return .none
  | .shutdown => do
    make .shutdown
    return .none
  | .drop => do
    rouseLoop
    changeDevice Device.dispose
    return .none
  | .inspect => return .view ((← look).device.map View.of)

/-! ## Runs -/

/-- What a trial has led to: the time after each step and its outcome, and the log. -/
structure Result where
  steps : List (Duration × Outcome)
  log : List Entry

/-- Goes through the steps, from a world that has a session. -/
def runOn (s : State) (identity : DeviceIdentity) (config : SyncConfig) (steps : List Step) :
    Except Error (Option Result) := do
  let device ← Device.create identity config
  let main : Prog (List (Duration × Outcome)) := do
    startTimeline
    steps.mapM fun step => do
      let outcome ← step.run
      return (← Clockwork.now, outcome)
  let (s, results) := clockwork.run { s with world := { s.world with device := some device } } main
  return results.map fun steps => ⟨steps, s.world.log.toList⟩

/-- A trial on a scripted session; there is no result if a step never ends. -/
def run (script : Script) (identity : DeviceIdentity) (config : SyncConfig) (steps : List Step) :
    Except Error (Option Result) :=
  runOn { world := { backing := .script, script } } identity config steps

/-- A trial on an adapter session over a scripted platform. -/
def runOnPlatform (scene : Scene) (identity : DeviceIdentity) (config : SyncConfig)
    (steps : List Step) : Except Error (Option Result) := do
  match adapterSession scene with
  | none => return none
  | some session => runOn (← session).1 identity config steps

end DeviceTrial
end GattSync.Rehearsal
