import GattSync.Config.Basic
import GattSync.Spec.Basic
import GattSync.Status.Feed

/-!
# Devices

A device owns the resync loop of one peripheral. It is configured with a spec, which replaces the
loop that is running, and shut down. Both change the lifecycle, and they do so one after the other:
a call enters a line, and the call at its head takes what the device holds of the running loop, the
right to stop it and the handle to wait for it. It returns when that loop has ended; a call to
configure spawns its own loop as it returns.

A loop that is told to stop finishes the cycle it is in.
-/

namespace GattSync

/-- What the status of a cycle starts from, given the status published last. -/
def SyncConfig.seed (c : SyncConfig) (initial : Status.Snapshot) (last : Option Status.Snapshot) :
    Status.Snapshot :=
  match c.statusSeed with
  | .initial => initial
  | .previous => last.getD initial
  | .empty => .empty

/-- A resync loop. -/
structure Device.Loop where
  spec : DeviceSpec
  /-- The status given along with the spec. -/
  initial : Status.Snapshot
  /-- The loop has been told to stop. -/
  isStopped : Bool := false
  hasEnded : Bool := false
  deriving Repr

/-- A call that changes the lifecycle. -/
inductive Device.Call where
  | configure (spec : DeviceSpec) (initial : Status.Snapshot)
  | shutdown
  deriving Repr

/-- How far a call has come. -/
inductive Device.Progress where
  /-- It has not had its turn. -/
  | inLine
  /-- It has stopped the loop that was running, if any, and waits for it to end. -/
  | stopping (loop : Option Nat)
  deriving DecidableEq, Repr

/-- A call that has not returned. -/
structure Device.Pending where
  caller : Nat
  call : Device.Call
  progress : Device.Progress := .inLine
  deriving Repr

/-- A managed device. -/
structure Device where
  identity : DeviceIdentity
  config : SyncConfig
  lastPublished : Option Status.Snapshot := none
  /-- All loops ever spawned, named by number. -/
  loops : List Device.Loop := []
  /-- The loop that the device can tell to stop. -/
  signal : Option Nat := none
  /-- The loop that the device can wait for. -/
  handle : Option Nat := none
  /-- The calls that have not returned, in order of arrival. -/
  line : List Device.Pending := []
  deriving Repr

namespace Device

/-- A device without a loop. A configuration that cannot be run is refused. -/
def create (identity : DeviceIdentity) (config : SyncConfig) : Except Error Device := do
  config.validate
  return { identity, config }

/-- The loop has ended, or there never was one of that number. -/
def hasEnded (d : Device) (loop : Nat) : Bool :=
  match d.loops[loop]? with
  | some l => l.hasEnded
  | none => true

/-- The loop has been told to stop. -/
def isStopped (d : Device) (loop : Nat) : Bool :=
  match d.loops[loop]? with
  | some l => l.isStopped
  | none => true

/-- The device holds the handle of a loop that has not ended. -/
def isRunning (d : Device) : Bool :=
  match d.handle with
  | some loop => !d.hasEnded loop
  | none => false

/-- Takes note that a loop has ended. -/
def endLoop (d : Device) (loop : Nat) : Device :=
  { d with loops := d.loops.modify loop fun l => { l with hasEnded := true } }

/-- Gives the stop signal up, which tells its loop to stop. -/
def stop (d : Device) : Device :=
  match d.signal with
  | some loop =>
    { d with
      signal := none
      loops := d.loops.modify loop fun l => { l with isStopped := true } }
  | none => d

/-- Spawns a loop. -/
def spawn (d : Device) (spec : DeviceSpec) (initial : Status.Snapshot) : Device :=
  { d with
    loops := d.loops ++ [{ spec, initial }]
    signal := some d.loops.length
    handle := some d.loops.length }

/-- A call joins the line. -/
def enter (d : Device) (caller : Nat) (call : Call) : Device :=
  { d with line := d.line ++ [{ caller, call }] }

/-- The call of this caller is at the head of the line. -/
def isFirst (d : Device) (caller : Nat) : Bool :=
  match d.line with
  | p :: _ => p.caller == caller
  | [] => false

/-- Gives the call at the head of the line its turn: it tells the running loop to stop and takes the
handle to wait for it. -/
def grant (d : Device) : Device :=
  match d.line with
  | { caller, call, progress := .inLine } :: rest =>
    { d.stop with handle := none, line := ⟨caller, call, .stopping d.handle⟩ :: rest }
  | _ => d

/-- The call at the head of the line has nothing left to wait for. -/
def canReturn (d : Device) : Bool :=
  match d.line with
  | { progress := .stopping (some loop), .. } :: _ => d.hasEnded loop
  | { progress := .stopping none, .. } :: _ => true
  | _ => false

/-- The call at the head of the line returns. -/
def complete (d : Device) : Device :=
  match d.line with
  | { call := .configure spec initial, .. } :: rest => { d.spawn spec initial with line := rest }
  | _ :: rest => { d with line := rest }
  | [] => d

/-- A caller abandons its call; what the call has taken is lost. -/
def abandon (d : Device) (caller : Nat) : Device :=
  { d with line := d.line.filter fun p => p.caller != caller }

/-- The device is given up. Its loop, if it has one, ends after the cycle it is in. -/
def dispose (d : Device) : Device := d.stop

/-- Takes note of a publication. -/
def remember (d : Device) (status : Status.Snapshot) : Device :=
  { d with lastPublished := some status }

/-! ## What a change does to what can be seen -/

theorem hasEnded_endLoop_self (d : Device) (loop : Nat) :
    (d.endLoop loop).hasEnded loop = true := by
  cases h : d.loops[loop]? <;> simp [endLoop, hasEnded, h]

theorem hasEnded_endLoop_of_ne (d : Device) {loop other : Nat} (h : other ≠ loop) :
    (d.endLoop loop).hasEnded other = d.hasEnded other := by
  simp [endLoop, hasEnded, Ne.symm h]

@[simp] theorem signal_stop (d : Device) : d.stop.signal = none := by
  cases h : d.signal <;> simp [stop, h]

@[simp] theorem handle_stop (d : Device) : d.stop.handle = d.handle := by
  cases h : d.signal <;> simp [stop, h]

end Device
end GattSync
