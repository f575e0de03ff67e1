import GattSync.Adapter.Effect
import GattSync.Device
import GattSync.Rehearsal.Dummy
import GattSync.Rehearsal.Rules
import GattSync.Resync.Phase
import GattSync.Status.Stores

/-!
# The world of a rehearsal

A rehearsal runs the library against a script in place of a Bluetooth adapter. There are two kinds
of scripts: a session that answers by itself, and a platform below an adapter session. The world
holds the script and how far it has been played, the stores, queues and streams in use, and the log
of all that was asked for.
-/

namespace GattSync.Rehearsal

/-- Where a notified value goes. -/
inductive Listener where
  | report (store : Status.Store) (property : String)
  | log (name : String)
  deriving DecidableEq, Repr

/-- A line of the log. -/
inductive Line where
  | session (request : Session.Request Listener)
  /-- A request to the platform, with the peripheral it is for. -/
  | platform (peripheral : String) (request : Platform.Request)
  | published (device : DeviceIdentity) (status : Status.Snapshot)
  | heard (name : String) (payload : Bytes)
  deriving Repr

structure Entry where
  time : Duration
  line : Line
  deriving Repr

/-! ## Pipes -/

/-- What has been sent and not been received. -/
structure Pipe (α : Type) where
  items : List α := []
  isEnded : Bool := false
  deriving Repr

namespace Pipe

variable {α : Type}

/-- There is something to receive, or the end to take note of. -/
def isReady (p : Pipe α) : Bool := !p.items.isEmpty || p.isEnded

def push (p : Pipe α) (a : α) : Pipe α :=
  if p.isEnded then p else { p with items := p.items ++ [a] }

def pop (p : Pipe α) : Pipe α := { p with items := p.items.tail }

def close (p : Pipe α) : Pipe α := { p with isEnded := true }

end Pipe

/-! ## Scripts -/

structure Script.Peripheral where
  peripheral : GattSync.Peripheral
  advertisedName : Option String := none
  rssi : Option Int := none
  services : List Dummy.Service := []
  deriving Repr

/-- An event that a scripted session emits by itself. -/
structure Script.Cue where
  /-- The start it belongs to, from zero. -/
  cycle : Nat
  after : Duration
  /-- Without an event, the queue is closed. -/
  event : Option Event
  deriving Repr

structure Script where
  peripherals : List Script.Peripheral := []
  rules : List (Rule Error) := []
  /-- The state emitted by a start. -/
  adapter : Option AdapterState := none
  scanEmits : Bool := true
  connectEmits : Bool := true
  cancelEmits : Bool := true
  /-- The errors of the connections, in order; there are none beyond the list. -/
  connectErrors : List (Option String) := []
  cues : List Script.Cue := []
  starts : Nat := 0
  connects : Nat := 0
  queue : Option Session.Queue := none
  written : Memory := []
  /-- What listens to which characteristic, in order of subscription. -/
  listeners : List (Uuid × Listener) := []
  deriving Repr

structure Scene.Peripheral where
  id : String
  properties : Option Platform.Properties := none
  services : List Dummy.Service := []
  deriving Repr

structure Scene where
  isAvailable : Bool := true
  adapters : List String := ["hci0"]
  state : AdapterState := .poweredOn
  peripherals : List Scene.Peripheral := []
  rules : List (Rule PlatformError) := []
  scanEmits : Bool := true
  disconnectEmits : Bool := false
  /-- What happens by itself, and when. -/
  timeline : List (Duration × Platform.Event) := []
  connected : List String := []
  /-- For each handle, its peripheral and the services it lists. -/
  handles : List (String × List Platform.Service) := []
  events : List (Pipe Platform.Event) := []
  /-- The streams of notified values, each with its peripheral. -/
  values : List (String × Pipe Platform.Notification) := []
  written : Memory := []
  deriving Repr

/-! ## The world -/

/-- What answers the requests to a session. -/
inductive Backing where
  | script
  /-- An adapter session on the scripted platform. -/
  | adapter
  deriving DecidableEq, Repr

structure World where
  backing : Backing
  script : Script := {}
  scene : Scene := {}
  tables : Adapter.Tables Listener := {}
  /-- The workers of the adapter session, each with its task. -/
  workers : List (Adapter.Task × Adapter.Worker) := []
  stores : Status.Stores := {}
  queues : List (List Event) := []
  /-- The queues that nobody receives from any more. -/
  abandoned : List Session.Queue := []
  /-- For each queue that a loop listens to, the turn in which the loop began to. -/
  firstTurns : List (Session.Queue × Nat) := []
  /-- For each loop that has rested, its task, which is roused when the loop is told to stop. -/
  rested : List (Nat × Nat) := []
  device : Option Device := none
  log : Array Entry := #[]

namespace World

/-- Nobody can send to the queue any more. -/
def isClosed (w : World) (queue : Session.Queue) : Bool :=
  w.script.queue != some queue && w.tables.events != some queue &&
    !w.workers.any fun
      | (_, .forward _ q) => q == queue
      | _ => false

def waiting (w : World) (queue : Session.Queue) : List Event := (w.queues[queue]?).getD []

def isAbandoned (w : World) (queue : Session.Queue) : Bool := w.abandoned.contains queue

/-- Puts an event into a queue, if anybody receives from it. -/
def enqueue (w : World) (queue : Session.Queue) (event : Event) : World :=
  if w.isAbandoned queue then w
  else { w with queues := w.queues.modify queue fun events => events ++ [event] }

def isStopped (w : World) (loop : Nat) : Bool :=
  match w.device with
  | some d => d.isStopped loop
  | none => true

end World

/-- The stamp of an entry updated at a moment of a rehearsal. -/
def stamp (now : Duration) : Timestamp :=
  ⟨1700000000 + now.seconds, now.nanos % 1000000000⟩

/-! ## Jobs and programs -/

/-- A job of a rehearsal. -/
inductive Job where
  /-- A phase of a resync loop. -/
  | loop (loop : Nat) (settings : Resync.Settings) (phase : Resync.Phase)
  /-- A round of a worker. -/
  | work (worker : Adapter.Worker)
  /-- An event that a scripted session emits by itself. -/
  | cue (time : Duration) (start : Nat) (event : Option Event)
  /-- A value that a scripted session notifies. -/
  | deliver (time : Duration) (listener : Listener) (payload : Bytes)
  /-- An event of a scripted platform. -/
  | occur (time : Duration) (event : Platform.Event)
  /-- A value that a peripheral of a scripted platform notifies. -/
  | notify (time : Duration) (id : String) (notification : Platform.Notification)

/-- A program of a rehearsal. -/
abbrev Prog (α : Type) : Type := Program (Clockwork.effects World Job) α

def look : Prog World := Clockwork.look

def change (f : World → World) : Prog Unit := Clockwork.change f

/-- Writes a line into the log. -/
def log (line : Line) : Prog Unit := do
  let time ← Clockwork.now
  change fun w => { w with log := w.log.push ⟨time, line⟩ }

/-- Updates a property in a store. -/
def upsert (store : Status.Store) (property desired reported : String) : Prog Unit := do
  let time ← Clockwork.now
  change fun w =>
    { w with stores := w.stores.upsert store (stamp time) property desired reported }

/-- Opens a store. -/
def openStore (seed : Status.Snapshot) : Prog Status.Store := do
  let (store, _) := (← look).stores.create seed
  change fun w => { w with stores := (w.stores.create seed).2 }
  return store

/-- Hands a notified value to its listener. -/
def deliver (listener : Listener) (payload : Bytes) : Prog Unit :=
  match listener with
  | .report store property => upsert store property "" (Text.Payload.quote payload)
  | .log name => log (.heard name payload)

/-- Opens a queue. -/
def openQueue : Prog Session.Queue := do
  let queue := (← look).queues.length
  change fun w => { w with queues := w.queues ++ [[]] }
  return queue

/-- Waits for the next event in a queue; none is left once it is closed. -/
def receive (queue : Session.Queue) : Prog (Option Event) := do
  Clockwork.await fun w => !(w.waiting queue).isEmpty || w.isClosed queue
  let event := ((← look).waiting queue).head?
  change fun w => { w with queues := w.queues.modify queue List.tail }
  return event

end GattSync.Rehearsal
