import GattSync.Rehearsal.DeviceTrial

/-!
# Trials of an adapter session

Makes requests to an adapter session, one after the other, while the scripted platform below it does
things of its own. After each step everything that can happen happens, and a little time passes.
-/

namespace GattSync.Rehearsal.SessionTrial

/-- A step of a trial. -/
inductive Step where
  | request (request : Session.Request Listener)
  | adapterName
  /-- Gives the session up. -/
  | drop
  /-- Stops receiving from a queue. -/
  | abandon (queue : Session.Queue)
  | sleep (time : Duration)
  | occur (event : Platform.Event)
  | notify (id : String) (notification : Platform.Notification)
  | endEvents
  | endValues (id : String)

/-- What a step has led to. -/
inductive Outcome where
  | none
  | done
  | failed (error : Error)
  | name (name : String)
  | queue (queue : Session.Queue)
  | services (services : List Service)
  | characteristics (characteristics : List Characteristic)
  | descriptors (uuids : List Uuid)
  | value (payload : Bytes)

/-- What has come out of a queue. -/
structure Received where
  events : List Event
  /-- The queue is closed, and nothing more will come. -/
  isClosed : Bool

/-- A step's outcome, the requests to the platform, and what has come out of each queue; nothing can
be told of a queue that nobody receives from. -/
structure Report where
  outcome : Outcome
  calls : List Entry
  received : List (Option Received)

/-- The reply to a request as an outcome. -/
def Outcome.ofReply : (r : Session.Request Listener) → r.Reply → Outcome
  | .start, q => .queue q
  | .discoverServices _, ss => .services ss
  | .discoverCharacteristics _ _, cs => .characteristics cs
  | .discoverDescriptors _ _, ds => .descriptors ds
  | .read _ _, payload => .value payload
  | _, _ => .done

/-- Goes through a step. -/
def Step.run (name : String) : Step → Prog Outcome
  | .request r => do
    match ← onPlatform (Adapter.answer r) with
    | .ok reply => return .ofReply r reply
    | .error e => return .failed e
  | .adapterName => return .name name
  | .drop => do
    onPlatform Adapter.dispose
    return .none
  | .abandon queue => do
    change fun w => { w with abandoned := queue :: w.abandoned }
    return .none
  | .sleep time => do
    Clockwork.sleep time
    return .none
  | .occur event => do
    changeScene (·.occur event)
    return .none
  | .notify id notification => do
    changeScene (·.notify id notification)
    return .none
  | .endEvents => do
    changeScene (·.endEvents)
    return .none
  | .endValues id => do
    changeScene (·.endValues id)
    return .none

/-- What has come out of each queue. -/
def received (w : World) : List (Option Received) :=
  (List.range w.queues.length).map fun queue =>
    if w.isAbandoned queue then none else some ⟨w.waiting queue, w.isClosed queue⟩

/-- How much time passes after a step. -/
def pause : Duration := .ofMillis 1

/-- Goes through a step and lets the rest of the world settle; there is no report if the step never
ends. -/
def advance (name : String) (s : State) (step : Step) : State × Option Report :=
  let before := s.world.log.size
  let (s, outcome) := clockwork.run s (step.run name)
  let s := clockwork.settle s (s.now + pause)
  let calls := (s.world.log.extract before s.world.log.size).toList
  let report := outcome.map fun outcome => ⟨outcome, calls, received s.world⟩
  ({ s with world := { s.world with queues := s.world.queues.map fun _ => [] } }, report)

/-- Goes through steps for as long as they end. -/
def follow (name : String) (s : State) : List Step → List Report
  | [] => []
  | step :: rest =>
    match advance name s step with
    | (s, some report) => report :: follow name s rest
    | (_, none) => []

/-- The reports of a trial. -/
def run (scene : Scene) (steps : List Step) : Option (Except Error (List Report)) :=
  (adapterSession scene).map fun session => do
    let (s, name) ← session
    let s := (clockwork.run s startTimeline).1
    return follow name s steps

end GattSync.Rehearsal.SessionTrial
