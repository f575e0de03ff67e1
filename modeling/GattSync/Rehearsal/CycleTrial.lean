import GattSync.Rehearsal.AccessTrial

/-!
# Trials of a controller

Hands events to a controller on a scripted session: one after the other, with its state in between,
or all at once from a queue.
-/

namespace GattSync.Rehearsal.CycleTrial

/-- A step of a trial. -/
inductive Step where
  | event (event : Event)
  /-- Hands a value to everything that listens to a characteristic. -/
  | notify (characteristic : Uuid) (payload : Bytes)
  /-- Changes the status directly. -/
  | upsert (property desired reported : String)
  | sleep (time : Duration)

/-- The controller after a step, the requests made in it, and the status after it. -/
structure Report where
  /-- How many listeners were given a value. -/
  delivered : Option Nat
  controller : Cycle.Controller
  calls : List Entry
  status : Status.Snapshot

/-- Goes through a step. -/
def Step.run (plan : Cycle.Plan) (store : Status.Store) (c : Cycle.Controller) :
    Step → Prog (Option Nat × Cycle.Controller)
  | .event e => do
    return (none, ← cycle store (c.handle plan e))
  | .notify characteristic payload => do
    return (some (← Script.notify characteristic payload), c)
  | .upsert property desired reported => do
    Rehearsal.upsert store property desired reported
    return (none, c)
  | .sleep time => do
    Clockwork.sleep time
    return (none, c)

/-- Goes through steps in order. -/
def follow (plan : Cycle.Plan) (store : Status.Store) :
    Cycle.Controller → List Step → Prog (List Report)
  | _, [] => return []
  | c, step :: rest => do
    let ((delivered, c), calls) ← watch (step.run plan store c)
    let report := ⟨delivered, c, calls, (← look).stores.snapshot store⟩
    return report :: (← follow plan store c rest)

/-- The reports of a trial; there are none if a step never ends. -/
def run (script : Script) (plan : Cycle.Plan) (seed : Status.Snapshot) (steps : List Step) :
    Option (List Report) :=
  let main : Prog (List Report) := do
    follow plan (← openStore seed) {} steps
  (clockwork.run { world := { backing := .script, script } } main).2

/-- How long a controller is given to work off a queue. -/
def patience : Duration := .ofSeconds 3600

/-- What has become of a controller that was given a queue. -/
structure Result where
  /-- There is no controller if it was given up. -/
  controller : Option Cycle.Controller
  calls : List Entry
  status : Status.Snapshot

/-- Lets a controller work off a queue of events, which is closed behind them or not. -/
def drain (script : Script) (plan : Cycle.Plan) (seed : Status.Snapshot) (events : List Event)
    (isClosed : Bool) : Result :=
  let (store, stores) := Status.Stores.create {} seed
  let main : Prog Cycle.Controller := do
    let c ← cycle store (Cycle.Controller.run plan {} events)
    if !(c.connection.isDone || isClosed) then Clockwork.stall
    return c
  let (s, controller) := clockwork.runFor (some patience) Clockwork.allowance
    { world := { backing := .script, script, stores } } main
  ⟨controller, s.world.log.toList, s.world.stores.snapshot store⟩

end GattSync.Rehearsal.CycleTrial
