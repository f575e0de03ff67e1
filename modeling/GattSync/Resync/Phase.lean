import GattSync.Cycle.Controller
import GattSync.Device
import GattSync.Resync.Effect
import GattSync.Resync.Ticker

/-!
# The phases of a resync loop

A loop is launched once, which sets its ticker; then, over and over, it begins a cycle, listens to
the events of the session, closes the cycle and rests until the next tick. Listening has a deadline:
when that passes, the phase is given up wherever it is, and the cycle is closed. Whether the loop
has been told to stop is looked at only while it rests.
-/

namespace GattSync.Resync

/-- What a loop is given. -/
structure Settings where
  config : SyncConfig
  spec : DeviceSpec
  /-- The status given along with the spec. -/
  initial : Status.Snapshot
  deriving Repr

/-- The plan of the controllers of a loop. -/
def Settings.plan (s : Settings) : Cycle.Plan where
  spec := s.spec
  mtu := s.config.mtu
  window := s.config.observationWindow

/-- A phase of a resync loop. -/
inductive Phase where
  /-- The loop has been spawned. -/
  | launched
  /-- A cycle begins. -/
  | begun (ticker : Ticker)
  /-- The events of the session are followed until a deadline. -/
  | listening (ticker : Ticker) (store : Status.Store) (queue : Session.Queue)
      (deadline : Duration) (controller : Cycle.Controller)
  /-- The deadline has passed. -/
  | expired (ticker : Ticker) (store : Status.Store) (queue : Session.Queue)
  /-- The session is to be stopped. -/
  | closing (ticker : Ticker) (store : Status.Store)
  /-- The cycle is over. -/
  | resting (ticker : Ticker)
  deriving DecidableEq, Repr

namespace Phase

/-- The deadline of a phase, and the phase that takes its place when the deadline passes. -/
def expiry? : Phase → Option (Duration × Phase)
  | .listening ticker store queue deadline _ => some (deadline, .expired ticker store queue)
  | _ => none

/-- Goes through a phase. The result is the next one; there is none after the end of the loop. A
loop whose first tick lies beyond the clock ends at once.

A cycle listens for its timeout, cut to 30 years like any wait (`Duration.capped`). For this wait it
has not been measured: if the timer library falls back on them only when the clock cannot count the
deadline, a longer timeout that the clock can count is kept to in full. -/
def run (s : Settings) : Phase → Prog (Option Phase)
  | .launched => do
    match Ticker.start? (← now) s.config.syncInterval with
    | some ticker => return some (.begun ticker)
    | none => return none
  | .begun ticker => do
    let store ← openStore (s.config.seed s.initial (← lastPublished))
    match ← within store (Cycle.opening s.config.publishPoint) with
    | some queue =>
      return some (.listening ticker store queue ((← now) + s.config.timeout.capped) {})
    | none => return some (.resting ticker)
  | .listening ticker store queue deadline controller => do
    match ← receive queue with
    | some event =>
      let controller ← within store (controller.handle s.plan event)
      if controller.connection.isDone then
        conclude queue
        return some (.closing ticker store)
      else return some (.listening ticker store queue deadline controller)
    | none =>
      conclude queue
      return some (.closing ticker store)
  | .expired ticker store queue => do
    abandon queue
    return some (.closing ticker store)
  | .closing ticker store => do
    within store (Cycle.closing s.config.publishPoint)
    return some (.resting ticker)
  | .resting ticker => do
    if ← rest ticker.deadline then return none
    else return some (.begun (ticker.next (← now)))

end Phase
end GattSync.Resync
