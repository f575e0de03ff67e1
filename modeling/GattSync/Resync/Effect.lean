import GattSync.Cycle.Effect
import GattSync.Status.Stores

/-!
# What a resync loop does

A loop reads the clock, opens a store for each cycle, waits for the events of the session, and rests
between cycles. What a cycle does is done with the cycle's store.
-/

namespace GattSync.Resync

/-- An operation of a loop. -/
inductive Effect where
  /-- An operation of the cycle that records into this store. -/
  | cycle (store : Status.Store) (effect : Cycle.Effect)
  /-- The time since the clock began. -/
  | now
  /-- The status that the device has published last. -/
  | lastPublished
  | openStore (seed : Status.Snapshot)
  /-- Waits for the next event; none is left once the queue is closed. -/
  | receive (queue : Session.Queue)
  /-- Stops receiving from a queue because the cycle is over. -/
  | conclude (queue : Session.Queue)
  /-- Stops receiving from a queue because the time for it has passed. -/
  | abandon (queue : Session.Queue)
  /-- Waits until a deadline, and says whether the loop has been told to stop. -/
  | rest (deadline : Duration)
  deriving DecidableEq, Repr

/-- What an operation is answered with. -/
abbrev Effect.Answer : Effect → Type
  | .cycle _ effect => effect.Answer
  | .now => Duration
  | .lastPublished => Option Status.Snapshot
  | .openStore _ => Status.Store
  | .receive _ => Option Event
  | .conclude _ => Unit
  | .abandon _ => Unit
  | .rest _ => Bool

/-- The operations of a loop with their answers. -/
abbrev effects : Signature := ⟨Effect, Effect.Answer⟩

/-- A program of a loop. -/
abbrev Prog (α : Type) : Type := Program effects α

def now : Prog Duration := .perform (S := effects) .now

def lastPublished : Prog (Option Status.Snapshot) := .perform (S := effects) .lastPublished

def openStore (seed : Status.Snapshot) : Prog Status.Store :=
  .perform (S := effects) (.openStore seed)

def receive (queue : Session.Queue) : Prog (Option Event) :=
  .perform (S := effects) (.receive queue)

def conclude (queue : Session.Queue) : Prog Unit := .perform (S := effects) (.conclude queue)

def abandon (queue : Session.Queue) : Prog Unit := .perform (S := effects) (.abandon queue)

def rest (deadline : Duration) : Prog Bool := .perform (S := effects) (.rest deadline)

/-- The program of a cycle that records into this store. -/
def within {α : Type} (store : Status.Store) (p : Cycle.Prog α) : Prog α :=
  p.interpret fun effect => .perform (S := effects) (.cycle store effect)

end GattSync.Resync
