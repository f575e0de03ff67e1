import GattSync.Adapter.Session
import GattSync.Rehearsal.Scene
import GattSync.Rehearsal.Script

/-!
# Staging

What the operations of cycles and resync loops are in a rehearsal, and how its jobs are carried out.
-/

namespace GattSync.Rehearsal

/-- Answers a request to the session. -/
def session (r : Session.Request Listener) : Prog r.Answer := do
  match (← look).backing with
  | .script => Script.answer r
  | .adapter => onPlatform (Adapter.answer r)

/-- Publishes the status in a store. -/
def publish (store : Status.Store) : Prog Unit := do
  let w ← look
  match w.device with
  | none => return ()
  | some d =>
    let status := w.stores.snapshot store
    log (.published d.identity status)
    change fun w => { w with device := w.device.map (·.remember status) }

/-- What the operations of a cycle are, for one that records into this store. -/
def cycleOperation (store : Status.Store) : (e : Cycle.Effect) → Prog e.Answer
  | .session r => r.via (Listener.report store) session
  | .record property desired reported => upsert store property desired reported
  | .hold window => Clockwork.sleep window
  | .finish => return ()
  | .publish => publish store

/-- A program of a cycle that records into this store. -/
def cycle {α : Type} (store : Status.Store) (p : Cycle.Prog α) : Prog α :=
  p.interpret (cycleOperation store)

/-! ## Resync loops

A loop listens for two things side by side, the events of its queue and the word that the cycle is
over. It looks for the events first in the first of its turns and in every second one after that,
and for the word first in the others. The word is given with the last event. So in a turn of the
latter kind it comes after the loop has looked for it: the loop hears it in its next turn, and all
other tasks have theirs before. In a turn of the former kind it is heard at once, but if the loop
has looked for it in an earlier turn, it rouses the loop all the same. So does the loss of the word
when the deadline passes, and so does being told to stop once the loop has rested.
-/

/-- Notes the turn in which a loop begins to listen to a queue. -/
def beginListening (queue : Session.Queue) : Prog Unit := do
  let turn ← Clockwork.turn
  change fun w =>
    if (w.firstTurns.lookup queue).isSome then w
    else { w with firstTurns := (queue, turn) :: w.firstTurns }

/-- Stops receiving from a queue. -/
def leave (queue : Session.Queue) : Prog Unit :=
  change fun w => { w with abandoned := queue :: w.abandoned }

/-- Stops receiving from a queue at the word that the cycle is over. -/
def conclude (task : Nat) (queue : Session.Queue) : Prog Unit := do
  leave queue
  let turn ← Clockwork.turn
  let passed := turn - ((← look).firstTurns.lookup queue).getD turn
  if passed % 2 = 1 then Clockwork.pass
  else if 0 < passed then Clockwork.rouse task

/-- Rouses the loop that the device can tell to stop, if it has listened for that before. -/
def rouseLoop : Prog Unit := do
  let w ← look
  match (w.device.bind (·.signal)).bind (w.rested.lookup ·) with
  | some task => Clockwork.rouse task
  | none => return ()

/-- What the operations of a resync loop are, for one that a certain task runs. -/
def loopOperation (task loop : Nat) : (e : Resync.Effect) → Prog e.Answer
  | .cycle store e => cycleOperation store e
  | .now => Clockwork.now
  | .lastPublished => return (← look).device.bind (·.lastPublished)
  | .openStore seed => openStore seed
  | .receive queue => do
    beginListening queue
    receive queue
  | .conclude queue => conclude task queue
  | .abandon queue => do
    leave queue
    Clockwork.rouse task
  | .rest deadline => do
    change fun w =>
      if (w.rested.lookup loop).isSome then w else { w with rested := (loop, task) :: w.rested }
    Clockwork.awaitUntil deadline (·.isStopped loop)

/-! ## Jobs -/

/-- Carries out a job. -/
def perform (task : Nat) : Job → Prog (Option Job)
  | .loop loop settings phase => do
    match ← (phase.run settings).interpret (loopOperation task loop) with
    | some next => return some (.loop loop settings next)
    | none =>
      change fun w => { w with device := w.device.map (·.endLoop loop) }
      return none
  | .work worker => do
    if ← onPlatform worker.round then return some (.work worker)
    else
      dismiss task
      return none
  | .cue time start event => do
    Script.play time start event
    return none
  | .deliver time listener payload => do
    Clockwork.sleepUntil time
    deliver listener payload
    return none
  | .occur time event => do
    Clockwork.sleepUntil time
    changeScene (·.occur event)
    return none
  | .notify time id notification => do
    Clockwork.sleepUntil time
    changeScene (·.notify id notification)
    return none

/-- The deadline of a job, and the job that takes its place. -/
def expiry? : Job → Option (Duration × Job)
  | .loop loop settings phase =>
    phase.expiry?.map fun (deadline, next) => (deadline, .loop loop settings next)
  | _ => none

/-- How a rehearsal runs. -/
def clockwork : Clockwork World Job := ⟨perform, expiry?⟩

/-- The state of a run. -/
abbrev State : Type := Clockwork.State World Job

end GattSync.Rehearsal
