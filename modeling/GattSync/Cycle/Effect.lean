import GattSync.Config.Basic
import GattSync.Session

/-!
# What a cycle does

A cycle talks to its session, records what it has observed, holds a connection for a while, and
tells when its peripheral has disconnected. These are the operations of its programs. A listener is
named by the property that is to report what is notified.
-/

namespace GattSync.Cycle

/-- An operation of a cycle. -/
inductive Effect where
  | session (request : Session.Request String)
  /-- Records the value of a property; `desired` is empty unless the value was written. -/
  | record (property desired reported : String)
  /-- Waits for notifications. -/
  | hold (window : Duration)
  /-- Tells that the peripheral has disconnected. -/
  | finish
  /-- Hands the status recorded so far to the publisher. -/
  | publish
  deriving DecidableEq, Repr

/-- What an operation is answered with. -/
abbrev Effect.Answer : Effect → Type
  | .session request => request.Answer
  | _ => Unit

/-- The operations of a cycle with their answers. -/
abbrev effects : Signature := ⟨Effect, Effect.Answer⟩

/-- A program of a cycle. -/
abbrev Prog (α : Type) : Type := Program effects α

/-- Asks the session. -/
def ask (request : Session.Request String) : Prog request.Answer :=
  .perform (S := effects) (.session request)

def record (property desired reported : String) : Prog Unit :=
  .perform (S := effects) (.record property desired reported)

def hold (window : Duration) : Prog Unit := .perform (S := effects) (.hold window)

def finish : Prog Unit := .perform (S := effects) .finish

def publish : Prog Unit := .perform (S := effects) .publish

/-! ## How a cycle begins and ends

A cycle starts its session and stops it again; in between it listens. Its status is published once,
at the point that the configuration names. A session that cannot be started is not stopped either:
the cycle ends there, with its publication.
-/

/-- Starts the session; the result is the queue of its events. -/
def opening (point : PublishPoint) : Prog (Option Session.Queue) := do
  match ← ask .start with
  | .ok queue =>
    if point = .onStart then publish
    return some queue
  | .error _ =>
    publish
    return none

/-- Stops the session. -/
def closing (point : PublishPoint) : Prog Unit := do
  let _ ← ask .stop
  if point = .afterCycle then publish

end GattSync.Cycle
