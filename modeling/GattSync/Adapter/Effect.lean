import GattSync.Adapter.Tables

/-!
# What an adapter session does

The session asks the platform, reads and changes its tables, sends events to a queue, and runs two
kinds of background workers: one forwards the events of the adapter, and for each peripheral that is
listened to, one hands out its notified values.
-/

namespace GattSync.Adapter

/-- A background worker. -/
inductive Worker where
  /-- Forwards the adapter's events to a queue. -/
  | forward (stream : Platform.Stream) (queue : Session.Queue)
  /-- Hands out what a peripheral notifies. -/
  | listen (id : String) (stream : Platform.Stream)
  deriving DecidableEq, Repr

/-- An operation of a session or of a worker. -/
inductive Effect (η : Type) where
  | platform (request : Platform.Request)
  /-- Looks up the services that a handle lists. -/
  | services (handle : Platform.Handle)
  | tables
  | change (f : Tables η → Tables η)
  | openQueue
  /-- Sends an event, and says whether anybody is left to receive it. -/
  | send (queue : Session.Queue) (event : Event)
  | employ (worker : Worker)
  | abort (task : Task)
  /-- Waits for the next event of a stream; none is left once the stream has ended. -/
  | nextEvent (stream : Platform.Stream)
  /-- Waits for the next value of a stream; none is left once the stream has ended. -/
  | nextValue (stream : Platform.Stream)
  /-- Hands a notified value to a consumer. -/
  | deliver (consumer : η) (payload : Bytes)

/-- What an operation is answered with. -/
def Effect.Answer {η : Type} : Effect η → Type
  | .platform request => request.Answer
  | .services _ => List Platform.Service
  | .tables => Tables η
  | .openQueue => Session.Queue
  | .send _ _ => Bool
  | .employ _ => Task
  | .nextEvent _ => Option Platform.Event
  | .nextValue _ => Option Platform.Notification
  | _ => Unit

/-- The operations of a session with their answers. -/
abbrev effects (η : Type) : Signature := ⟨Effect η, Effect.Answer⟩

/-- A program of a session or of a worker. -/
abbrev Prog (η : Type) (α : Type) : Type := Program (effects η) α

variable {η : Type}

/-- Asks the platform. -/
def ask (request : Platform.Request) : Prog η request.Answer :=
  .perform (S := effects η) (.platform request)

def services (handle : Platform.Handle) : Prog η (List Platform.Service) :=
  .perform (S := effects η) (.services handle)

def tables : Prog η (Tables η) := .perform (S := effects η) .tables

def change (f : Tables η → Tables η) : Prog η Unit := .perform (S := effects η) (.change f)

def openQueue : Prog η Session.Queue := .perform (S := effects η) .openQueue

def send (queue : Session.Queue) (event : Event) : Prog η Bool :=
  .perform (S := effects η) (.send queue event)

def employ (worker : Worker) : Prog η Task := .perform (S := effects η) (.employ worker)

/-- Aborts a task, if there is one. -/
def abort : Option Task → Prog η Unit
  | some task => .perform (S := effects η) (.abort task)
  | none => return ()

def nextEvent (stream : Platform.Stream) : Prog η (Option Platform.Event) :=
  .perform (S := effects η) (.nextEvent stream)

def nextValue (stream : Platform.Stream) : Prog η (Option Platform.Notification) :=
  .perform (S := effects η) (.nextValue stream)

def deliver (consumer : η) (payload : Bytes) : Prog η Unit :=
  .perform (S := effects η) (.deliver consumer payload)

end GattSync.Adapter
