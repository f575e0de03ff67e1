import GattSync.Status.Snapshot

/-!
# Status feeds

A feed hands publications out to any number of subscribers. It holds the most recent ones, as many
as its capacity rounded up to a power of two. Each subscriber reads on from where it is; one that
has fallen behind what is held is told how many publications it has missed, once, and goes on with
the oldest one held. Publications made while nobody is subscribed are dropped.

Several handles can publish to one feed. When the last one is gone the feed is closed, which a
subscriber sees after it has read the rest.
-/

namespace GattSync

/-- The identity of a managed device. -/
structure DeviceIdentity where
  nspace : String
  /-- Unique within the namespace. -/
  name : String
  deriving DecidableEq, Repr, Inhabited

def DeviceIdentity.text (i : DeviceIdentity) : String := i.nspace ++ "/" ++ i.name

namespace Status

/-- A published status. -/
structure Publication where
  device : DeviceIdentity
  status : Snapshot
  deriving DecidableEq, Repr

/-- What a subscriber gets when it asks without waiting. -/
inductive Receipt where
  | publication (p : Publication)
  /-- So many publications were overwritten before they were read. -/
  | lagged (missed : Nat)
  | empty
  | closed
  deriving DecidableEq, Repr

/-- A feed, with its handles and subscribers named by number. -/
structure Feed where
  /-- The most publications held. -/
  bound : Nat
  /-- How many publications have entered the feed. -/
  sent : Nat := 0
  /-- The last of them, oldest first. -/
  held : List Publication := []
  /-- For each handle made, whether it is still in use. -/
  handles : List Bool := [true]
  /-- For each subscriber, how many publications had been sent up to where it has read. -/
  cursors : List (Option Nat) := []
  deriving DecidableEq, Repr

namespace Feed

/-- The smallest power of two that is not below `n`, searched among `tries` candidates from `p`. -/
def powerOfTwo (n : Nat) : (tries p : Nat) → Nat
  | 0, p => p
  | tries + 1, p => if n ≤ p then p else powerOfTwo n tries (2 * p)

/-- The octets that a feed sets aside for each publication it can hold. -/
def slotSize : Nat := 96

/-- The octets that can be set aside together stay below this number. -/
def storageLimit : Nat := Nat.pow 2 63

/-- A feed with one handle. There is no feed of capacity zero, and none whose slots do not fit in
storage. -/
def create? (capacity : Nat) : Option Feed :=
  let bound := powerOfTwo capacity 63 1
  if capacity = 0 ∨ storageLimit ≤ slotSize * bound then none else some { bound }

/-- The capacity of a feed that is made without one. -/
def defaultCapacity : Nat := 32

/-- Number of subscribers. -/
def subscriberCount (f : Feed) : Nat := f.cursors.countP (·.isSome)

/-- A handle is still in use. -/
def isClosed (f : Feed) : Bool := !f.handles.any id

/-- Sends a publication to all subscribers. -/
def publish (f : Feed) (p : Publication) : Feed :=
  if f.subscriberCount = 0 then f
  else
    let held := f.held ++ [p]
    { f with sent := f.sent + 1, held := held.drop (held.length - f.bound) }

/-- Adds a subscriber, which gets what is sent from now on. -/
def subscribe (f : Feed) : Nat × Feed :=
  (f.cursors.length, { f with cursors := f.cursors ++ [some f.sent] })

def unsubscribe (f : Feed) (subscriber : Nat) : Feed :=
  { f with cursors := f.cursors.set subscriber none }

/-- Adds a handle. -/
def clone (f : Feed) : Nat × Feed :=
  (f.handles.length, { f with handles := f.handles ++ [true] })

/-- Gives a handle up. -/
def drop (f : Feed) (handle : Nat) : Feed :=
  { f with handles := f.handles.set handle false }

/-- The position of the oldest publication held. -/
def oldest (f : Feed) : Nat := f.sent - f.held.length

/-- What a subscriber gets next. -/
def receive (f : Feed) (subscriber : Nat) : Receipt × Feed :=
  match f.cursors[subscriber]? with
  | some (some cursor) =>
    let move (n : Nat) : Feed := { f with cursors := f.cursors.set subscriber (some n) }
    if cursor < f.oldest then (.lagged (f.oldest - cursor), move f.oldest)
    else match f.held[cursor - f.oldest]? with
      | some p => (.publication p, move (cursor + 1))
      | none => (if f.isClosed then .closed else .empty, f)
  | _ => (.closed, f)

end Feed
end Status
end GattSync
