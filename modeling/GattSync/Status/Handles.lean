import GattSync.Status.Stores

/-!
# Handles of status stores

Whoever works with a store has a handle of it. A clone of a handle is a handle of the same store;
a snapshot taken through a handle is a copy, and a store that is made from a snapshot starts from a
copy too. Handles, and the snapshots taken, are named by number in the order in which they came
about.
-/

namespace GattSync.Status

/-- What a new store starts from. -/
inductive Seed where
  | empty
  | given (s : Snapshot)
  /-- A snapshot that was taken. -/
  | taken (n : Nat)
  deriving DecidableEq, Repr

/-- The stores, as those who work with them see them. -/
structure Handles where
  stores : Stores := {}
  /-- The store of each handle. -/
  held : List Store := []
  /-- The snapshots taken. -/
  taken : List Snapshot := []
  deriving DecidableEq, Repr

namespace Handles

/-- What can be done. -/
inductive Act where
  /-- Makes a store, with a first handle of it. -/
  | create (seed : Seed)
  | clone (handle : Nat)
  | upsert (handle : Nat) (now : Timestamp) (name desired reported : String)
  | get (handle : Nat) (name : String)
  | snapshot (handle : Nat)
  deriving DecidableEq, Repr

/-- What comes of it. -/
inductive Answer where
  /-- The number of a new handle. -/
  | handle (n : Nat)
  | done
  | entry (e : Option Entry)
  /-- The number of a snapshot that was taken. -/
  | taken (n : Nat)
  deriving DecidableEq, Repr

/-- What is seen through a handle. -/
def view? (s : Handles) (handle : Nat) : Option Snapshot := s.held[handle]?.map s.stores.snapshot

/-- The snapshot that a new store starts from. -/
def seed? (s : Handles) : Seed → Option Snapshot
  | .empty => some .empty
  | .given seed => some seed
  | .taken n => s.taken[n]?

/-- Makes a store and adds a handle of it. -/
def create (s : Handles) (seed : Snapshot) : Handles :=
  let (store, stores) := s.stores.create seed
  { s with stores, held := s.held ++ [store] }

/-- Does one thing; there is nothing to be done with a handle or a snapshot that is not there. -/
def act (s : Handles) : Act → Option (Answer × Handles)
  | .create seed => do
    let seed ← s.seed? seed
    some (.handle s.held.length, s.create seed)
  | .clone handle => do
    let store ← s.held[handle]?
    some (.handle s.held.length, { s with held := s.held ++ [store] })
  | .upsert handle now name desired reported => do
    let store ← s.held[handle]?
    some (.done, { s with stores := s.stores.upsert store now name desired reported })
  | .get handle name => do
    let snapshot ← s.view? handle
    some (.entry (snapshot.get? name), s)
  | .snapshot handle => do
    let snapshot ← s.view? handle
    some (.taken s.taken.length, { s with taken := s.taken ++ [snapshot] })

/-- Does one thing after the other, from the start. -/
def run (acts : List Act) : Option Handles :=
  acts.foldlM (fun s a => (s.act a).map (·.2)) {}

end Handles
end GattSync.Status
