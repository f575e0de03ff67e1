import GattSync.Status.Snapshot

/-!
# Status stores

A store is a snapshot that several holders update in place. Stores are kept side by side and named
by number: whoever holds the number of a store sees its current snapshot, and a snapshot taken from
it is a value of its own.
-/

namespace GattSync.Status

/-- The number of a store. -/
abbrev Store := Nat

/-- All stores, each with its current snapshot. -/
structure Stores where
  snapshots : List Snapshot := []
  deriving DecidableEq, Repr, Inhabited

namespace Stores

/-- Adds a store that starts from a snapshot. -/
def create (s : Stores) (seed : Snapshot) : Store × Stores :=
  (s.snapshots.length, ⟨s.snapshots ++ [seed]⟩)

/-- The current snapshot of a store; empty for a number that names none. -/
def snapshot (s : Stores) (store : Store) : Snapshot := (s.snapshots[store]?).getD .empty

/-- Updates a property in one store. -/
def upsert (s : Stores) (store : Store) (now : Timestamp) (name desired reported : String) :
    Stores :=
  ⟨s.snapshots.modify store fun snapshot => snapshot.upsert now name desired reported⟩

theorem snapshot_create (s : Stores) (seed : Snapshot) :
    (s.create seed).2.snapshot (s.create seed).1 = seed := by
  simp [create, snapshot]

theorem snapshot_create_of_lt (s : Stores) (seed : Snapshot) {store : Store}
    (h : store < s.snapshots.length) : (s.create seed).2.snapshot store = s.snapshot store := by
  simp [create, snapshot, List.getElem?_append_left h]

theorem snapshot_upsert_self (s : Stores) {store : Store} (h : store < s.snapshots.length)
    (now : Timestamp) (name desired reported : String) :
    (s.upsert store now name desired reported).snapshot store =
      (s.snapshot store).upsert now name desired reported := by
  simp [upsert, snapshot, h]

/-- An update of one store leaves the others as they are. -/
theorem snapshot_upsert_of_ne (s : Stores) {store other : Store} (h : other ≠ store)
    (now : Timestamp) (name desired reported : String) :
    (s.upsert store now name desired reported).snapshot other = s.snapshot other := by
  simp [upsert, snapshot, Ne.symm h]

end Stores
end GattSync.Status
