import GattSync.Proofs.Device.Journal
import GattSync.Proofs.Status.Updates

/-!
# What the stores of a device hold

A store holds what it has been opened with, and the updates that were made in it since
(`Journal.snapshot_eq_updated`): what the operations of its cycle have recorded, and what the
listeners of the cycle have been told.
-/

namespace GattSync

namespace Device

open Resync

variable {may : Device → Nat → Prop} {identity : DeviceIdentity} {config : SyncConfig}
  {es before after : List Entry} {past rest : List Happening} {d : Device} {x : Happening}
  {l : Ledger} {k : Nat} {store : Status.Store} {seed : Status.Snapshot}

/-! ## Stores that are there -/

/-- The store in which a call of a journal is made has been opened before. -/
theorem Journal.mem_opened {effect : Cycle.Effect} {y : Option effect.Answer}
    (h : Journal may identity config es d)
    (hs : happenings es = past ++ .asked k ⟨.cycle store effect, y⟩ :: rest) :
    store ∈ opened (callsOf k past) :=
  List.mem_of_getLast? (h.getLast?_opened hs)

theorem Journal.lt_of_opened (h : Journal may identity config es d)
    (ho : store ∈ opened (callsOf k (happenings es))) :
    store < (ledger es).stores.snapshots.length := by
  rw [← List.mem_range, ← h.opens_eq]
  exact List.mem_map_of_mem (mem_opens.mpr ho)

/-- What a cycle does, it does with a store that is there. -/
theorem Journal.lt_of_cycle {effect : Cycle.Effect} {y : Option effect.Answer}
    (h : Journal may identity config es d)
    (hm : .asked k ⟨.cycle store effect, y⟩ ∈ happenings es) :
    store < (ledger es).stores.snapshots.length := by
  obtain ⟨past, rest, split⟩ := List.append_of_mem hm
  refine h.lt_of_opened (k := k) ?_
  rw [split, callsOf_append, opened_append]
  exact List.mem_append_left _ (h.mem_opened split)

/-! ## Updates of a store -/

/-- The update that is made in a store. -/
def Entry.update? (store : Status.Store) : Entry → Option Status.Entry
  | .happened (.asked _ ⟨.cycle other (.record property desired reported), _⟩) now =>
    if other = store then some ⟨property, desired, reported, now⟩ else none
  | .delivered other property payload now =>
    if other = store then some ⟨property, "", Text.Payload.quote payload, now⟩ else none
  | _ => none

/-- The updates that are made in a store, in their order: what the operations of its cycle record,
and what the listeners of the cycle are told. -/
def updatesOf (store : Status.Store) (es : List Entry) : List Status.Entry :=
  es.filterMap (Entry.update? store)

theorem updatesOf_append :
    updatesOf store (before ++ after) = updatesOf store before ++ updatesOf store after :=
  List.filterMap_append

theorem updatesOf_singleton (e : Entry) : updatesOf store [e] = (e.update? store).toList := by
  cases h : e.update? store <;> simp [updatesOf, h]

/-- An update is made by an operation of a cycle or by a listener. -/
theorem Entry.eq_of_update? {e : Entry} {u : Status.Entry} (h : e.update? store = some u) :
    (∃ k property desired reported y now,
      e = .happened (.asked k ⟨.cycle store (.record property desired reported), y⟩) now) ∨
    ∃ property payload now, e = .delivered store property payload now := by
  unfold Entry.update? at h
  split at h
  · obtain ⟨rfl, -⟩ := Option.ite_none_right_eq_some.mp h
    exact .inl ⟨_, _, _, _, _, _, rfl⟩
  · obtain ⟨rfl, -⟩ := Option.ite_none_right_eq_some.mp h
    exact .inr ⟨_, _, _, rfl⟩
  · cases h

/-- What becomes of a store that is there. -/
theorem Ledger.snapshot_note (hs : store < l.stores.snapshots.length) (e : Entry) :
    (l.note e).stores.snapshot store =
      (l.stores.snapshot store).updated (updatesOf store [e]) := by
  have written (other : Status.Store) (now : Timestamp) (property desired reported : String) :
      (l.stores.upsert other now property desired reported).snapshot store =
        (l.stores.snapshot store).updated
          (if other = store then some ⟨property, desired, reported, now⟩ else none).toList := by
    by_cases own : other = store
    · subst own
      rw [if_pos rfl]
      exact Status.Stores.snapshot_upsert_self _ hs _ _ _ _
    · rw [if_neg own]
      exact Status.Stores.snapshot_upsert_of_ne _ (Ne.symm own) _ _ _ _
  rw [updatesOf_singleton]
  cases e with
  | delivered other property payload now => exact written other now property "" _
  | happened x now =>
    cases x with
    | asked k call =>
      obtain ⟨op, y⟩ := call
      cases op with
      | cycle other effect =>
        cases effect with
        | record property desired reported => exact written other now property desired reported
        | _ => rfl
      | openStore seed =>
        cases y with
        | none => rfl
        | some other => exact Status.Stores.snapshot_create_of_lt _ seed hs
      | _ => rfl
    | _ => rfl

theorem mem_happenings {now : Timestamp} (h : .happened x now ∈ es) : x ∈ happenings es :=
  List.mem_filterMap.mpr ⟨_, h, rfl⟩

/-- Who is told something has been registered. -/
theorem Journal.listens_of_mem {property : String} {payload : Bytes} {now : Timestamp}
    (h : Journal may identity config es d) (hm : .delivered store property payload now ∈ es) :
    Listens (happenings es) store property := by
  induction h with
  | created => cases hm
  | abandoned _ _ _ ih => exact ih hm
  | delivered h hl payload' now' ih =>
    rw [happenings_append, happenings_delivered, List.append_nil]
    rcases List.mem_append.mp hm with early | new
    · exact ih early
    · cases List.mem_singleton.mp new
      exact hl
  | happened h hx hf now' ih =>
    obtain ⟨k, p, c, y, listens⟩ := ih (by simpa using hm)
    rw [happenings_append]
    exact ⟨k, p, c, y, List.mem_append_left _ listens⟩

/-- A store in which an update was made has been worked with. -/
theorem Journal.exists_of_updatesOf_ne_nil (h : Journal may identity config es d)
    (hu : updatesOf store es ≠ []) : ∃ k effect y, effect ≠ .session .start ∧
      .asked k ⟨.cycle store effect, y⟩ ∈ happenings es := by
  obtain ⟨u, hu⟩ := List.exists_mem_of_ne_nil _ hu
  obtain ⟨e, he, hu⟩ := List.mem_filterMap.mp hu
  rcases Entry.eq_of_update? hu with ⟨k, property, desired, reported, y, now, rfl⟩ |
    ⟨property, payload, now, rfl⟩
  · exact ⟨k, _, y, nofun, mem_happenings he⟩
  · obtain ⟨k, p, c, y, listens⟩ := h.listens_of_mem he
    exact ⟨k, _, y, nofun, listens⟩

/-- No update has been made in a store that is still to be opened. -/
theorem Journal.updatesOf_eq_nil (h : Journal may identity config es d)
    (hs : (ledger es).stores.snapshots.length ≤ store) : updatesOf store es = [] := by
  refine Classical.byContradiction fun hu => ?_
  obtain ⟨k, effect, y, -, worked⟩ := h.exists_of_updatesOf_ne_nil hu
  exact Nat.not_lt_of_le hs (h.lt_of_cycle worked)

/-- A store holds what it has been opened with, with the updates that were made in it. -/
theorem Journal.snapshot_eq_updated (h : Journal may identity config es d)
    (ho : .asked k ⟨.openStore seed, some store⟩ ∈ happenings es) :
    (ledger es).stores.snapshot store = seed.updated (updatesOf store es) := by
  have kept {es : List Entry} {d : Device} (h : Journal may identity config es d)
      (ho : .asked k ⟨.openStore seed, some store⟩ ∈ happenings es) (e : Entry)
      (ih : (ledger es).stores.snapshot store = seed.updated (updatesOf store es)) :
      (ledger (es ++ [e])).stores.snapshot store = seed.updated (updatesOf store (es ++ [e])) := by
    rw [updatesOf_append, Status.Snapshot.updated_append, ← ih, ledger_append]
    have there := h.lt_of_opened (Resync.mem_opened.mpr ⟨seed, mem_callsOf.mpr ho⟩)
    exact Ledger.snapshot_note there e
  induction h with
  | created => cases ho
  | abandoned _ _ _ ih => exact ih ho
  | delivered h _ payload now ih =>
    rw [happenings_append, happenings_delivered, List.append_nil] at ho
    exact kept h ho _ (ih ho)
  | @happened es d d' x h hx hf now ih =>
    rw [happenings_append, happenings_happened] at ho
    rcases List.mem_append.mp ho with early | opening
    · exact kept h early _ (ih early)
    · obtain rfl := List.mem_singleton.mp opening
      obtain rfl : store = ((ledger es).stores.create seed).1 := hf
      have fresh : updatesOf ((ledger es).stores.create seed).1 es = [] :=
        h.updatesOf_eq_nil (Nat.le_refl _)
      rw [updatesOf_append, fresh, ledger_append]
      exact Status.Stores.snapshot_create _ seed

end Device
end GattSync
