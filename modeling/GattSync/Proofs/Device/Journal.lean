import GattSync.Proofs.Device.Story
import GattSync.Proofs.Resync.Desk
import GattSync.Text.Payload
import Mathlib.Data.List.Nodup

/-!
# Journals of a device

What has happened to a device along with what its listeners have been told (`Journal`). A listener
outlives the cycle in which it was registered; what it is told is recorded in the store of that
cycle, at any later time. What the stores hold and what the publisher has been handed is read off
the journal (`ledger`).

Every store is opened once (`Journal.nodup_opens`) and published at most once
(`Journal.not_isPublished`), and what is done in a cycle is done with the store that its loop has
opened last (`Journal.getLast?_opened`).
-/

namespace GattSync

open Program

theorem Resync.Settings.Begins.follows {s : Resync.Settings} {calls : List (Call Resync.effects)}
    (h : s.Begins calls) : ∃ desk, Resync.Follows .empty calls desk := by
  obtain ⟨more, next, loop⟩ := h
  obtain ⟨desk, follows, -⟩ := loop.follows
  obtain ⟨mid, first, -⟩ := Resync.follows_append_iff.mp follows
  exact ⟨mid, first⟩

namespace Device

open Resync

/-! ## Journals -/

/-- Something that happens to a device or to the stores of its cycles, at a moment. -/
inductive Entry where
  | happened (x : Happening) (now : Timestamp)
  /-- A payload is notified, and reported as this property in this store. -/
  | delivered (store : Status.Store) (property : String) (payload : Bytes) (now : Timestamp)

/-- What happens to the device itself. -/
def happenings (es : List Entry) : List Happening :=
  es.filterMap fun
    | .happened x _ => some x
    | .delivered _ _ _ _ => none

/-- The stores of a device, and what its publisher has been handed. -/
structure Ledger where
  stores : Status.Stores := {}
  published : List Status.Snapshot := []

namespace Ledger

/-- Takes note of a call. What is published is a copy of what the store holds. -/
def ask (l : Ledger) (now : Timestamp) : Program.Call effects → Ledger
  | ⟨.openStore seed, some _⟩ => { l with stores := (l.stores.create seed).2 }
  | ⟨.cycle store (.record property desired reported), _⟩ =>
    { l with stores := l.stores.upsert store now property desired reported }
  | ⟨.cycle store .publish, _⟩ => { l with published := l.published ++ [l.stores.snapshot store] }
  | _ => l

def note (l : Ledger) : Entry → Ledger
  | .happened (.asked _ call) now => l.ask now call
  | .happened _ _ => l
  | .delivered store property payload now =>
    { l with stores := l.stores.upsert store now property "" (Text.Payload.quote payload) }

/-- A store that is opened is a new one, and what the device takes note of as published is what the
store holds. -/
def Fits (l : Ledger) : Happening → Device → Prop
  | .asked _ ⟨.openStore seed, some store⟩, _ => store = (l.stores.create seed).1
  | .asked _ ⟨.cycle store .publish, _⟩, d => d.lastPublished = some (l.stores.snapshot store)
  | _, _ => True

end Ledger

/-- What has become of the stores. -/
def ledger (es : List Entry) : Ledger := es.foldl Ledger.note {}

/-- A listener of this store has been registered for this property. -/
def Listens (hs : List Happening) (store : Status.Store) (property : String) : Prop :=
  ∃ k p c x, .asked k ⟨.cycle store (.session (.subscribe p c property)), x⟩ ∈ hs

/-- The store has been published. -/
def IsPublished (hs : List Happening) (store : Status.Store) : Prop :=
  ∃ k x, .asked k ⟨.cycle store .publish, x⟩ ∈ hs

/-- What has happened to a device and what its listeners have been told since it was made. -/
inductive Journal (may : Device → Nat → Prop) (identity : DeviceIdentity) (config : SyncConfig) :
    List Entry → Device → Prop
  | created {d : Device} (h : Device.create identity config = .ok d) :
    Journal may identity config [] d
  | happened {es : List Entry} {d d' : Device} {x : Happening}
      (h : Journal may identity config es d) (hx : Happens (happenings es) d x d')
      (hf : (ledger es).Fits x d') (now : Timestamp) :
    Journal may identity config (es ++ [.happened x now]) d'
  | delivered {es : List Entry} {d : Device} {store : Status.Store} {property : String}
      (h : Journal may identity config es d) (hl : Listens (happenings es) store property)
      (payload : Bytes) (now : Timestamp) :
    Journal may identity config (es ++ [.delivered store property payload now]) d
  | abandoned {es : List Entry} {d : Device} (h : Journal may identity config es d) (caller : Nat)
      (hm : may d caller) : Journal may identity config es (d.abandon caller)

variable {may : Device → Nat → Prop} {identity : DeviceIdentity} {config : SyncConfig}
  {es before after : List Entry} {hs past rest : List Happening} {d d' : Device} {x : Happening}
  {l : Ledger} {store : Status.Store} {call : Program.Call effects} {k : Nat}

@[simp] theorem happenings_append : happenings (before ++ after) =
    happenings before ++ happenings after := List.filterMap_append

@[simp] theorem happenings_happened (x : Happening) (now : Timestamp) :
    happenings [.happened x now] = [x] := rfl

@[simp] theorem happenings_delivered (store : Status.Store) (property : String) (payload : Bytes)
    (now : Timestamp) : happenings [.delivered store property payload now] = [] := rfl

@[simp] theorem ledger_append :
    ledger (before ++ after) = after.foldl Ledger.note (ledger before) := List.foldl_append

/-- A journal without what the listeners were told is a story. -/
theorem Journal.story (h : Journal may identity config es d) :
    Story may identity config (happenings es) d := by
  induction h with
  | created h => exact .created h
  | happened _ hx _ now ih => simpa using ih.snoc hx
  | delivered _ _ payload now ih => simpa using ih
  | abandoned _ caller hm ih => exact ih.abandoned caller hm

/-! ## The stores of the loops -/

/-- The stores that have been opened, each with the loop that has opened it. -/
def opens (hs : List Happening) : List (Nat × Status.Store) :=
  hs.filterMap fun
    | .asked k call => (opened? call).map (k, ·)
    | _ => none

theorem opens_append : opens (past ++ rest) = opens past ++ opens rest := List.filterMap_append

theorem opens_asked (k : Nat) (call : Program.Call effects) :
    opens [.asked k call] = (opened [call]).map (k, ·) := by
  cases h : opened? call <;> simp [opens, opened, h]

theorem mem_opens : (k, store) ∈ opens hs ↔ store ∈ opened (callsOf k hs) := by
  constructor
  · intro h
    obtain ⟨x, hx, hs⟩ := List.mem_filterMap.mp h
    cases x with
    | asked j call =>
      obtain ⟨st, opens, hst⟩ := Option.map_eq_some_iff.mp hs
      cases hst
      exact List.mem_filterMap.mpr ⟨call, mem_callsOf.mpr hx, opens⟩
    | _ => cases hs
  · intro h
    obtain ⟨call, hc, opens⟩ := List.mem_filterMap.mp h
    exact List.mem_filterMap.mpr ⟨_, mem_callsOf.mp hc, Option.map_eq_some_iff.mpr ⟨_, opens, rfl⟩⟩

/-- The stores of one loop are among those of all. -/
theorem opened_callsOf_sublist (k : Nat) (hs : List Happening) :
    (opened (callsOf k hs)).Sublist ((opens hs).map (·.2)) := by
  induction hs with
  | nil => exact .slnil
  | cons x hs ih =>
    rw [← List.singleton_append, callsOf_append, opened_append, opens_append, List.map_append]
    refine List.Sublist.append ?_ ih
    cases x with
    | asked j call =>
      rw [opens_asked, List.map_map]
      by_cases same : j = k
      · simp [callsOf, same, Function.comp_def]
      · simp [callsOf, same, opened]
    | _ => exact List.nil_sublist _

/-- What a loop has done, it has done with the store on its desk. A loop that has ended has no store
left to publish. -/
theorem Story.follows (h : Story may identity config hs d) (k : Nat) :
    ∃ desk, Follows .empty (callsOf k hs) desk ∧ (.ended k ∈ hs → desk.pending = []) := by
  by_cases spawned : k < (configured hs).length
  · have given : (configured hs)[k]? = some (configured hs)[k] := List.getElem?_eq_getElem spawned
    by_cases finished : .ended k ∈ hs
    · obtain ⟨desk, follows, found⟩ := (h.loops_of_ended given finished).follows
      exact ⟨desk, follows, fun _ => found⟩
    · obtain ⟨desk, follows⟩ := (h.begins given).follows
      exact ⟨desk, follows, fun ended => absurd ended finished⟩
  · rw [h.callsOf_eq_nil (Nat.not_lt.mp spawned)]
    exact ⟨.empty, .nil _, fun _ => rfl⟩

/-- What is published has been opened by the loop that publishes it. -/
theorem Story.mem_opened (h : Story may identity config hs d)
    (hp : store ∈ handed (callsOf k hs)) : store ∈ opened (callsOf k hs) := by
  obtain ⟨desk, follows, -⟩ := h.follows k
  rw [follows.opened_eq]
  exact List.mem_append_left _ hp

theorem isPublished_iff : IsPublished hs store ↔ ∃ k, store ∈ handed (callsOf k hs) := by
  simp only [IsPublished, mem_handed, mem_callsOf]

theorem isPublished_asked :
    IsPublished [.asked k call] store ↔ handed? call = some store := by
  constructor
  · rintro ⟨j, y, hm⟩
    cases List.mem_singleton.mp hm
    rfl
  · intro h
    obtain ⟨op, y⟩ := call
    cases op with
    | cycle st effect =>
      cases effect with
      | publish =>
        obtain rfl := Option.some.inj h
        exact ⟨k, y, List.mem_singleton_self _⟩
      | _ => cases h
    | _ => cases h

theorem isPublished_append :
    IsPublished (past ++ rest) store ↔ IsPublished past store ∨ IsPublished rest store := by
  simp only [IsPublished, List.mem_append, exists_or]

/-! ## The ledger -/

namespace Ledger

/-- The call leaves the ledger as it is. -/
def isIdle : Program.Call effects → Bool
  | ⟨.openStore _, some _⟩ => false
  | ⟨.cycle _ (.record _ _ _), _⟩ => false
  | ⟨.cycle _ .publish, _⟩ => false
  | _ => true

/-- What is known of a call that leaves the ledger as it is. -/
structure Idle (call : Program.Call effects) : Prop where
  ask (l : Ledger) (now : Timestamp) : l.ask now call = l
  fits (l : Ledger) (k : Nat) (d : Device) : l.Fits (.asked k call) d
  unopened : opened? call = none
  unhanded : handed? call = none

theorem idle_of_isIdle (h : isIdle call) : Idle call := by
  obtain ⟨op, x⟩ := call
  cases op with
  | openStore seed =>
    cases x with
    | none => exact ⟨fun _ _ => rfl, fun _ _ _ => trivial, rfl, rfl⟩
    | some store => cases h
  | cycle store effect =>
    cases effect with
    | record => cases h
    | publish => cases h
    | _ => exact ⟨fun _ _ => rfl, fun _ _ _ => trivial, rfl, rfl⟩
  | _ => exact ⟨fun _ _ => rfl, fun _ _ _ => trivial, rfl, rfl⟩

/-- What a call can be to a ledger. -/
theorem call_cases (call : Program.Call effects) :
    (∃ seed store, call = ⟨.openStore seed, some store⟩) ∨
      (∃ store property desired reported x,
        call = ⟨.cycle store (.record property desired reported), x⟩) ∨
      (∃ store x, call = ⟨.cycle store .publish, x⟩) ∨ Idle call := by
  cases idle : isIdle call with
  | true => exact .inr (.inr (.inr (idle_of_isIdle idle)))
  | false =>
    obtain ⟨op, x⟩ := call
    cases op with
    | openStore seed =>
      cases x with
      | none => cases idle
      | some store => exact .inl ⟨seed, store, rfl⟩
    | cycle store effect =>
      cases effect with
      | record property desired reported =>
        exact .inr (.inl ⟨store, property, desired, reported, x, rfl⟩)
      | publish => exact .inr (.inr (.inl ⟨store, x, rfl⟩))
      | _ => cases idle
    | _ => cases idle

/-- A store that is opened is behind all that are there. -/
theorem range_ask (h : l.Fits (.asked k call) d) (now : Timestamp) :
    List.range (l.ask now call).stores.snapshots.length =
      List.range l.stores.snapshots.length ++ opened [call] := by
  obtain ⟨seed, store, rfl⟩ | ⟨store, property, desired, reported, x, rfl⟩ | ⟨store, x, rfl⟩ |
    idle := call_cases call
  · obtain rfl : store = l.stores.snapshots.length := h
    simp [ask, Status.Stores.create, opened, opened?, List.range_succ]
  · simp [ask, Status.Stores.upsert, opened, opened?]
  · simp [ask, opened, opened?]
  · simp [idle.ask, opened, idle.unopened]

theorem range_note (h : l.Fits x d) (now : Timestamp) :
    List.range (l.note (.happened x now)).stores.snapshots.length =
      List.range l.stores.snapshots.length ++ (opens [x]).map (·.2) := by
  cases x with
  | asked k call =>
    rw [opens_asked, List.map_map]
    simpa [note, Function.comp_def] using range_ask h now
  | _ => exact (List.append_nil _).symm

/-- A publication adds what the store holds, and nothing else adds anything. -/
theorem published_ask (now : Timestamp) : (l.ask now call).published =
    l.published ++ (handed [call]).map l.stores.snapshot := by
  obtain ⟨seed, store, rfl⟩ | ⟨store, property, desired, reported, x, rfl⟩ | ⟨store, x, rfl⟩ |
    idle := call_cases call
  · simp [ask, handed, handed?]
  · simp [ask, handed, handed?]
  · simp [ask, handed, handed?]
  · simp [idle.ask, handed, idle.unhanded]

/-- What is in a ledger as published stays there as it is. -/
theorem published_prefix (l : Ledger) (es : List Entry) :
    l.published <+: (es.foldl note l).published := by
  induction es generalizing l with
  | nil => exact List.prefix_rfl
  | cons e es ih =>
    refine List.IsPrefix.trans ?_ (ih (l.note e))
    cases e with
    | delivered => exact List.prefix_rfl
    | happened x now =>
      cases x with
      | asked k call => exact ⟨_, (published_ask now).symm⟩
      | _ => exact List.prefix_rfl

end Ledger

/-- The stores that have been opened are all that there are, and each has been opened once. -/
theorem Journal.opens_eq (h : Journal may identity config es d) :
    (opens (happenings es)).map (·.2) = List.range (ledger es).stores.snapshots.length := by
  induction h with
  | created => rfl
  | abandoned _ _ _ ih => exact ih
  | delivered _ _ payload now ih =>
    simpa [Ledger.note, Status.Stores.upsert] using ih
  | happened _ _ hf now ih =>
    rw [happenings_append, happenings_happened, opens_append, List.map_append, ih, ledger_append]
    exact (Ledger.range_note hf now).symm

theorem Journal.nodup_opens (h : Journal may identity config es d) :
    ((opens (happenings es)).map (·.2)).Nodup :=
  h.opens_eq ▸ List.nodup_range

theorem Journal.nodup_opened (h : Journal may identity config es d) (k : Nat) :
    (opened (callsOf k (happenings es))).Nodup :=
  h.nodup_opens.sublist (opened_callsOf_sublist k _)

/-- A store has been opened by one loop. -/
theorem Journal.eq_of_mem_opened {j : Nat} (h : Journal may identity config es d)
    (hj : store ∈ opened (callsOf j (happenings es)))
    (hk : store ∈ opened (callsOf k (happenings es))) : j = k :=
  (Prod.mk.inj (List.inj_on_of_nodup_map h.nodup_opens (mem_opens.mpr hj) (mem_opens.mpr hk)
    rfl)).1

theorem Journal.nodup_handed (h : Journal may identity config es d) (k : Nat) :
    (handed (callsOf k (happenings es))).Nodup := by
  obtain ⟨desk, follows, -⟩ := h.story.follows k
  have once := h.nodup_opened k
  rw [follows.opened_eq] at once
  exact once.of_append_left

theorem Journal.getLast?_opened {effect : Cycle.Effect} {y : Option effect.Answer}
    (h : Journal may identity config es d)
    (hs : happenings es = past ++ .asked k ⟨.cycle store effect, y⟩ :: rest) :
    (opened (callsOf k past)).getLast? = some store := by
  obtain ⟨desk, follows, -⟩ := h.story.follows k
  rw [hs, List.append_cons, callsOf_append, callsOf_asked, if_pos rfl] at follows
  obtain ⟨_, first, -⟩ := follows_append_iff.mp follows
  obtain ⟨mid, earlier, last⟩ := follows_append_iff.mp first
  have held := (follows_singleton_iff.mp last).store?_eq
  rw [earlier.store?, Desk.store?, Option.or_none] at held
  exact held

/-- No store is published twice, neither by one loop nor by two. -/
theorem Journal.not_isPublished {y : Option Unit} (h : Journal may identity config es d)
    (hs : happenings es = past ++ .asked k ⟨.cycle store .publish, y⟩ :: rest) :
    ¬ IsPublished past store := by
  intro published
  obtain ⟨j, earlier⟩ := isPublished_iff.mp published
  have parts (i : Nat) : handed (callsOf i (happenings es)) = handed (callsOf i past) ++
      (if k = i then [store] else []) ++ handed (callsOf i rest) := by
    rw [hs, List.append_cons, callsOf_append, callsOf_asked, handed_append, handed_append]
    by_cases same : k = i
    · rw [if_pos same, if_pos same]
      rfl
    · rw [if_neg same, if_neg same]
      rfl
  have mine : store ∈ handed (callsOf k (happenings es)) := by simp [parts]
  have theirs : store ∈ handed (callsOf j (happenings es)) := by simp [parts, earlier]
  obtain rfl := h.eq_of_mem_opened (h.story.mem_opened theirs) (h.story.mem_opened mine)
  have once := h.nodup_handed j
  rw [parts, if_pos rfl] at once
  exact (List.nodup_append.mp once.of_append_left).2.2 store earlier store
    (List.mem_singleton_self store) rfl

/-! ## What the device has published last -/

theorem Happens.lastPublished_eq (hx : Happens hs d x d') (hn : x.isAsked = false) :
    d'.lastPublished = d.lastPublished := by
  have stopped : d.stop.lastPublished = d.lastPublished := by
    unfold stop
    cases d.signal <;> rfl
  cases hx with
  | granted =>
    unfold grant
    split
    · exact stopped
    · rfl
  | @returned p rest hl =>
    obtain ⟨caller, call, progress⟩ := p
    unfold complete
    rw [hl]
    cases call <;> rfl
  | asked => cases hn
  | disposed => exact stopped
  | _ => rfl

theorem handed?_of_isForeign (h : isForeign call.1) : handed? call = none := by
  obtain ⟨op, x⟩ := call
  cases op with
  | cycle store effect =>
    cases effect with
    | publish => cases h
    | _ => rfl
  | _ => rfl

/-- The device takes note of what is published, and of nothing else. -/
theorem Serves.lastPublished_eq (hv : d.Serves k call d') (hf : l.Fits (.asked k call) d')
    (h : d.lastPublished = l.published.getLast?) (now : Timestamp) :
    d'.lastPublished = (l.ask now call).published.getLast? := by
  have quiet (hn : handed? call = none) : (l.ask now call).published = l.published := by
    simp [Ledger.published_ask, handed, hn]
  cases hv with
  | published store status => exact hf.trans List.getLast?_concat.symm
  | lastPublished => rw [quiet rfl, h]
  | rested => rw [quiet rfl, h]
  | foreign foreign => rw [quiet (handed?_of_isForeign foreign), h]

/-- The device holds what it has published last. -/
theorem Journal.lastPublished_eq (h : Journal may identity config es d) :
    d.lastPublished = (ledger es).published.getLast? := by
  induction h with
  | created h =>
    obtain rfl := eq_of_create h
    rfl
  | abandoned _ _ _ ih => exact ih
  | delivered _ _ payload now ih => rw [ledger_append]; exact ih
  | @happened es d d' x _ hx hf now ih =>
    rw [ledger_append]
    cases hn : x.isAsked with
    | false =>
      rw [hx.lastPublished_eq hn, ih]
      cases x with
      | asked => cases hn
      | _ => rfl
    | true =>
      cases hx with
      | asked _ _ _ hv => exact hv.lastPublished_eq hf ih now
      | _ => cases hn

end Device
end GattSync
