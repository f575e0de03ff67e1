import GattSync.Platform.Basic
import GattSync.Session

/-!
# What an adapter session keeps

The handles of the peripherals it has seen, the queue and the forwarder of its events, the listeners
of notified values, and the routes from a characteristic of a peripheral to the listeners that want
its values.
-/

namespace GattSync.Adapter

/-- The number of a background task. -/
abbrev Task := Nat

/-- Puts a value under its key, in the place of one that is there. -/
def put {κ α : Type} [BEq κ] (key : κ) (a : α) : List (κ × α) → List (κ × α)
  | [] => [(key, a)]
  | (k, b) :: rest => if k == key then (key, a) :: rest else (k, b) :: put key a rest

/-- Takes a key and its value out. -/
def erase {κ α : Type} [BEq κ] (key : κ) (l : List (κ × α)) : List (κ × α) :=
  l.filter fun e => e.1 != key

section

variable {κ α : Type} [BEq κ] [LawfulBEq κ]

theorem lookup_put_self (key : κ) (a : α) (l : List (κ × α)) :
    (put key a l).lookup key = some a := by
  induction l with
  | nil => simp [put]
  | cons e rest ih =>
    obtain ⟨k, b⟩ := e
    by_cases h : k = key
    · simp [put, h]
    · simp [put, beq_false_of_ne h, List.lookup_cons, beq_false_of_ne (Ne.symm h), ih]

theorem lookup_put_of_ne {key other : κ} (h : other ≠ key) (a : α) (l : List (κ × α)) :
    (put key a l).lookup other = l.lookup other := by
  induction l with
  | nil => simp [put, List.lookup_cons, beq_false_of_ne h]
  | cons e rest ih =>
    obtain ⟨k, b⟩ := e
    by_cases hk : k = key
    · subst hk; simp [put, List.lookup_cons, beq_false_of_ne h]
    · simp [put, beq_false_of_ne hk, List.lookup_cons, ih]

theorem lookup_filter_of_pos {p : κ × α → Bool} {key : κ} (h : ∀ a, p (key, a))
    (l : List (κ × α)) : (l.filter p).lookup key = l.lookup key := by
  induction l with
  | nil => rfl
  | cons e rest ih =>
    obtain ⟨k, b⟩ := e
    by_cases hk : key = k
    · subst hk
      simp [h b]
    · by_cases hp : p (k, b) <;> simp [hp, List.lookup_cons, beq_false_of_ne hk, ih]

theorem lookup_filter_of_neg {p : κ × α → Bool} {key : κ} (h : ∀ a, ¬ p (key, a))
    (l : List (κ × α)) : (l.filter p).lookup key = none := by
  refine List.lookup_eq_none_iff.mpr fun e he => ?_
  obtain ⟨-, hp⟩ := List.mem_filter.mp he
  have ne : key ≠ e.1 := by
    rintro rfl
    exact h e.2 hp
  simpa using ne

theorem lookup_erase_self (key : κ) (l : List (κ × α)) : (erase key l).lookup key = none :=
  lookup_filter_of_neg (by simp) l

theorem lookup_erase_of_ne {key other : κ} (h : other ≠ key) (l : List (κ × α)) :
    (erase key l).lookup other = l.lookup other :=
  lookup_filter_of_pos (by simp [h]) l

end

/-- The tables of a session. A consumer, of type `η`, is what notified values are routed to. -/
structure Tables (η : Type) where
  /-- Handles by peripheral. -/
  peripherals : List (String × Platform.Handle) := []
  /-- The queue that events are sent to; there is none while the session is stopped. -/
  events : Option Session.Queue := none
  /-- The task that forwards the platform's events. -/
  forwarder : Option Task := none
  /-- Consumers by peripheral and characteristic, in order of subscription. -/
  routes : List ((String × Uuid) × List η) := []
  /-- The tasks that listen for notified values, by peripheral. -/
  listeners : List (String × Task) := []
  deriving DecidableEq, Repr, Inhabited

namespace Tables

variable {η : Type}

def handle? (t : Tables η) (id : String) : Option Platform.Handle := t.peripherals.lookup id

/-- Keeps a handle for a peripheral; it takes the place of an older one. -/
def keep (t : Tables η) (id : String) (handle : Platform.Handle) : Tables η :=
  { t with peripherals := put id handle t.peripherals }

/-- The consumers of a characteristic, in order of subscription. -/
def route (t : Tables η) (id : String) (characteristic : Uuid) : List η :=
  (t.routes.lookup (id, characteristic)).getD []

/-- Adds a consumer after those of the same characteristic. -/
def addRoute (t : Tables η) (id : String) (characteristic : Uuid) (consumer : η) : Tables η :=
  { t with
    routes := put (id, characteristic) (t.route id characteristic ++ [consumer]) t.routes }

/-- Removes all consumers of a characteristic. -/
def removeRoute (t : Tables η) (id : String) (characteristic : Uuid) : Tables η :=
  { t with routes := erase (id, characteristic) t.routes }

def listener? (t : Tables η) (id : String) : Option Task := t.listeners.lookup id

/-- Notes the task that listens to a peripheral; it takes the place of an older one. -/
def listen (t : Tables η) (id : String) (task : Task) : Tables η :=
  { t with listeners := put id task t.listeners }

/-- Removes a peripheral's listener and all its routes. -/
def unlisten (t : Tables η) (id : String) : Tables η :=
  { t with
    listeners := erase id t.listeners
    routes := t.routes.filter fun r => r.1.1 != id }

/-- Forgets the queue, the forwarder and the peripherals. -/
def shut (t : Tables η) : Tables η :=
  { t with events := none, forwarder := none, peripherals := [] }

/-! ### What a change does to what is looked up -/

theorem handle?_keep_self (t : Tables η) (id : String) (handle : Platform.Handle) :
    (t.keep id handle).handle? id = some handle :=
  lookup_put_self id handle t.peripherals

theorem route_addRoute_self (t : Tables η) (id : String) (c : Uuid) (consumer : η) :
    (t.addRoute id c consumer).route id c = t.route id c ++ [consumer] := by
  simp [addRoute, route, lookup_put_self]

theorem route_addRoute_of_ne (t : Tables η) {id other : String} {c d : Uuid}
    (h : (other, d) ≠ (id, c)) (consumer : η) :
    (t.addRoute id c consumer).route other d = t.route other d := by
  simp [addRoute, route, lookup_put_of_ne h]

theorem route_removeRoute_self (t : Tables η) (id : String) (c : Uuid) :
    (t.removeRoute id c).route id c = [] := by
  simp [removeRoute, route, lookup_erase_self]

theorem route_removeRoute_of_ne (t : Tables η) {id other : String} {c d : Uuid}
    (h : (other, d) ≠ (id, c)) : (t.removeRoute id c).route other d = t.route other d := by
  simp [removeRoute, route, lookup_erase_of_ne h]

theorem route_unlisten_self (t : Tables η) (id : String) (c : Uuid) :
    (t.unlisten id).route id c = [] := by
  rw [route, unlisten, lookup_filter_of_neg (by simp)]
  rfl

theorem route_unlisten_of_ne (t : Tables η) {id other : String} (h : other ≠ id) (c : Uuid) :
    (t.unlisten id).route other c = t.route other c := by
  rw [route, unlisten, lookup_filter_of_pos (by simp [h])]
  rfl

theorem listener?_listen_self (t : Tables η) (id : String) (task : Task) :
    (t.listen id task).listener? id = some task :=
  lookup_put_self id task t.listeners

theorem listener?_listen_of_ne (t : Tables η) {id other : String} (h : other ≠ id) (task : Task) :
    (t.listen id task).listener? other = t.listener? other :=
  lookup_put_of_ne h task t.listeners

theorem listener?_unlisten_self (t : Tables η) (id : String) :
    (t.unlisten id).listener? id = none :=
  lookup_erase_self id t.listeners

theorem listener?_unlisten_of_ne (t : Tables η) {id other : String} (h : other ≠ id) :
    (t.unlisten id).listener? other = t.listener? other :=
  lookup_erase_of_ne h t.listeners

end Tables
end GattSync.Adapter
