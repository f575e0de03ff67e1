import GattSync.Adapter.Worker
import GattSync.Proofs.Adapter.Turn
import Mathlib.Logic.Relation

/-!
# The office of a session

An adapter session does not work alone. While it waits for the platform, and between its requests,
its workers go on: the forwarder of its events, and the listeners of the peripherals that it is
connected to. An office is all that they share: the tables, the posts of the workers, the queues
that have been opened, and a log of what has happened.

The program of a worker goes from one wait to the next. Whatever it does between two waits is done
at once; at a wait any other worker may go on (`Resumes`). The program of a session is taken from
one state of the office to another by its own calls, and by the workers while it waits (`Attends`).
So a session and its workers never do anything at the same moment, and which of them is next is
left open.
-/

namespace GattSync.Adapter

open Program Platform

variable {η α : Type}

/-! ## Offices -/

/-- Something that has happened. -/
inductive Incident (η : Type) where
  /-- While it answers a request, the session asks the platform. -/
  | asked (request : Session.Request η) (inquiry : Platform.Request)
  | answered (request : Session.Request η) (inquiry : Platform.Request) (x : inquiry.Answer)
  | sent (queue : Session.Queue) (event : Event)
  /-- The listener of a peripheral takes a notified value. -/
  | taken (id : String) (n : Notification)
  | delivered (consumer : η) (payload : Bytes)

/-- A worker, with what is left of its round. Nothing is once it has ended or been aborted. -/
structure Post (η : Type) where
  worker : Worker
  rest : Option (Prog η Bool)

/-- What a session and its workers share. A task is the place of its worker among the posts, and the
queues are numbered as they are opened. -/
structure Office (η : Type) where
  tables : Tables η := {}
  posts : List (Post η) := []
  queues : Nat := 0
  log : List (Incident η) := []

/-- The event, if it was sent to this queue. -/
def Incident.sent? (queue : Session.Queue) : Incident η → Option Event
  | .sent q event => if q = queue then some event else none
  | _ => none

namespace Office

def note (o : Office η) (i : Incident η) : Office η := { o with log := o.log ++ [i] }

def change (o : Office η) (f : Tables η → Tables η) : Office η := { o with tables := f o.tables }

def openQueue (o : Office η) : Office η := { o with queues := o.queues + 1 }

/-- Gives a worker its post. -/
def employ (o : Office η) (worker : Worker) : Office η :=
  { o with posts := o.posts ++ [⟨worker, some worker.round⟩] }

/-- Leaves a worker with this. -/
def assign (o : Office η) (task : Task) (rest : Option (Prog η Bool)) : Office η :=
  { o with posts := o.posts.modify task fun post => { post with rest } }

/-- Aborts a task, if there is one. -/
def dismiss (o : Office η) : Option Task → Office η
  | some task => o.assign task none
  | none => o

/-- All events that were sent to a queue, in order. -/
def sent (o : Office η) (queue : Session.Queue) : List Event :=
  o.log.filterMap (Incident.sent? queue)

/-- The worker is at its post, and this is left of its round. -/
def Employs (o : Office η) (task : Task) (worker : Worker) (rest : Prog η Bool) : Prop :=
  o.posts[task]? = some ⟨worker, some rest⟩

/-! ### What is where after a change -/

section

variable {o : Office η} {i : Incident η} {f : Tables η → Tables η} {task t : Task}
  {worker w : Worker} {rest : Prog η Bool} {left : Option (Prog η Bool)} {queue : Session.Queue}
  {previous : Option Task}

@[simp] theorem tables_note : (o.note i).tables = o.tables := rfl
@[simp] theorem tables_change : (o.change f).tables = f o.tables := rfl
@[simp] theorem tables_openQueue : o.openQueue.tables = o.tables := rfl
@[simp] theorem tables_employ : (o.employ worker).tables = o.tables := rfl
@[simp] theorem tables_assign : (o.assign task left).tables = o.tables := rfl
@[simp] theorem tables_dismiss : (o.dismiss previous).tables = o.tables := by cases previous <;> rfl

@[simp] theorem log_note : (o.note i).log = o.log ++ [i] := rfl
@[simp] theorem log_change : (o.change f).log = o.log := rfl
@[simp] theorem log_openQueue : o.openQueue.log = o.log := rfl
@[simp] theorem log_employ : (o.employ worker).log = o.log := rfl
@[simp] theorem log_assign : (o.assign task left).log = o.log := rfl
@[simp] theorem log_dismiss : (o.dismiss previous).log = o.log := by cases previous <;> rfl

@[simp] theorem queues_note : (o.note i).queues = o.queues := rfl
@[simp] theorem queues_change : (o.change f).queues = o.queues := rfl
@[simp] theorem queues_openQueue : o.openQueue.queues = o.queues + 1 := rfl
@[simp] theorem queues_employ : (o.employ worker).queues = o.queues := rfl
@[simp] theorem queues_assign : (o.assign task left).queues = o.queues := rfl
@[simp] theorem queues_dismiss : (o.dismiss previous).queues = o.queues := by cases previous <;> rfl

theorem sent_note : (o.note i).sent queue = o.sent queue ++ (i.sent? queue).toList := by
  simp only [sent, log_note, List.filterMap_append]
  cases h : i.sent? queue <;> simp [h]

@[simp] theorem sent_change : (o.change f).sent queue = o.sent queue := rfl
@[simp] theorem sent_openQueue : o.openQueue.sent queue = o.sent queue := rfl
@[simp] theorem sent_employ : (o.employ worker).sent queue = o.sent queue := rfl
@[simp] theorem sent_assign : (o.assign task left).sent queue = o.sent queue := rfl
@[simp] theorem sent_dismiss : (o.dismiss previous).sent queue = o.sent queue := by
  simp [sent]

@[simp] theorem employs_note : (o.note i).Employs t w rest ↔ o.Employs t w rest := Iff.rfl
@[simp] theorem employs_change : (o.change f).Employs t w rest ↔ o.Employs t w rest := Iff.rfl
@[simp] theorem employs_openQueue : o.openQueue.Employs t w rest ↔ o.Employs t w rest := Iff.rfl

theorem employs_employ :
    (o.employ worker).Employs t w rest ↔
      o.Employs t w rest ∨ t = o.posts.length ∧ w = worker ∧ rest = worker.round := by
  simp only [Employs, employ, List.getElem?_append]
  split
  · next h => exact ⟨.inl, fun h' => h'.resolve_right fun h' => absurd h'.1 (Nat.ne_of_lt h)⟩
  · next h =>
    rw [List.getElem?_eq_none (Nat.le_of_not_lt h)]
    rw [List.getElem?_singleton]
    constructor
    · intro hp
      split at hp
      · next hz =>
        have last := Nat.le_antisymm (Nat.le_of_sub_eq_zero hz) (Nat.le_of_not_lt h)
        simp only [Option.some.injEq, Post.mk.injEq] at hp
        exact .inr ⟨last, hp.1.symm, hp.2.symm⟩
      · cases hp
    · rintro (hp | ⟨rfl, rfl, rfl⟩)
      · cases hp
      · simp

/-- Whoever has been left with something goes on with that, and all others as before. -/
theorem employs_assign :
    (o.assign task left).Employs t w rest ↔
      t ≠ task ∧ o.Employs t w rest ∨
        t = task ∧ left = some rest ∧ ∃ before, o.posts[t]? = some ⟨w, before⟩ := by
  simp only [Employs, assign, List.getElem?_modify]
  by_cases ht : task = t
  · subst ht
    cases hp : o.posts[task]? with
    | none => simp
    | some post =>
      obtain ⟨v, before⟩ := post
      simp [and_comm]
  · simp [ht, Ne.symm ht]

@[simp] theorem employs_dismiss :
    (o.dismiss previous).Employs t w rest ↔ o.Employs t w rest ∧ previous ≠ some t := by
  cases previous with
  | none => simp [dismiss]
  | some task =>
    rw [dismiss, employs_assign]
    simp [and_comm, eq_comm]

end

/-! ## What is done at once -/

/-- An operation that takes no time, its answer, and the office then. -/
def Does (o : Office η) : (op : Effect η) → op.Answer → Office η → Prop
  | .tables, x, o' => x = o.tables ∧ o' = o
  | .change f, _, o' => o' = o.change f
  | .services _, _, o' => o' = o
  | .openQueue, x, o' => x = o.queues ∧ o' = o.openQueue
  | .send queue event, _, o' => o' = o.note (.sent queue event)
  | .employ worker, x, o' => x = o.posts.length ∧ o' = o.employ worker
  | .abort task, _, o' => o' = o.assign task none
  | .deliver consumer payload, _, o' => o' = o.note (.delivered consumer payload)
  | .platform _, _, _ => False
  | .nextEvent _, _, _ => False
  | .nextValue _, _, _ => False

end Office

/-- Whoever asks for this waits until it is answered. -/
def Effect.isWait : Effect η → Bool
  | .platform _ | .nextEvent _ | .nextValue _ => true
  | _ => false

/-- The program goes on at once, until it is done or waits again. -/
inductive Settles : Prog η α → Office η → Prog η α → Office η → Prop
  | done (a : α) (o : Office η) : Settles (done a) o (done a) o
  | waits {op : Effect η} (hw : op.isWait) (next : op.Answer → Prog η α) (o : Office η) :
    Settles (.ask op next) o (.ask op next) o
  | does {op : Effect η} {next : op.Answer → Prog η α} {o o₁ o' : Office η} {x : op.Answer}
      {p : Prog η α} (hd : o.Does op x o₁) (h : Settles (next x) o₁ p o') :
    Settles (.ask op next) o p o'

/-! ## Workers -/

/-- The platform gives out handles of the peripheral that is meant. -/
def IsAnswer (owner : Handle → String) : (op : Effect η) → op.Answer → Prop
  | .platform (.peripheral id), .ok handle => owner handle = id
  | _, _ => True

/-- What a worker is left with when its round has come to this. -/
def Worker.after (worker : Worker) : Prog η Bool → Option (Prog η Bool)
  | .done true => some worker.round
  | .done false => none
  | .ask op next => some (.ask op next)

/-- A value that a listener takes is noted. -/
def Office.hear (o : Office η) : Worker → (op : Effect η) → op.Answer → Office η
  | .listen id _, .nextValue _, some n => o.note (.taken id n)
  | _, _, _ => o

/-- A worker waits with the first program. It is answered and goes on at once, until its round is
done or it waits again, with the second one. -/
inductive GoesOn (owner : Handle → String) (worker : Worker) :
    Prog η Bool → Office η → Prog η Bool → Office η → Prop
  | intro {op : Effect η} {next : op.Answer → Prog η Bool} {x : op.Answer} {p : Prog η Bool}
      {o o' : Office η} (hw : op.isWait) (hx : IsAnswer owner op x)
      (hs : Settles (next x) (o.hear worker op x) p o') : GoesOn owner worker (.ask op next) o p o'

/-- One of the workers goes on. -/
inductive Resumes (owner : Handle → String) (o : Office η) : Office η → Prop
  | intro {task : Task} {worker : Worker} {rest p : Prog η Bool} {o' : Office η}
      (he : o.Employs task worker rest) (h : GoesOn owner worker rest o p o') :
    Resumes owner o (o'.assign task (worker.after p))

/-- Any workers go on, any number of times. -/
abbrev Works (owner : Handle → String) : Office η → Office η → Prop :=
  Relation.ReflTransGen (Resumes owner)

/-! ## Requests -/

/-- How the office is taken on by a call of the session, while it answers a request. -/
inductive Stands (owner : Handle → String) (request : Session.Request η) (o : Office η) :
    Call (Adapter.effects η) → Office η → Prop
  | answered {inquiry : Platform.Request} {o' : Office η}
      (h : Works owner (o.note (.asked request inquiry)) o') (x : inquiry.Answer) :
    Stands owner request o ⟨.platform inquiry, some x⟩ (o'.note (.answered request inquiry x))
  | waiting {inquiry : Platform.Request} {o' : Office η}
      (h : Works owner (o.note (.asked request inquiry)) o') :
    Stands owner request o ⟨.platform inquiry, none⟩ o'
  | does {op : Effect η} {x : op.Answer} {o' : Office η} (h : o.Does op x o') :
    Stands owner request o ⟨op, some x⟩ o'

/-- While it answers a request, the session has this program done, or is given up while it waits.
The office is then the second one. -/
def Attends (owner : Handle → String) (request : Session.Request η) (p : Prog η α) (o : Office η)
    (r : Option α) (o' : Office η) : Prop :=
  ∃ calls, p.Evolves (Stands owner request) o calls r o'

/-- The office goes on by itself and with requests of a kind. Any of them may be given up while the
session waits for the platform. -/
inductive Elapses (owner : Handle → String) (K : Session.Request η → Prop) (o : Office η) :
    Office η → Prop
  | refl : Elapses owner K o o
  | worked {o₁ o₂ : Office η} (h : Elapses owner K o o₁) (hr : Resumes owner o₁ o₂) :
    Elapses owner K o o₂
  | attended {o₁ o₂ : Office η} {request : Session.Request η} {r : Option request.Answer}
      (h : Elapses owner K o o₁) (hk : K request)
      (ha : Attends owner request (answer request) o₁ r o₂) : Elapses owner K o o₂

/-! ## Sessions by their first operation -/

variable {β : Type} {owner : Handle → String} {request : Session.Request η} {o o' : Office η}
  {r : Option β}

@[simp] theorem attends_done_iff {b : β} :
    Attends owner request (done b : Prog η β) o r o' ↔ r = some b ∧ o' = o := by
  simp [Attends]

theorem attends_bind_iff {p : Prog η α} {f : α → Prog η β} :
    Attends owner request (p.bind f) o r o' ↔
      (r = none ∧ Attends owner request p o none o') ∨
        ∃ a o₁, Attends owner request p o (some a) o₁ ∧ Attends owner request (f a) o₁ r o' := by
  simp only [Attends, evolves_bind_iff]
  constructor
  · rintro ⟨calls, ⟨rfl, hp⟩ | ⟨a, o₁, first, rest, rfl, hp, hf⟩⟩
    · exact .inl ⟨rfl, calls, hp⟩
    · exact .inr ⟨a, o₁, ⟨first, hp⟩, rest, hf⟩
  · rintro (⟨rfl, calls, hp⟩ | ⟨a, o₁, ⟨first, hp⟩, rest, hf⟩)
    · exact ⟨calls, .inl ⟨rfl, hp⟩⟩
    · exact ⟨first ++ rest, .inr ⟨a, o₁, first, rest, rfl, hp, hf⟩⟩

theorem attends_bind_done_iff {p : Prog η α} {f : α → β} :
    Attends owner request (p.bind fun a => done (f a)) o r o' ↔
      ∃ r', Attends owner request p o r' o' ∧ r = r'.map f := by
  rw [attends_bind_iff]
  constructor
  · rintro (⟨rfl, hp⟩ | ⟨a, o₁, hp, hd⟩)
    · exact ⟨none, hp, rfl⟩
    · obtain ⟨rfl, rfl⟩ := attends_done_iff.mp hd
      exact ⟨some a, hp, rfl⟩
  · rintro ⟨r', hp, rfl⟩
    cases r' with
    | none => exact .inl ⟨rfl, hp⟩
    | some a => exact .inr ⟨a, o', hp, attends_done_iff.mpr ⟨rfl, rfl⟩⟩

/-- Whoever asks the platform waits, and the workers go on. -/
theorem attends_ask_bind_iff {inquiry : Platform.Request} {f : inquiry.Answer → Prog η β} :
    Attends owner request ((ask inquiry).bind f) o r o' ↔
      (r = none ∧ Works owner (o.note (.asked request inquiry)) o') ∨
        ∃ x o₁, Works owner (o.note (.asked request inquiry)) o₁ ∧
          Attends owner request (f x) (o₁.note (.answered request inquiry x)) r o' := by
  constructor
  · rintro ⟨calls, h⟩
    rcases evolves_perform_bind_iff.mp h with ⟨-, rfl, hs⟩ | ⟨x, o₁, rest, rfl, hs, hf⟩
    · cases hs with
      | waiting h => exact .inl ⟨rfl, h⟩
    · cases hs with
      | answered h => exact .inr ⟨x, _, h, rest, hf⟩
      | does h => exact h.elim
  · rintro (⟨rfl, h⟩ | ⟨x, o₁, h, rest, hf⟩)
    · exact ⟨_, evolves_perform_bind_iff.mpr (.inl ⟨rfl, rfl, .waiting h⟩)⟩
    · exact ⟨_, evolves_perform_bind_iff.mpr (.inr ⟨x, _, rest, rfl, .answered h x, hf⟩)⟩

theorem attends_does_bind_iff {op : Effect η} (hw : op.isWait = false)
    {f : op.Answer → Prog η β} :
    Attends owner request ((perform (S := Adapter.effects η) op).bind f) o r o' ↔
      ∃ x o₁, o.Does op x o₁ ∧ Attends owner request (f x) o₁ r o' := by
  constructor
  · rintro ⟨calls, h⟩
    rcases evolves_perform_bind_iff.mp h with ⟨-, -, hs⟩ | ⟨x, o₁, rest, rfl, hs, hf⟩
    · cases hs
      cases hw
    · cases hs with
      | answered => cases hw
      | does h => exact ⟨x, o₁, h, rest, hf⟩
  · rintro ⟨x, o₁, h, rest, hf⟩
    exact ⟨_, evolves_perform_bind_iff.mpr (.inr ⟨x, o₁, rest, rfl, .does h, hf⟩)⟩

@[simp] theorem attends_tables_bind_iff {f : Tables η → Prog η β} :
    Attends owner request (tables.bind f) o r o' ↔ Attends owner request (f o.tables) o r o' :=
  (attends_does_bind_iff rfl).trans
    ⟨fun ⟨_, _, ⟨hx, ho⟩, h⟩ => hx ▸ ho ▸ h, fun h => ⟨_, o, ⟨rfl, rfl⟩, h⟩⟩

@[simp] theorem attends_change_bind_iff {g : Tables η → Tables η} {f : Unit → Prog η β} :
    Attends owner request ((change g).bind f) o r o' ↔
      Attends owner request (f ()) (o.change g) r o' :=
  (attends_does_bind_iff rfl).trans ⟨fun ⟨_, _, ho, h⟩ => ho ▸ h, fun h => ⟨(), _, rfl, h⟩⟩

@[simp] theorem attends_services_bind_iff {handle : Handle}
    {f : List Platform.Service → Prog η β} :
    Attends owner request ((services handle).bind f) o r o' ↔
      ∃ listed, Attends owner request (f listed) o r o' :=
  (attends_does_bind_iff rfl).trans
    ⟨fun ⟨x, _, ho, h⟩ => ⟨x, ho ▸ h⟩, fun ⟨x, h⟩ => ⟨x, o, rfl, h⟩⟩

@[simp] theorem attends_openQueue_bind_iff {f : Session.Queue → Prog η β} :
    Attends owner request (openQueue.bind f) o r o' ↔
      Attends owner request (f o.queues) o.openQueue r o' :=
  (attends_does_bind_iff rfl).trans
    ⟨fun ⟨_, _, ⟨hx, ho⟩, h⟩ => hx ▸ ho ▸ h, fun h => ⟨_, _, ⟨rfl, rfl⟩, h⟩⟩

theorem attends_send_bind_iff {queue : Session.Queue} {event : Event} {f : Bool → Prog η β} :
    Attends owner request ((send queue event).bind f) o r o' ↔
      ∃ kept, Attends owner request (f kept) (o.note (.sent queue event)) r o' :=
  (attends_does_bind_iff rfl).trans
    ⟨fun ⟨x, _, ho, h⟩ => ⟨x, ho ▸ h⟩, fun ⟨x, h⟩ => ⟨x, _, rfl, h⟩⟩

@[simp] theorem attends_employ_bind_iff {worker : Worker} {f : Task → Prog η β} :
    Attends owner request ((employ worker).bind f) o r o' ↔
      Attends owner request (f o.posts.length) (o.employ worker) r o' :=
  (attends_does_bind_iff rfl).trans
    ⟨fun ⟨_, _, ⟨hx, ho⟩, h⟩ => hx ▸ ho ▸ h, fun h => ⟨_, _, ⟨rfl, rfl⟩, h⟩⟩

@[simp] theorem attends_abort_bind_iff {task : Option Task} {f : Unit → Prog η β} :
    Attends owner request ((abort task).bind f) o r o' ↔
      Attends owner request (f ()) (o.dismiss task) r o' := by
  cases task with
  | none => exact Iff.rfl
  | some task =>
    refine (attends_does_bind_iff rfl).trans ⟨?_, fun h => ⟨(), _, rfl, h⟩⟩
    rintro ⟨_, _, rfl, h⟩
    exact h

end GattSync.Adapter
