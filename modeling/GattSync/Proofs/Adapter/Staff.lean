import GattSync.Proofs.Adapter.Office

/-!
# The staff of a session

What the workers of an office do between two waits. There are four places in a round at which a
worker waits (`Stage`), and from each of them it can go on in a few ways only
(`GoesOn.labours`): a forwarder tells what it has been told, keeps the handle of a peripheral and
reports it, or reports that one of those that are kept has gone; a listener hands out one value.

The office is in order (`IsStaffed`) when every worker that is still at its post is the one that the
tables name, and is at one of those places.
-/

namespace GattSync.Adapter

open Program Platform

variable {η α β : Type} {owner : Handle → String} {o o' : Office η} {worker : Worker}
  {p : Prog η Bool} {queue : Session.Queue} {id : String} {handle : Handle}

/-! ## Rounds by their waits -/

/-- What a forwarder does with what it has made of an event. -/
def pass (queue : Session.Queue) : Option Event → Prog η Bool
  | none => return true
  | some event => send queue event

/-- Keeps a peripheral that a handle was given for, and describes it. -/
def inspect (id : String) (handle : Handle) : Prog η (Option Event) := do
  match ← ask (.properties handle) with
  | .ok (some p) =>
    change (Tables.keep · id handle)
    return some (.discovered (describe id p) (advertised p) p.rssi)
  | _ => return none

/-- Describes a peripheral that has gone. -/
def lookBack (id : String) (handle : Handle) : Prog η (Option Event) := do
  let p := match ← ask (.properties handle) with
    | .ok (some p) => p
    | _ => {}
  return some (.disconnected (describe id p) none)

/-- Whoever has been given a handle inspects the peripheral. -/
theorem notice_eq (id : String) :
    (notice id : Prog η (Option Event)) = (ask (.peripheral id)).bind fun
      | .error _ => done none
      | .ok handle => inspect id handle := by
  refine congrArg (Program.bind _) (funext fun x => ?_)
  cases x with
  | error e => rfl
  | ok handle =>
    refine congrArg (Program.bind _) (funext fun y => ?_)
    match y with
    | .ok (some p) => rfl
    | .ok none => rfl
    | .error e => rfl

/-- Where a worker waits in its round. -/
inductive Stage where
  /-- It waits for something to arrive. -/
  | ready
  /-- A peripheral was seen, and there is no handle for it yet. -/
  | seeking (id : String)
  | inspecting (id : String) (handle : Handle)
  /-- A peripheral that is kept has gone. -/
  | parting (id : String) (handle : Handle)

/-- What is left of the round then. A listener has no other waits than for values. -/
def Stage.rest : Stage → Worker → Prog η Bool
  | .seeking id, .forward _ queue => (notice id).bind (pass queue)
  | .inspecting id handle, .forward _ queue => (inspect id handle).bind (pass queue)
  | .parting id handle, .forward _ queue => (lookBack id handle).bind (pass queue)
  | _, worker => worker.round

/-- The handles that the worker goes on with are those of the peripheral that is meant. -/
def Stage.IsFair (owner : Handle → String) (t : Tables η) : Stage → Prop
  | .inspecting id handle => owner handle = id
  | .parting id _ => t.knows id
  | _ => True

theorem Stage.IsFair.mono {stage : Stage} {t t' : Tables η} (h : stage.IsFair owner t)
    (hk : ∀ {id}, t.knows id → t'.knows id) : stage.IsFair owner t' := by
  cases stage with
  | parting id handle => exact hk h
  | _ => exact h

/-! ## Programs that go on -/

@[simp] theorem goesOn_ask_bind_iff {inquiry : Platform.Request}
    {f : inquiry.Answer → Prog η Bool} :
    GoesOn owner worker ((ask inquiry).bind f) o p o' ↔
      ∃ x, IsAnswer owner (.platform inquiry : Effect η) x ∧ Settles (f x) o p o' := by
  constructor
  · intro h
    cases h with
    | @intro _ _ x _ _ _ _ hx hs => cases worker <;> exact ⟨x, hx, hs⟩
  · rintro ⟨x, hx, hs⟩
    refine @GoesOn.intro η owner worker (.platform inquiry) f x p o o' rfl hx ?_
    cases worker <;> exact hs

@[simp] theorem goesOn_nextEvent_bind_iff {stream : Stream}
    {f : Option Platform.Event → Prog η Bool} :
    GoesOn owner worker ((nextEvent stream).bind f) o p o' ↔ ∃ x, Settles (f x) o p o' := by
  constructor
  · intro h
    cases h with
    | @intro _ _ x _ _ _ _ hx hs => cases worker <;> exact ⟨x, hs⟩
  · rintro ⟨x, hs⟩
    refine @GoesOn.intro η owner worker (.nextEvent stream) f x p o o' rfl trivial ?_
    cases worker <;> exact hs

@[simp] theorem goesOn_nextValue_bind_iff {stream source : Stream}
    {f : Option Notification → Prog η Bool} :
    GoesOn owner (.listen id source) ((nextValue stream).bind f) o p o' ↔
      Settles (f none) o p o' ∨ ∃ n, Settles (f (some n)) (o.note (.taken id n)) p o' := by
  constructor
  · intro h
    cases h with
    | @intro _ _ x _ _ _ _ hx hs =>
      cases x with
      | none => exact .inl hs
      | some n => exact .inr ⟨n, hs⟩
  · rintro (hs | ⟨n, hs⟩)
    · exact @GoesOn.intro η owner _ (.nextValue stream) f none p o o' rfl trivial hs
    · exact @GoesOn.intro η owner _ (.nextValue stream) f (some n) p o o' rfl trivial hs

section

variable {q : Prog η α}

@[simp] theorem settles_done_iff {a : α} :
    Settles (done a : Prog η α) o q o' ↔ q = done a ∧ o' = o := by
  constructor
  · intro h
    cases h
    exact ⟨rfl, rfl⟩
  · rintro ⟨rfl, rfl⟩
    exact .done a o'

theorem settles_ask_bind_iff {inquiry : Platform.Request} {f : inquiry.Answer → Prog η α} :
    Settles ((ask inquiry).bind f) o q o' ↔ q = (ask inquiry).bind f ∧ o' = o := by
  constructor
  · intro h
    cases h with
    | waits => exact ⟨rfl, rfl⟩
    | does hd => exact hd.elim
  · rintro ⟨rfl, rfl⟩
    exact .waits rfl _ o'

theorem settles_does_bind_iff {op : Effect η} (hw : op.isWait = false)
    {f : op.Answer → Prog η α} :
    Settles ((perform (S := Adapter.effects η) op).bind f) o q o' ↔
      ∃ x o₁, o.Does op x o₁ ∧ Settles (f x) o₁ q o' := by
  constructor
  · intro h
    cases h with
    | waits h => exact absurd h (by simp [hw])
    | does hd h => exact ⟨_, _, hd, h⟩
  · rintro ⟨x, o₁, hd, h⟩
    exact .does hd h

@[simp] theorem settles_tables_bind_iff {f : Tables η → Prog η α} :
    Settles (tables.bind f) o q o' ↔ Settles (f o.tables) o q o' :=
  (settles_does_bind_iff rfl).trans
    ⟨fun ⟨_, _, ⟨hx, ho⟩, h⟩ => hx ▸ ho ▸ h, fun h => ⟨_, o, ⟨rfl, rfl⟩, h⟩⟩

@[simp] theorem settles_change_bind_iff {g : Tables η → Tables η} {f : Unit → Prog η α} :
    Settles ((change g).bind f) o q o' ↔ Settles (f ()) (o.change g) q o' :=
  (settles_does_bind_iff rfl).trans ⟨fun ⟨_, _, ho, h⟩ => ho ▸ h, fun h => ⟨(), _, rfl, h⟩⟩

@[simp] theorem settles_deliver_bind_iff {consumer : η} {payload : Bytes} {f : Unit → Prog η α} :
    Settles ((deliver consumer payload).bind f) o q o' ↔
      Settles (f ()) (o.note (.delivered consumer payload)) q o' :=
  (settles_does_bind_iff rfl).trans ⟨fun ⟨_, _, ho, h⟩ => ho ▸ h, fun h => ⟨(), _, rfl, h⟩⟩

@[simp] theorem settles_send_iff {event : Event} :
    Settles (send queue event) o p o' ↔
      (∃ kept, p = done kept) ∧ o' = o.note (.sent queue event) := by
  rw [← bind_done (send queue event)]
  refine (settles_does_bind_iff rfl).trans ?_
  constructor
  · rintro ⟨x, _, rfl, h⟩
    obtain ⟨rfl, rfl⟩ := settles_done_iff.mp h
    exact ⟨⟨x, rfl⟩, rfl⟩
  · rintro ⟨⟨x, rfl⟩, rfl⟩
    exact ⟨x, _, rfl, .done x _⟩

end

/-- Consumers are handed a value in order. -/
def Office.handOut (o : Office η) (consumers : List η) (payload : Bytes) : Office η :=
  { o with log := o.log ++ consumers.map (.delivered · payload) }

theorem settles_handOut_iff {consumers : List η} {payload : Bytes} {f : Unit → Prog η Bool} :
    Settles ((consumers.forM fun consumer => deliver consumer payload).bind f) o p o' ↔
      Settles (f ()) (o.handOut consumers payload) p o' := by
  induction consumers generalizing o with
  | nil =>
    rw [Office.handOut, List.map_nil, List.append_nil]
    exact Iff.rfl
  | cons consumer consumers ih =>
    have first : ((consumer :: consumers).forM fun consumer => deliver consumer payload) =
        (deliver consumer payload).bind fun _ => consumers.forM fun c => deliver c payload := rfl
    rw [first, bind_assoc, settles_deliver_bind_iff, ih]
    simp [Office.handOut, Office.note]

/-! ## What workers do -/

/-- What a worker does between two waits. -/
inductive Labours (owner : Handle → String) (o : Office η) : Worker → Office η → Prop
  | idles (worker : Worker) : Labours owner o worker o
  | tells {stream : Stream} {queue : Session.Queue} (state : AdapterState) :
    Labours owner o (.forward stream queue) (o.note (.sent queue (.adapterState state)))
  /-- A peripheral is kept and reported at once. -/
  | notices {stream : Stream} {queue : Session.Queue} (handle : Handle) (p : Properties) :
    Labours owner o (.forward stream queue)
      ((o.change (Tables.keep · (owner handle) handle)).note
        (.sent queue (.discovered (describe (owner handle) p) (advertised p) p.rssi)))
  | reports {stream : Stream} {queue : Session.Queue} {id : String} (hk : o.tables.knows id)
      (p : Properties) :
    Labours owner o (.forward stream queue)
      (o.note (.sent queue (.disconnected (describe id p) none)))
  | hears (id : String) (stream : Stream) (n : Notification) :
    Labours owner o (.listen id stream)
      ((o.note (.taken id n)).handOut (o.tables.route id n.characteristic) n.payload)

/-- The worker is left with nothing, or at one of its waits. -/
def IsPlaced (owner : Handle → String) (t : Tables η) (worker : Worker)
    (left : Option (Prog η Bool)) : Prop :=
  ∀ rest ∈ left, ∃ stage : Stage, rest = stage.rest worker ∧ stage.IsFair owner t

theorem isPlaced_round {t : Tables η} : IsPlaced owner t worker (some worker.round) := by
  intro rest hr
  refine ⟨.ready, ?_, trivial⟩
  cases worker <;> exact (Option.some.inj hr).symm

theorem isPlaced_done {t : Tables η} {goesOn : Bool} :
    IsPlaced owner t worker (worker.after (done goesOn)) := by
  cases goesOn with
  | false => exact nofun
  | true => exact isPlaced_round

theorem goesOn_ready {stream : Stream}
    (h : GoesOn owner (.forward stream queue) (Worker.forward stream queue).round o p o') :
    Labours owner o (.forward stream queue) o' ∧
      IsPlaced owner o'.tables (.forward stream queue) ((Worker.forward stream queue).after p) := by
  obtain ⟨x, hs⟩ := goesOn_nextEvent_bind_iff.mp h
  cases x with
  | none =>
    obtain ⟨rfl, rfl⟩ := settles_done_iff.mp hs
    exact ⟨.idles _, isPlaced_done⟩
  | some event =>
    have waits {id : String} (hs : Settles ((notice id).bind (pass queue)) o p o') :
        Labours owner o (.forward stream queue) o' ∧
          IsPlaced owner o'.tables (.forward stream queue)
            ((Worker.forward stream queue).after p) := by
      obtain ⟨rfl, rfl⟩ := settles_ask_bind_iff.mp hs
      exact ⟨.idles _, fun rest hr => ⟨.seeking id, (Option.some.inj hr).symm, trivial⟩⟩
    cases event with
    | state s =>
      obtain ⟨⟨goesOn, rfl⟩, rfl⟩ := settles_send_iff.mp hs
      exact ⟨.tells s, isPlaced_done⟩
    | discovered id => exact waits hs
    | updated id => exact waits hs
    | disconnected id =>
      replace hs : Settles ((part id).bind (pass queue)) o p o' := hs
      rw [part, bind_eq, Program.bind_assoc, settles_tables_bind_iff] at hs
      cases hh : o.tables.handle? id with
      | none =>
        rw [hh] at hs
        obtain ⟨rfl, rfl⟩ := settles_done_iff.mp hs
        exact ⟨.idles _, isPlaced_done⟩
      | some handle =>
        rw [hh] at hs
        obtain ⟨rfl, rfl⟩ := settles_ask_bind_iff.mp hs
        refine ⟨.idles _, fun rest hr => ⟨.parting id handle, (Option.some.inj hr).symm, ?_⟩⟩
        exact Tables.knows_of_handle? hh
    | connected id =>
      obtain ⟨rfl, rfl⟩ := settles_done_iff.mp hs
      exact ⟨.idles _, isPlaced_done⟩
    | services id =>
      obtain ⟨rfl, rfl⟩ := settles_done_iff.mp hs
      exact ⟨.idles _, isPlaced_done⟩

theorem goesOn_inspect {stream : Stream} (ho : owner handle = id)
    (h : GoesOn owner (.forward stream queue) ((inspect id handle).bind (pass queue)) o p o') :
    Labours owner o (.forward stream queue) o' ∧ ∃ goesOn, p = done goesOn := by
  obtain ⟨x, -, hs⟩ := goesOn_ask_bind_iff.mp h
  match x with
  | .ok (some properties) =>
    obtain ⟨hp, rfl⟩ := settles_send_iff.mp (settles_change_bind_iff.mp hs)
    subst ho
    exact ⟨.notices handle properties, hp⟩
  | .ok none =>
    obtain ⟨rfl, rfl⟩ := settles_done_iff.mp hs
    exact ⟨.idles _, true, rfl⟩
  | .error e =>
    obtain ⟨rfl, rfl⟩ := settles_done_iff.mp hs
    exact ⟨.idles _, true, rfl⟩

/-- From any of its waits, a worker goes on to one of them or is done. -/
theorem GoesOn.labours {stage : Stage} (hf : stage.IsFair owner o.tables)
    (h : GoesOn owner worker (stage.rest worker) o p o') :
    Labours owner o worker o' ∧ IsPlaced owner o'.tables worker (worker.after p) := by
  cases worker with
  | listen id stream =>
    replace h : GoesOn owner (.listen id stream) (Worker.listen id stream).round o p o' := by
      cases stage <;> exact h
    rcases goesOn_nextValue_bind_iff.mp h with hs | ⟨n, hs⟩
    · obtain ⟨rfl, rfl⟩ := settles_done_iff.mp hs
      exact ⟨.idles _, isPlaced_done⟩
    · obtain ⟨rfl, rfl⟩ :=
        settles_done_iff.mp (settles_handOut_iff.mp (settles_tables_bind_iff.mp hs))
      exact ⟨.hears id stream n, isPlaced_done⟩
  | forward stream queue =>
    cases stage with
    | ready => exact goesOn_ready h
    | seeking id =>
      rw [Stage.rest, notice_eq, Program.bind_assoc] at h
      obtain ⟨x, hx, hs⟩ := goesOn_ask_bind_iff.mp h
      cases x with
      | error e =>
        obtain ⟨rfl, rfl⟩ := settles_done_iff.mp hs
        exact ⟨.idles _, isPlaced_done⟩
      | ok handle =>
        obtain ⟨rfl, rfl⟩ := settles_ask_bind_iff.mp hs
        exact ⟨.idles _, fun rest hr => ⟨.inspecting id handle, (Option.some.inj hr).symm, hx⟩⟩
    | inspecting id handle =>
      obtain ⟨labours, goesOn, rfl⟩ := goesOn_inspect hf h
      exact ⟨labours, isPlaced_done⟩
    | parting id handle =>
      obtain ⟨x, -, hs⟩ := goesOn_ask_bind_iff.mp h
      obtain ⟨⟨goesOn, rfl⟩, rfl⟩ := settles_send_iff.mp hs
      exact ⟨.reports hf _, isPlaced_done⟩

end GattSync.Adapter
