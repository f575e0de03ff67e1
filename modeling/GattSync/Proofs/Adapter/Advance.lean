import GattSync.Proofs.Adapter.Staff

/-!
# How an office advances

The steps of an office, one constructor for each: what a worker does between two waits, and what a
session does at once for a request, between two waits of its own (`Advances`). Everything else that
a session does is to ask the platform, and that is only noted.

An office stays in order with all of them (`Advances.isStaffed`): the tables name the worker that
forwards events and those that listen, and no other worker is at its post. So a peripheral has never
two listeners, and no event is forwarded to a queue that is not the open one.
-/

namespace GattSync.Adapter

open Program Platform

variable {η : Type} {owner : Handle → String} {o o' : Office η} {worker : Worker} {task : Task}
  {id : String} {handle : Handle} {stream : Stream} {K : Session.Request η → Prop}

/-! ## What a session does at once -/

namespace Office

/-- The listener of a peripheral goes, and its routes with it. -/
def unlisten (o : Office η) (id : String) : Office η :=
  (o.dismiss (o.tables.listener? id)).change (Tables.unlisten · id)

/-- A new listener takes the place of an old one. -/
def listen (o : Office η) (id : String) (stream : Stream) : Office η :=
  ((o.employ (.listen id stream)).change (Tables.listen · id o.posts.length)).dismiss
    (o.tables.listener? id)

/-- The event is sent if a queue is open. -/
def emit (o : Office η) (event : Event) : Office η :=
  match o.tables.events with
  | some queue => o.note (.sent queue event)
  | none => o

/-- A queue is opened with its first event, and a new forwarder takes the place of an old one. -/
def start (o : Office η) (stream : Stream) (state : AdapterState) : Office η :=
  ((((o.openQueue.note (.sent o.queues (.adapterState state))).change
    fun t => { t with events := some o.queues }).employ (.forward stream o.queues)).change
      fun t => { t with forwarder := some o.posts.length }).dismiss o.tables.forwarder

/-- The queue is closed, and the forwarder goes. -/
def shut (o : Office η) : Office η := (o.change Tables.shut).dismiss o.tables.forwarder

@[simp] theorem tables_unlisten : (o.unlisten id).tables = o.tables.unlisten id := by
  simp [unlisten]

@[simp] theorem tables_listen :
    (o.listen id stream).tables = o.tables.listen id o.posts.length := by
  simp [listen]

@[simp] theorem tables_start {state : AdapterState} :
    (o.start stream state).tables =
      { o.tables with events := some o.queues, forwarder := some o.posts.length } := by
  simp [start]

@[simp] theorem tables_shut : o.shut.tables = o.tables.shut := by
  simp [shut]

@[simp] theorem log_unlisten : (o.unlisten id).log = o.log := by
  simp [unlisten]

@[simp] theorem log_listen : (o.listen id stream).log = o.log := by
  simp [listen]

@[simp] theorem log_start {state : AdapterState} :
    (o.start stream state).log = o.log ++ [.sent o.queues (.adapterState state)] := by
  simp [start]

@[simp] theorem log_shut : o.shut.log = o.log := by
  simp [shut]

@[simp] theorem tables_emit {event : Event} : (o.emit event).tables = o.tables := by
  unfold emit
  split <;> rfl

@[simp] theorem sent_unlisten {queue : Session.Queue} :
    (o.unlisten id).sent queue = o.sent queue := by
  simp [sent]

@[simp] theorem sent_listen {queue : Session.Queue} :
    (o.listen id stream).sent queue = o.sent queue := by
  simp [sent]

theorem sent_emit {queue : Session.Queue} {event : Event} (hq : o.tables.events = some queue) :
    (o.emit event).sent queue = o.sent queue ++ [event] := by
  rw [emit, hq]
  simp [sent_note, Incident.sent?]

end Office

/-- Nothing is subscribed to or given up with it, and nothing is sent or handed out. -/
def Incident.isPlain : Incident η → Bool
  | .asked (.subscribe _ _ _) _ => false
  | .asked (.cancelConnection _) _ => false
  | .asked .stop (.isConnected _) => false
  | .asked _ _ => true
  | .answered (.subscribe _ _ _) (.subscribe _ _) (.error _) => false
  | .answered _ _ _ => true
  | _ => false

/-- One step of an office, with requests of a kind. -/
inductive Advances (owner : Handle → String) (K : Session.Request η → Prop) (o : Office η) :
    Office η → Prop
  | worked {task : Task} {worker : Worker} {rest : Prog η Bool} {left : Option (Prog η Bool)}
      {o' : Office η} (he : o.Employs task worker rest) (h : Labours owner o worker o')
      (hl : IsPlaced owner o'.tables worker left) : Advances owner K o (o'.assign task left)
  | noted {i : Incident η} (hi : i.isPlain) : Advances owner K o (o.note i)
  | enrolled {p : Peripheral} {c : Characteristic} {consumer : η} {handle : Handle}
      {found : Platform.Characteristic} (hk : K (.subscribe p c consumer)) :
    Advances owner K o ((o.change (Tables.addRoute · p.id c.uuid consumer)).note
      (.asked (.subscribe p c consumer) (.subscribe handle found)))
  /-- A subscription has been refused. -/
  | revoked {p : Peripheral} {c : Characteristic} {consumer : η} {handle : Handle}
      {found : Platform.Characteristic} (hk : K (.subscribe p c consumer)) (e : PlatformError) :
    Advances owner K o
      ((o.note (.answered (.subscribe p c consumer) (.subscribe handle found) (.error e))).change
        (Tables.removeRoute · p.id c.uuid))
  | cancelled {p : Peripheral} {handle : Handle} (hk : K (.cancelConnection p)) :
    Advances owner K o ((o.unlisten p.id).note (.asked (.cancelConnection p) (.disconnect handle)))
  /-- The session is to be stopped, and parts from a peripheral. -/
  | parted {handle : Handle} (hk : K .stop) :
    Advances owner K o ((o.unlisten (owner handle)).note (.asked .stop (.isConnected handle)))
  | listened {p : Peripheral} (hk : K (.connect p)) (known : o.tables.knows p.id)
      (stream : Stream) : Advances owner K o (o.listen p.id stream)
  /-- A connection has been made or has failed. -/
  | completed {p : Peripheral} (hk : K (.connect p)) (error : Option String) :
    Advances owner K o (o.emit (.connected p error))
  | released {p : Peripheral} (hk : K (.cancelConnection p)) (known : o.tables.knows p.id) :
    Advances owner K o (o.emit (.disconnected p none))
  | started (hk : K .start) (stream : Stream) (state : AdapterState) :
    Advances owner K o (o.start stream state)
  /-- All listeners have gone before. -/
  | shut (hk : K .stop) (hl : ∀ id, o.tables.listener? id = none) : Advances owner K o o.shut

/-- Any steps, one after the other. -/
abbrev Unfolds (owner : Handle → String) (K : Session.Request η → Prop) :
    Office η → Office η → Prop :=
  Relation.ReflTransGen (Advances owner K)

theorem Advances.mono {K' : Session.Request η → Prop} (h : Advances owner K o o')
    (hk : ∀ {request}, K request → K' request) : Advances owner K' o o' := by
  cases h with
  | worked he h hl => exact .worked he h hl
  | noted hi => exact .noted hi
  | enrolled h => exact .enrolled (hk h)
  | revoked h e => exact .revoked (hk h) e
  | cancelled h => exact .cancelled (hk h)
  | parted h => exact .parted (hk h)
  | listened h known stream => exact .listened (hk h) known stream
  | completed h error => exact .completed (hk h) error
  | released h known => exact .released (hk h) known
  | started h stream state => exact .started (hk h) stream state
  | shut h hl => exact .shut (hk h) hl

theorem Unfolds.mono {K' : Session.Request η → Prop} (h : Unfolds owner K o o')
    (hk : ∀ {request}, K request → K' request) : Unfolds owner K' o o' :=
  Relation.ReflTransGen.mono (fun _ _ step => step.mono hk) _ _ h

/-! ## Offices in order -/

/-- The workers that are at their posts are those that the tables name. -/
structure Office.IsStaffed (owner : Handle → String) (o : Office η) : Prop where
  placed {task : Task} {worker : Worker} {rest : Prog η Bool} (h : o.Employs task worker rest) :
    ∃ stage : Stage, rest = stage.rest worker ∧ stage.IsFair owner o.tables
  forwards {task : Task} {stream : Stream} {queue : Session.Queue} {rest : Prog η Bool}
    (h : o.Employs task (.forward stream queue) rest) :
    o.tables.forwarder = some task ∧ o.tables.events = some queue
  listens {task : Task} {id : String} {stream : Stream} {rest : Prog η Bool}
    (h : o.Employs task (.listen id stream) rest) : o.tables.listener? id = some task
  sound : o.tables.IsSound owner

theorem Office.isStaffed_new : ({} : Office η).IsStaffed owner where
  placed h := by simp [Office.Employs] at h
  forwards h := by simp [Office.Employs] at h
  listens h := by simp [Office.Employs] at h
  sound := Tables.isSound_of_nil rfl rfl

/-- A change keeps an office in order if it gives no worker a post and takes nothing from the
tables that the order of the office depends on. -/
theorem Office.IsStaffed.of_tables (hs : o.IsStaffed owner)
    (he : ∀ {task worker rest}, o'.Employs task worker rest → o.Employs task worker rest)
    (hk : ∀ {id}, o.tables.knows id → o'.tables.knows id)
    (hf : o'.tables.forwarder = o.tables.forwarder) (hq : o'.tables.events = o.tables.events)
    (hl : ∀ id, o'.tables.listener? id = o.tables.listener? id)
    (sound : o'.tables.IsSound owner) : o'.IsStaffed owner where
  placed h := by
    obtain ⟨stage, rfl, fair⟩ := hs.placed (he h)
    exact ⟨stage, rfl, fair.mono hk⟩
  forwards h := by
    rw [hf, hq]
    exact hs.forwards (he h)
  listens h := by
    rw [hl]
    exact hs.listens (he h)
  sound := sound

theorem Office.IsStaffed.note (hs : o.IsStaffed owner) (i : Incident η) :
    (o.note i).IsStaffed owner :=
  hs.of_tables id id rfl rfl (fun _ => rfl) hs.sound

theorem Office.IsStaffed.emit (hs : o.IsStaffed owner) (event : Event) :
    (o.emit event).IsStaffed owner := by
  unfold Office.emit
  split
  · exact hs.note _
  · exact hs

/-- Routes may come and go. -/
theorem Office.IsStaffed.changeRoutes (hs : o.IsStaffed owner) {f : Tables η → Tables η}
    (h : f o.tables = { o.tables with routes := (f o.tables).routes }) :
    (o.change f).IsStaffed owner := by
  have tables : (o.change f).tables = { o.tables with routes := (f o.tables).routes } := h
  refine hs.of_tables id ?_ ?_ ?_ ?_ ?_ <;> rw [tables]
  · exact id
  · exact fun _ => rfl
  · exact ⟨hs.sound.owned, hs.sound.known⟩

theorem Labours.employs_iff {w : Worker} {rest : Prog η Bool} (h : Labours owner o worker o') :
    o'.Employs task w rest ↔ o.Employs task w rest := by
  cases h <;> exact Iff.rfl

/-- The only thing that workers do to the tables is to keep a handle for its owner. -/
theorem Labours.tables_eq (h : Labours owner o worker o') :
    o'.tables = o.tables ∨ ∃ handle, o'.tables = o.tables.keep (owner handle) handle := by
  cases h with
  | notices handle p => exact .inr ⟨handle, rfl⟩
  | _ => exact .inl rfl

theorem Labours.isStaffed (h : Labours owner o worker o') (hs : o.IsStaffed owner) :
    o'.IsStaffed owner := by
  rcases h.tables_eq with ht | ⟨handle, ht⟩
  · refine hs.of_tables h.employs_iff.mp ?_ ?_ ?_ ?_ ?_ <;> rw [ht]
    · exact id
    · exact fun _ => rfl
    · exact hs.sound
  · refine hs.of_tables h.employs_iff.mp ?_ ?_ ?_ ?_ ?_ <;> rw [ht]
    · exact fun known => Tables.knows_keep.mpr (.inr known)
    · rfl
    · rfl
    · exact fun _ => rfl
    · exact (Tables.resembles_keep o.tables handle).isSound hs.sound

theorem Office.IsStaffed.assign {rest : Prog η Bool} {left : Option (Prog η Bool)}
    (hs : o.IsStaffed owner) (he : o.Employs task worker rest)
    (hl : IsPlaced owner o.tables worker left) : (o.assign task left).IsStaffed owner := by
  -- whoever is at the post afterwards is another worker, or this one
  have cases {t : Task} {w : Worker} {rest' : Prog η Bool}
      (h : (o.assign task left).Employs t w rest') :
      o.Employs t w rest' ∨ (t = task ∧ w = worker ∧ left = some rest') := by
    rcases Office.employs_assign.mp h with ⟨-, h⟩ | ⟨rfl, hleft, before, hp⟩
    · exact .inl h
    · have same := Option.some.inj (hp.symm.trans he)
      exact .inr ⟨rfl, (Post.mk.inj same).1, hleft⟩
  constructor
  case placed =>
    intro t w rest' h
    rcases cases h with h | ⟨-, rfl, rfl⟩
    · exact hs.placed h
    · exact hl _ rfl
  case forwards =>
    intro t stream queue rest' h
    rcases cases h with h | ⟨rfl, rfl, -⟩
    · exact hs.forwards h
    · exact hs.forwards he
  case listens =>
    intro t id stream rest' h
    rcases cases h with h | ⟨rfl, rfl, -⟩
    · exact hs.listens h
    · exact hs.listens he
  case sound => exact hs.sound

theorem Office.IsStaffed.unlisten (hs : o.IsStaffed owner) (id : String) :
    (o.unlisten id).IsStaffed owner := by
  have employs {t : Task} {w : Worker} {rest : Prog η Bool}
      (h : (o.unlisten id).Employs t w rest) :
      o.Employs t w rest ∧ o.tables.listener? id ≠ some t := by
    simpa [Office.unlisten] using h
  constructor
  case placed =>
    intro t w rest h
    obtain ⟨stage, rfl, fair⟩ := hs.placed (employs h).1
    rw [Office.tables_unlisten]
    exact ⟨stage, rfl, fair.mono fun known => known⟩
  case forwards =>
    intro t stream queue rest h
    rw [Office.tables_unlisten]
    exact hs.forwards (employs h).1
  case listens =>
    intro t other stream rest h
    have named := hs.listens (employs h).1
    have ne : other ≠ id := fun same => (employs h).2 (same ▸ named)
    rw [Office.tables_unlisten, Tables.listener?_unlisten_of_ne _ ne, named]
  case sound =>
    rw [Office.tables_unlisten]
    exact hs.sound.unlisten id

theorem Office.IsStaffed.listen (hs : o.IsStaffed owner) (known : o.tables.knows id)
    (stream : Stream) : (o.listen id stream).IsStaffed owner := by
  have employs {t : Task} {w : Worker} {rest : Prog η Bool}
      (h : (o.listen id stream).Employs t w rest) :
      o.Employs t w rest ∧ o.tables.listener? id ≠ some t ∨
        t = o.posts.length ∧ w = .listen id stream ∧ rest = w.round := by
    simp only [Office.listen, Office.employs_dismiss, Office.employs_change,
      Office.employs_employ] at h
    rcases h with ⟨h | ⟨rfl, rfl, rfl⟩, hne⟩
    · exact .inl ⟨h, hne⟩
    · exact .inr ⟨rfl, rfl, rfl⟩
  constructor
  case placed =>
    intro t w rest h
    rw [Office.tables_listen]
    rcases employs h with ⟨h, -⟩ | ⟨-, -, rfl⟩
    · obtain ⟨stage, rfl, fair⟩ := hs.placed h
      exact ⟨stage, rfl, fair.mono fun known => known⟩
    · exact isPlaced_round _ rfl
  case forwards =>
    intro t source queue rest h
    rw [Office.tables_listen]
    rcases employs h with ⟨h, -⟩ | ⟨-, hw, -⟩
    · exact hs.forwards h
    · cases hw
  case listens =>
    intro t other source rest h
    rw [Office.tables_listen]
    rcases employs h with ⟨h, hne⟩ | ⟨rfl, hw, -⟩
    · have named := hs.listens h
      have ne : other ≠ id := fun same => hne (same ▸ named)
      rw [Tables.listener?_listen_of_ne _ ne, named]
    · cases hw
      exact Tables.listener?_listen_self _ _ _
  case sound =>
    rw [Office.tables_listen]
    exact hs.sound.listen known _

theorem Office.IsStaffed.start (hs : o.IsStaffed owner) (stream : Stream) (state : AdapterState) :
    (o.start stream state).IsStaffed owner := by
  have employs {t : Task} {w : Worker} {rest : Prog η Bool}
      (h : (o.start stream state).Employs t w rest) :
      o.Employs t w rest ∧ o.tables.forwarder ≠ some t ∨
        t = o.posts.length ∧ w = .forward stream o.queues ∧ rest = w.round := by
    simp only [Office.start, Office.employs_dismiss, Office.employs_change,
      Office.employs_employ, Office.employs_note, Office.employs_openQueue] at h
    rcases h with ⟨h | ⟨rfl, rfl, rfl⟩, hne⟩
    · exact .inl ⟨h, hne⟩
    · exact .inr ⟨rfl, rfl, rfl⟩
  constructor
  case placed =>
    intro t w rest h
    rw [Office.tables_start]
    rcases employs h with ⟨h, -⟩ | ⟨-, -, rfl⟩
    · obtain ⟨stage, rfl, fair⟩ := hs.placed h
      exact ⟨stage, rfl, fair.mono fun known => known⟩
    · exact isPlaced_round _ rfl
  case forwards =>
    intro t source queue rest h
    rw [Office.tables_start]
    rcases employs h with ⟨h, hne⟩ | ⟨rfl, hw, -⟩
    · exact absurd (hs.forwards h).1 hne
    · cases hw
      exact ⟨rfl, rfl⟩
  case listens =>
    intro t id source rest h
    rw [Office.tables_start]
    rcases employs h with ⟨h, -⟩ | ⟨-, hw, -⟩
    · exact hs.listens h
    · cases hw
  case sound =>
    rw [Office.tables_start]
    exact ⟨hs.sound.owned, hs.sound.known⟩

/-- Once the listeners have gone, nobody is left at work in an office that is shut. -/
theorem Office.IsStaffed.not_employs_shut (hs : o.IsStaffed owner)
    (hl : ∀ id, o.tables.listener? id = none) {rest : Prog η Bool} :
    ¬ o.shut.Employs task worker rest := by
  intro h
  obtain ⟨h, hne⟩ : o.Employs task worker rest ∧ o.tables.forwarder ≠ some task := by
    simpa [Office.shut] using h
  cases worker with
  | forward stream queue => exact hne (hs.forwards h).1
  | listen id stream => simpa [hl] using hs.listens h

theorem Office.IsStaffed.shut (hs : o.IsStaffed owner) (hl : ∀ id, o.tables.listener? id = none) :
    o.shut.IsStaffed owner where
  placed h := absurd h (hs.not_employs_shut hl)
  forwards h := absurd h (hs.not_employs_shut hl)
  listens h := absurd h (hs.not_employs_shut hl)
  sound := by
    rw [Office.tables_shut]
    refine ⟨nofun, fun listened => ?_⟩
    obtain ⟨task, named⟩ := exists_lookup_of_mem listened
    exact absurd ((hl _).symm.trans named) nofun

/-- An office stays in order with every step. -/
theorem Advances.isStaffed (h : Advances owner K o o') (hs : o.IsStaffed owner) :
    o'.IsStaffed owner := by
  cases h with
  | worked he h hl => exact (h.isStaffed hs).assign (h.employs_iff.mpr he) hl
  | noted => exact hs.note _
  | enrolled => exact (hs.changeRoutes rfl).note _
  | revoked _ e => exact (hs.note _).changeRoutes rfl
  | cancelled => exact (hs.unlisten _).note _
  | parted => exact (hs.unlisten _).note _
  | listened _ known stream => exact hs.listen known stream
  | completed => exact hs.emit _
  | released => exact hs.emit _
  | started _ stream state => exact hs.start stream state
  | shut _ hl => exact hs.shut hl

theorem Unfolds.isStaffed (h : Unfolds owner K o o') (hs : o.IsStaffed owner) :
    o'.IsStaffed owner := by
  induction h with
  | refl => exact hs
  | tail _ step ih => exact step.isStaffed ih

/-- What every step of an office in order keeps holds for good. -/
theorem Unfolds.preserves {I : Office η → Prop} (h : Unfolds owner K o o')
    (hs : o.IsStaffed owner) (hi : I o)
    (keeps : ∀ {o₁ o₂}, o₁.IsStaffed owner → Advances owner K o₁ o₂ → I o₁ → I o₂) : I o' := by
  induction h with
  | refl => exact hi
  | tail before step ih => exact keeps (Unfolds.isStaffed before hs) step ih

/-! ## Workers at work -/

theorem Resumes.advances (h : Resumes owner o o') (hs : o.IsStaffed owner) :
    Advances owner K o o' := by
  obtain ⟨he, h⟩ := h
  obtain ⟨stage, rfl, fair⟩ := hs.placed he
  obtain ⟨labours, placed⟩ := h.labours fair
  exact .worked he labours placed

theorem unfolds_of_works (h : Works owner o o') (hs : o.IsStaffed owner) :
    Unfolds owner K o o' := by
  induction h with
  | refl => exact .refl
  | tail _ step ih => exact ih.tail (step.advances (ih.isStaffed hs))

end GattSync.Adapter
