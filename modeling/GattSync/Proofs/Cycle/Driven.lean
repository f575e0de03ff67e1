import GattSync.Proofs.Adapter.Announcements
import GattSync.Proofs.Cycle.Addressees
import GattSync.Proofs.Resync.Span

/-!
# A controller on an adapter session

A controller that is driven by an adapter session handles the events of one queue in order. What it
asks meanwhile is attended to in the session's office (`Serves`), and the workers go on whenever
they can: while the session waits, while the controller does something else, and between two events
(`Controller.Follows`).

Whatever a controller asks of a peripheral, it has sighted that peripheral on the queue. There it
was announced, so the session knows it and goes on to know it until it is stopped. This is why no
request of a controller is refused because there is no such peripheral
(`Controller.Follows.reaches`).
-/

namespace GattSync.Adapter

open Program Platform

variable {η α β : Type} {owner : Handle → String} {request : Session.Request η} {o o' : Office η}

/-! ## Who is refused -/

/-- The answer is not that there is no such peripheral. -/
def Finds (x : Except Error α) : Prop := ∀ id, x ≠ .error (.peripheralNotFound id)

theorem finds_ok (a : α) : Finds (.ok a) := nofun

theorem finds_answered (x : Except PlatformError α) : Finds (answered x) := by
  cases x <;> exact nofun

theorem finds_of_withHandle {p : Peripheral} {next : Handle → Prog η (Except Error α)}
    {x : Except Error α} (h : Attends owner request (withHandle p next) o (some x) o')
    (hk : o.tables.knows p.id) (hn : ∀ handle, (next handle).Ends Finds) : Finds x := by
  rcases attends_withHandle h with ⟨unknown, -, -⟩ | ⟨handle, -, calls, h⟩
  · obtain ⟨handle, hh⟩ := Tables.handle?_of_knows hk
    exact nomatch unknown.symm.trans hh
  · exact h.ends (hn handle)

theorem finds_of_withCharacteristic {p : Peripheral} {c : Characteristic}
    {next : Handle → Platform.Characteristic → Prog η (Except Error α)} {x : Except Error α}
    (h : Attends owner request (withCharacteristic p c next) o (some x) o')
    (hk : o.tables.knows p.id) (hn : ∀ handle found, (next handle found).Ends Finds) :
    Finds x := by
  refine finds_of_withHandle h hk fun handle => Ends.bind _ fun listed => ?_
  split
  · exact hn _ _
  · exact nofun

theorem ends_start : (start : Prog η (Except Error Session.Queue)).Ends Finds := by
  refine Ends.bind _ fun x => ?_
  cases x with
  | error e => exact nofun
  | ok stream =>
    refine Ends.bind _ fun y => Ends.bind _ fun queue => Ends.bind _ fun _ => ?_
    refine Ends.bind _ fun _ => Ends.bind _ fun task => Ends.bind _ fun t => ?_
    exact Ends.bind _ fun _ => Ends.bind _ fun _ => finds_ok queue

/-- Only a request to a peripheral that is not known is refused like that. -/
theorem finds_of_knows {x : request.Answer}
    (h : Attends owner request (answer request) o (some x) o')
    (hk : ∀ p, request.addressee? = some p → o.tables.knows p.id) : Finds x := by
  cases request with
  | start =>
    obtain ⟨calls, h⟩ := h
    exact h.ends ends_start
  | stop =>
    obtain ⟨calls, h⟩ := h
    exact h.ends (Ends.bind _ finds_ok)
  | scan services | stopScanning =>
    obtain ⟨calls, h⟩ := h
    exact h.ends (Ends.bind _ finds_answered)
  | connect p =>
    refine finds_of_withHandle h (hk p rfl) fun handle => Ends.bind _ fun y => ?_
    cases y with
    | error e => exact Ends.bind _ finds_ok
    | ok done => exact Ends.bind _ fun _ => Ends.bind _ finds_ok
  | cancelConnection p =>
    refine finds_of_withHandle h (hk p rfl) fun handle => Ends.bind _ fun _ => ?_
    refine Ends.bind _ fun y => ?_
    cases y with
    | error e => exact nofun
    | ok done => exact Ends.bind _ finds_ok
  | setMtu p mtu =>
    obtain ⟨calls, h⟩ := h
    exact h.ends nofun
  | discoverServices p =>
    refine finds_of_withHandle h (hk p rfl) fun handle => Ends.bind _ fun y => ?_
    cases y with
    | error e => exact nofun
    | ok done => exact Ends.bind _ fun listed => finds_ok _
  | discoverCharacteristics p s =>
    exact finds_of_withHandle h (hk p rfl) fun handle => Ends.bind _ fun listed => finds_ok _
  | discoverDescriptors p c =>
    exact finds_of_withCharacteristic h (hk p rfl) fun _ found => finds_ok _
  | read p c | write p c payload acknowledged =>
    exact finds_of_withCharacteristic h (hk p rfl) fun _ _ => Ends.bind _ finds_answered
  | subscribe p c consumer =>
    refine finds_of_withCharacteristic h (hk p rfl) fun handle found => Ends.bind _ fun _ => ?_
    refine Ends.bind _ fun y => ?_
    cases y with
    | ok done => exact finds_ok ()
    | error e => exact Ends.bind _ fun _ => nofun

end GattSync.Adapter

namespace GattSync.Cycle

open Program Adapter Platform

variable {plan : Plan} {owner : Handle → String} {queue : Session.Queue}
  {o o₁ o' : Office String} {call : Call Cycle.effects} {calls : List (Call Cycle.effects)}
  {K : Session.Request String → Prop}

/-! ## What a controller's calls do in the office -/

/-- How the office is taken on by a call of the controller. Any call may be given up. -/
inductive Serves (owner : Handle → String) (o : Office String) :
    Call Cycle.effects → Office String → Prop
  | attended {request : Session.Request String} {x : Option request.Answer} {o' : Office String}
      (h : Attends owner request (answer request) o x o') :
    Serves owner o ⟨.session request, x⟩ o'
  /-- Meanwhile the session is left to its workers. -/
  | apart {effect : Effect} {x : Option effect.Answer} {o' : Office String}
      (hn : ∀ request, effect ≠ .session request) (h : Works owner o o') :
    Serves owner o ⟨effect, x⟩ o'

theorem serves_session_iff {request : Session.Request String} {x : Option request.Answer} :
    Serves owner o ⟨.session request, x⟩ o' ↔
      Attends owner request (answer request) o x o' := by
  constructor
  · intro h
    cases h with
    | attended h => exact h
    | apart hn => exact absurd rfl (hn request)
  · exact .attended

/-- The requests of the call, if it is one, are of a kind. -/
def Asks (K : Session.Request String → Prop) (call : Call Cycle.effects) : Prop :=
  ∀ request, request? call = some request → K request

theorem Serves.unfolds (h : Serves owner o call o') (hs : o.IsStaffed owner) (hk : Asks K call) :
    Unfolds owner K o o' := by
  cases h with
  | attended h => exact attends_answer (hk _ rfl) hs h
  | apart _ h => exact unfolds_of_works h hs

theorem unfolds_of_leads (h : Leads (Serves owner) o calls o') (hs : o.IsStaffed owner)
    (hk : ∀ call ∈ calls, Asks K call) : Unfolds owner K o o' := by
  induction h with
  | nil => exact .refl
  | cons served _ ih =>
    obtain ⟨first, others⟩ := List.forall_mem_cons.mp hk
    have unfolds := served.unfolds hs first
    exact unfolds.trans (ih (unfolds.isStaffed hs) others)

/-- The request is neither to start the session nor to stop it. -/
def IsWithin (request : Session.Request String) : Prop := request ≠ .start ∧ request ≠ .stop

theorem asks_isWithin_of_isInner (h : call.1.IsInner) : Asks IsWithin call := by
  obtain ⟨effect, x⟩ := call
  intro request hr
  cases effect with
  | session r =>
    obtain rfl := Option.some.inj hr
    exact h
  | _ => cases hr

theorem opened_of_within (h : Unfolds owner IsWithin o o') (hq : o.tables.events = some queue) :
    o'.tables.events = some queue :=
  (h.events_eq (fun h => h.1 rfl) (fun h => h.2 rfl)).trans hq

theorem grows_of_within (h : Unfolds owner IsWithin o o') (hs : o.IsStaffed owner)
    (queue : Session.Queue) : ∃ more, o'.sent queue = o.sent queue ++ more := by
  obtain ⟨more, sent, -⟩ := h.adds (fun h => h.1 rfl) hs queue
  exact ⟨more, sent⟩

namespace Controller

variable {c c' : Controller} {turns : List Turn} {e : Event}

theorem isWithin_of_evolves {r : Option Controller}
    (h : (c.handle plan e).Evolves (Serves owner) o calls r o') :
    ∀ call ∈ calls, Asks IsWithin call :=
  fun call hc => asks_isWithin_of_isInner (h.uses (uses_handle plan c e) call hc)

/-! ## Controllers that follow a queue -/

/-- From the first state of the office on, a controller has handled the events of a queue in order,
one in each of these turns. It is left in this state, and the office in the second one. -/
inductive Follows (owner : Handle → String) (plan : Plan) (queue : Session.Queue)
    (o : Office String) : List Turn → Controller → Office String → Prop
  | begun : Follows owner plan queue o [] {} o
  | worked {turns : List Turn} {c : Controller} {o₁ o₂ : Office String}
      (h : Follows owner plan queue o turns c o₁) (hr : Resumes owner o₁ o₂) :
    Follows owner plan queue o turns c o₂
  | handled {turns : List Turn} {c c' : Controller} {e : Event} {calls : List (Call Cycle.effects)}
      {o₁ o₂ : Office String} (h : Follows owner plan queue o turns c o₁)
      (he : (o₁.sent queue)[turns.length]? = some e)
      (ht : (c.handle plan e).Evolves (Serves owner) o₁ calls (some c') o₂) :
    Follows owner plan queue o (turns ++ [⟨c, e, calls, c'⟩]) c' o₂

theorem Follows.works (h : Follows owner plan queue o turns c o₁) (hw : Works owner o₁ o') :
    Follows owner plan queue o turns c o' := by
  induction hw with
  | refl => exact h
  | tail _ hr ih => exact ih.worked hr

theorem Follows.history (h : Follows owner plan queue o turns c o') :
    History plan {} turns c := by
  induction h with
  | begun => exact .nil
  | worked _ _ ih => exact ih
  | handled _ _ ht ih => exact ih.snoc ht.runs

theorem Follows.unfolds (h : Follows owner plan queue o turns c o') (hs : o.IsStaffed owner) :
    Unfolds owner IsWithin o o' := by
  induction h with
  | begun => exact .refl
  | worked _ hr ih => exact ih.tail (hr.advances (ih.isStaffed hs))
  | handled _ _ ht ih =>
    exact ih.trans (unfolds_of_leads ht.leads (ih.isStaffed hs) (isWithin_of_evolves ht))

theorem prefix_snoc {events all : List Event} (h : events <+: all)
    (he : all[events.length]? = some e) : events ++ [e] <+: all := by
  obtain ⟨rest, rfl⟩ := h
  rw [List.getElem?_append_right (Nat.le_refl _), Nat.sub_self] at he
  cases rest with
  | nil => cases he
  | cons first rest =>
    obtain rfl := Option.some.inj he
    exact ⟨rest, by simp⟩

/-- The events of the turns are the first ones of the queue. -/
theorem Follows.events (h : Follows owner plan queue o turns c o') (hs : o.IsStaffed owner) :
    turns.map (·.event) <+: o'.sent queue := by
  have longer {o₁ o₂ : Office String} (h : Unfolds owner IsWithin o₁ o₂)
      (hs : o₁.IsStaffed owner) : o₁.sent queue <+: o₂.sent queue := by
    obtain ⟨more, sent⟩ := grows_of_within h hs queue
    exact ⟨more, sent.symm⟩
  induction h with
  | begun => exact List.nil_prefix
  | worked before hr ih =>
    have staffed := (before.unfolds hs).isStaffed hs
    exact ih.trans (longer (.single (hr.advances staffed)) staffed)
  | @handled turns c c' e calls o₁ o₂ before he ht ih =>
    have staffed := (before.unfolds hs).isStaffed hs
    have sent := longer (unfolds_of_leads ht.leads staffed (isWithin_of_evolves ht)) staffed
    rw [List.map_append]
    exact (prefix_snoc ih (by simpa using he)).trans sent

/-! ## Controllers that come to connect -/

/-- A controller can follow a new session until it requests a connection to a peripheral that the
spec means, whoever that is. The completion is then all that waits for it. -/
theorem exists_follows_connecting (owner : Handle → String) (plan : Plan) (handle : Handle)
    (properties : Properties) {p : Peripheral} (hp : p = describe (owner handle) properties)
    (hm : plan.spec.protocol.isMatch properties.localName p.address) :
    ∃ o₁ o turns, Attends owner .start (answer .start) {} (some (.ok (0 : Nat))) o₁ ∧
      Follows owner plan (0 : Nat) o₁ turns { connection := .connecting, target := some p } o ∧
      (∃ u ∈ turns, asked (.connect p) (.ok ()) ∈ u.calls) ∧
      (o.sent (0 : Nat)).drop turns.length = [.connected p none] ∧
      o.tables.events = some (0 : Nat) ∧ o.tables.handle? p.id = some handle := by
  subst hp
  let p := describe (owner handle) properties
  obtain ⟨o₁, o₂, hstart, hworks, tables₂, sent₂⟩ :=
    exists_known (o := ({} : Office String)) owner rfl handle properties
  let o₃ := (o₂.note (.asked (.scan []) (.startScan []))).note
    (.answered (.scan []) (.startScan []) (.ok ()))
  have scan : Attends owner (.scan []) (answer (.scan [])) o₂ (some (.ok ())) o₃ :=
    attends_ask_bind_iff.mpr (.inr ⟨.ok (), _, .refl, attends_done_iff.mpr ⟨rfl, rfl⟩⟩)
  let o₄ := (o₃.note (.asked .stopScanning .stopScan)).note
    (.answered .stopScanning .stopScan (.ok ()))
  have pause : Attends owner .stopScanning (answer .stopScanning) o₃ (some (.ok ())) o₄ :=
    attends_ask_bind_iff.mpr (.inr ⟨.ok (), _, .refl, attends_done_iff.mpr ⟨rfl, rfl⟩⟩)
  have tables₄ : o₄.tables = o₂.tables := rfl
  have known : o₄.tables.handle? p.id = some handle := by
    rw [tables₄, tables₂]
    exact lookup_put_self _ _ _
  have opened : o₄.tables.events = some (0 : Nat) := by rw [tables₄, tables₂]
  have silent : o₄.tables.listener? p.id = none := by
    rw [tables₄, tables₂]
    rfl
  obtain ⟨o₅, connect, tables₅, -, sent₅⟩ := exists_connected owner known opened silent (0 : Nat)
  have sent₃ : o₃.sent (0 : Nat) = o₂.sent (0 : Nat) := by
    simp [o₃, Office.sent_note, Incident.sent?]
  have sent₄ : o₄.sent (0 : Nat) = o₂.sent (0 : Nat) := by
    rw [← sent₃]
    simp [o₄, Office.sent_note, Incident.sent?]
  have following : Follows owner plan (0 : Nat) o₁ [] {} o₂ := Follows.begun.works hworks
  have searching := following.handled (e := .adapterState .poweredOn) (by rw [sent₂]; rfl)
    (.asked (.attended scan) (.done ({ connection := .scanning } : Controller) o₃))
  have selecting : (({ connection := .scanning } : Controller).handle plan
      (.discovered p (advertised properties) properties.rssi)).Evolves (Serves owner) o₃
      [asked .stopScanning (.ok ()), asked (.connect p) (.ok ())]
      (some { connection := .connecting, target := some p }) o₅ := by
    show (onDiscovered plan _ _ _).Evolves _ _ _ _ _
    rw [onDiscovered, if_pos (by simpa [advertised] using hm)]
    exact .asked (.attended pause) (.asked (.attended connect) (.done _ o₅))
  have connecting := searching.handled (by rw [sent₃, sent₂]; rfl) selecting
  refine ⟨o₁, o₅, _, hstart, connecting,
    ⟨_, List.mem_append_right _ (List.mem_singleton_self _), .tail _ (.head _)⟩, ?_, ?_, ?_⟩
  · rw [sent₅, sent₄, sent₂]
    rfl
  · rw [tables₅]
    exact opened
  · rw [tables₅]
    exact known

/-! ## No request misses its peripheral -/

/-- The session has not answered that there is no such peripheral. -/
def Reaches (call : Call Cycle.effects) : Prop :=
  ∀ request id, call ≠ asked request (.error (.peripheralNotFound id))

theorem reaches_of_serves (h : Serves owner o call o')
    (hk : ∀ request p, request? call = some request → request.addressee? = some p →
      o.tables.knows p.id) : Reaches call := by
  rintro request id rfl
  exact finds_of_knows (serves_session_iff.mp h) (fun p => hk request p rfl) id rfl

/-- In the turn of an event of the queue, also if it is given up, every request reaches its
peripheral. -/
theorem Follows.reaches {r : Option Controller} (h : Follows owner plan queue o turns c o₁)
    (hs : o.IsStaffed owner) (ha : o.Announces queue)
    (he : (o₁.sent queue)[turns.length]? = some e)
    (ht : (c.handle plan e).Evolves (Serves owner) o₁ calls r o') :
    ∀ call ∈ calls, Reaches call := by
  have unfolds := h.unfolds hs
  have staffed := unfolds.isStaffed hs
  have announces := unfolds.announces (fun h => h.2 rfl) hs ha
  obtain ⟨c', account⟩ : ∃ c', Account plan {} (turns ++ [⟨c, e, calls, c'⟩]) := by
    cases r with
    | none => exact ⟨c, .cut h.history ht.breaks⟩
    | some c' => exact ⟨c', .whole (h.history.snoc ht.runs)⟩
  have events : (turns ++ [Turn.mk c e calls c']).map Turn.event <+: o₁.sent queue := by
    rw [List.map_append]
    exact prefix_snoc (h.events hs) (by simpa using he)
  -- whoever is asked for something has been sighted on the queue, so the session knows them
  have known : ∀ call ∈ calls, ∀ request p, request? call = some request →
      request.addressee? = some p → o₁.tables.knows p.id := by
    intro call hc request p hr hp
    obtain ⟨v, hv, -, q, advertisement, rssi, hev, hid, -⟩ :=
      account.addressed.sighted turns _ [] rfl request (List.mem_filterMap.mpr ⟨call, hc, hr⟩) p hp
    refine announces.resolves (events.subset (List.mem_map_of_mem hv)) ?_
    rw [hev]
    exact hid
  have within := isWithin_of_evolves ht
  refine (ht.leads.forall_calls (P := fun call => call ∈ calls)
    (I := fun o => o.IsStaffed owner ∧ ∀ id, o₁.tables.knows id → o.tables.knows id)
    (fun _ => id) ?_ ⟨staffed, fun _ => id⟩).2
  rintro o₂ call o₃ hc serves ⟨staffed, knows⟩
  have step := serves.unfolds staffed (within call hc)
  refine ⟨⟨step.isStaffed staffed, fun id known => ?_⟩, ?_⟩
  · exact step.knows (fun h => h.2 rfl) (knows id known)
  · exact reaches_of_serves serves fun request p hr hp => knows _ (known call hc request p hr hp)

/-- However a session goes on that has been started with this queue, until it is stopped. -/
structure KeepsAnnounced (owner : Handle → String) (queue : Session.Queue) (o₁ : Office String) :
    Prop where
  first {o : Office String} (h : Elapses owner (· ≠ .stop) o₁ o) :
    ∃ state, (o.sent queue).head? = some (.adapterState state)
  announced {o : Office String} (h : Elapses owner (· ≠ .stop) o₁ o) : IsAnnounced (o.sent queue)
  /-- Whoever has been announced has a handle, and it is theirs. -/
  resolves {o : Office String} (h : Elapses owner (· ≠ .stop) o₁ o) {e : Event}
      (he : e ∈ o.sent queue) {id : String} (ha : e.Announces id) :
    ∃ handle, o.tables.handle? id = some handle ∧ owner handle = id

/-- However a controller follows a queue, its requests reach their peripherals. -/
structure ReachesAll (owner : Handle → String) (plan : Plan) (queue : Session.Queue)
    (o₁ : Office String) : Prop where
  whole {turns : List Turn} {c : Controller} {o : Office String}
      (h : Follows owner plan queue o₁ turns c o) {u : Turn} (hu : u ∈ turns) :
    ∀ call ∈ u.calls, Reaches call
  /-- The last turn has been given up. -/
  cut {turns : List Turn} {c : Controller} {o o' : Office String} {e : Event}
      {calls : List (Call Cycle.effects)} (h : Follows owner plan queue o₁ turns c o)
      (he : (o.sent queue)[turns.length]? = some e)
      (ht : (c.handle plan e).Evolves (Serves owner) o calls none o') :
    ∀ call ∈ calls, Reaches call

theorem keepsAnnounced_of_announces (hs : o₁.IsStaffed owner) (ha : o₁.Announces queue) :
    KeepsAnnounced owner queue o₁ := by
  have kept {o : Office String} (h : Elapses owner (· ≠ .stop) o₁ o) : o.Announces queue :=
    (h.unfolds hs).announces (fun h => h rfl) hs ha
  constructor
  case first => exact fun h => (kept h).first
  case announced => exact fun h => (kept h).announced
  case resolves =>
    intro o h e he id announces
    obtain ⟨handle, hh⟩ := Tables.handle?_of_knows ((kept h).resolves he announces)
    exact ⟨handle, hh, (h.isStaffed hs).sound.owner_eq hh⟩

theorem reachesAll_of_announces (hs : o₁.IsStaffed owner) (ha : o₁.Announces queue) :
    ReachesAll owner plan queue o₁ := by
  constructor
  case whole =>
    intro turns c o h u hu
    induction h with
    | begun => simp at hu
    | worked _ _ ih => exact ih hu
    | handled before he ht ih =>
      rcases List.mem_append.mp hu with hu | hu
      · exact ih hu
      · obtain rfl := List.mem_singleton.mp hu
        exact before.reaches hs ha he ht
  case cut => exact fun h he ht => h.reaches hs ha he ht

/-- A session that could not be started has been left to its workers, and if it was not started
before it is as it was. One that has been started tells the state of the adapter first, reports only
those as gone that it has announced, and goes on to have the handle of everybody it has announced.
So no request of a controller that follows its queue is refused because there is no such
peripheral.

What a worker does between two waits overlaps nothing else, as in every office
(`Adapter.Resumes`): the forwarder keeps a handle and sends its event before the session goes on.
That the session acts in between, on another thread, is left out. -/
theorem announced_peripherals_reached {o₀ : Office String}
    (h : Elapses owner (fun _ => True) {} o₀) {r : Option (Except Error Session.Queue)}
    (hstart : Attends owner .start (answer .start) o₀ r o₁) :
    ((∀ queue, r ≠ some (.ok queue)) → Idles owner o₀ o₁ ∧
      (Unstarted owner o₀ → o₁.tables = o₀.tables ∧ o₁.posts = o₀.posts ∧
        o₁.queues = o₀.queues ∧ ∀ queue, o₁.sent queue = o₀.sent queue)) ∧
    ∀ queue, r = some (.ok queue) → Unstarted owner o₀ →
      KeepsAnnounced owner queue o₁ ∧ ∀ plan, ReachesAll owner plan queue o₁ := by
  have staffed := h.isStaffed Office.isStaffed_new
  constructor
  · intro refused
    have idle := idles_of_refused staffed hstart refused
    exact ⟨idle, fun unstarted => idle.of_isClosed unstarted.isClosed⟩
  · rintro queue rfl unstarted
    have announces := unstarted.announces hstart
    have staffed₁ : o₁.IsStaffed owner :=
      (attends_answer (K := fun _ => True) trivial staffed hstart).isStaffed staffed
    exact ⟨keepsAnnounced_of_announces staffed₁ announces,
      fun plan => reachesAll_of_announces staffed₁ announces⟩

/-- A new session reaches the one peripheral that there is when a controller requests a connection
to it. -/
theorem announced_peripherals_reached_nameless :
    ∃ o₁ o turns, Follows (fun _ => "dev-1") .bare (0 : Nat) o₁ turns
        { connection := .connecting, target := some (describe "dev-1" {}) } o ∧
      (∃ u ∈ turns, asked (.connect (describe "dev-1" {})) (.ok ()) ∈ u.calls) ∧
      KeepsAnnounced (fun _ => "dev-1") (0 : Nat) o₁ ∧
      ReachesAll (fun _ => "dev-1") .bare (0 : Nat) o₁ := by
  obtain ⟨o₁, o, turns, hstart, follows, asks, -⟩ :=
    exists_follows_connecting (fun _ => "dev-1") .bare (0 : Nat) {} rfl (by decide)
  obtain ⟨keeps, reaches⟩ :=
    (announced_peripherals_reached .refl hstart).2 (0 : Nat) rfl .created
  exact ⟨o₁, o, turns, follows, asks, keeps, reaches .bare⟩

end Controller
end GattSync.Cycle
