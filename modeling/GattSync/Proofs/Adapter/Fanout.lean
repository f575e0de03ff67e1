import GattSync.Proofs.Adapter.Prospects
import Mathlib.Data.List.Induction

/-!
# Handing out notified values

Who is registered for the values of a characteristic can be told from the log alone: those that have
subscribed since the registrations were last revoked, in order (`registered`). Registrations are
revoked by a subscription to the same characteristic that is refused, by cancelling the connection
of the peripheral, and by stopping the session while it listens to the peripheral.

The routes in the tables of an office are those registrations at any time, and every value that a
listener takes goes to exactly the consumers that are registered then, once to each of them and in
order (`IsServed`). All steps of an office keep that (`Advances.isRouted`), and so it holds for good
(`notifications_fan_out`).
-/

namespace GattSync.Adapter

open Program Platform

variable {η : Type} {owner : Handle → String} {K : Session.Request η → Prop}
  {o o' : Office η} {worker : Worker} {id : String} {c : Uuid} {i : Incident η}
  {log later : List (Incident η)}

/-! ## Registrations -/

/-- The consumer that subscribes to this characteristic of this peripheral. -/
def Incident.subscribed? (id : String) (c : Uuid) : Incident η → Option η
  | .asked (.subscribe p d consumer) _ => if p.id = id ∧ d.uuid = c then some consumer else none
  | _ => none

/-- The registrations for this characteristic of this peripheral end. -/
def Incident.revokes (owner : Handle → String) (id : String) (c : Uuid) : Incident η → Bool
  | .answered (.subscribe p d _) (.subscribe _ _) (.error _) => p.id = id ∧ d.uuid = c
  | .asked (.cancelConnection p) _ => p.id = id
  | .asked .stop (.isConnected handle) => owner handle = id
  | _ => false

/-- The incident is that a value is taken or handed out. -/
def Incident.isOfValue : Incident η → Bool
  | .taken _ _ | .delivered _ _ => true
  | _ => false

/-- All that have subscribed, in order. -/
def subscribed (id : String) (c : Uuid) (log : List (Incident η)) : List η :=
  log.filterMap (Incident.subscribed? id c)

/-- Those who are registered after an incident. -/
def Incident.enroll (owner : Handle → String) (id : String) (c : Uuid) (consumers : List η)
    (i : Incident η) : List η :=
  if i.revokes owner id c then [] else consumers ++ (i.subscribed? id c).toList

/-- Those who are registered for a characteristic of a peripheral, in order of subscription. -/
def registered (owner : Handle → String) (id : String) (c : Uuid) (log : List (Incident η)) :
    List η :=
  log.foldl (Incident.enroll owner id c) []

theorem registered_snoc :
    registered owner id c (log ++ [i]) = i.enroll owner id c (registered owner id c log) := by
  simp [registered]

/-- The incident leaves all registrations as they are. -/
def Incident.IsNeutral (owner : Handle → String) (i : Incident η) : Prop :=
  ∀ id c consumers, i.enroll owner id c consumers = consumers

theorem isNeutral_of_isPlain (h : i.isPlain) : i.IsNeutral owner := by
  intro id c consumers
  have quiet : i.revokes owner id c = false ∧ i.subscribed? id c = none := by
    unfold Incident.isPlain at h
    split at h
    · cases h
    · cases h
    · cases h
    · next request inquiry hn hc hp =>
      constructor
      · unfold Incident.revokes
        split <;> first | rfl | contradiction | simp_all
      · unfold Incident.subscribed?
        split <;> first | rfl | simp_all
    · cases h
    · next request inquiry x hx =>
      refine ⟨?_, rfl⟩
      unfold Incident.revokes
      split <;> first | rfl | simp_all
    · cases h
  simp [Incident.enroll, quiet]

theorem isNeutral_sent {queue : Session.Queue} {event : Event} :
    (.sent queue event : Incident η).IsNeutral owner := by
  simp [Incident.IsNeutral, Incident.enroll, Incident.revokes, Incident.subscribed?]

theorem isNeutral_of_isOfValue (h : i.isOfValue) : i.IsNeutral owner := by
  cases i with
  | taken id n | delivered consumer payload =>
    simp [Incident.IsNeutral, Incident.enroll, Incident.revokes, Incident.subscribed?]
  | _ => cases h

theorem isOfValue_of_isPlain (h : i.isPlain) : i.isOfValue = false := by
  cases i with
  | taken | delivered => cases h
  | _ => rfl

/-- Those who are registered later were registered before or have subscribed since. -/
theorem registered_append_sublist (later : List (Incident η)) :
    (registered owner id c (log ++ later)).Sublist
      (registered owner id c log ++ subscribed id c later) := by
  induction later using List.reverseRecOn with
  | nil => simp [subscribed]
  | append_singleton later i ih =>
    rw [← List.append_assoc, registered_snoc, Incident.enroll]
    split
    · exact List.nil_sublist _
    · have more : subscribed id c (later ++ [i]) =
          subscribed id c later ++ (i.subscribed? id c).toList := by
        rw [subscribed, List.filterMap_append]
        cases h : i.subscribed? id c <;> simp [subscribed, h]
      rw [more, ← List.append_assoc]
      exact ih.append (List.Sublist.refl _)

/-! ## Values are handed out to whoever is registered -/

/-- Each value that is taken is handed at once to all who are registered then, in order, and nothing
else is handed out. -/
inductive IsServed (owner : Handle → String) : List (Incident η) → Prop
  | nil : IsServed owner []
  | other {log : List (Incident η)} {i : Incident η} (h : IsServed owner log)
      (hi : i.isOfValue = false) : IsServed owner (log ++ [i])
  | handed {log : List (Incident η)} (h : IsServed owner log) (id : String) (n : Notification) :
    IsServed owner (log ++ .taken id n ::
      (registered owner id n.characteristic log).map (.delivered · n.payload))

/-- The routes are the registrations, and values have gone where they should. -/
structure Office.IsRouted (owner : Handle → String) (o : Office η) : Prop where
  route_eq (id : String) (c : Uuid) : o.tables.route id c = registered owner id c o.log
  served : IsServed owner o.log

theorem Office.isRouted_new : ({} : Office η).IsRouted owner := ⟨fun _ _ => rfl, .nil⟩

theorem Office.IsRouted.of_eq (h : o.IsRouted owner)
    (ht : ∀ id c, o'.tables.route id c = o.tables.route id c) (hl : o'.log = o.log) :
    o'.IsRouted owner where
  route_eq id c := by rw [ht, hl, h.route_eq]
  served := hl ▸ h.served

/-- An incident that is neither a subscription nor a value changes nothing. -/
theorem Office.IsRouted.of_neutral (h : o.IsRouted owner)
    (ht : ∀ id c, o'.tables.route id c = o.tables.route id c) (hl : o'.log = o.log ++ [i])
    (hn : i.IsNeutral owner) (hv : i.isOfValue = false) : o'.IsRouted owner where
  route_eq id c := by rw [ht, hl, registered_snoc, hn, h.route_eq]
  served := hl ▸ h.served.other hv

/-- An incident about one characteristic changes its route as it changes its registrations. -/
theorem Office.IsRouted.of_key (h : o.IsRouted owner) (x : String) (u : Uuid)
    (ht : ∀ id c, (id, c) ≠ (x, u) → o'.tables.route id c = o.tables.route id c)
    (hn : ∀ id c consumers, ¬ (x = id ∧ u = c) → i.enroll owner id c consumers = consumers)
    (hk : o'.tables.route x u = i.enroll owner x u (o.tables.route x u))
    (hl : o'.log = o.log ++ [i]) (hv : i.isOfValue = false) : o'.IsRouted owner where
  route_eq id c := by
    rw [hl, registered_snoc, ← h.route_eq]
    by_cases same : x = id ∧ u = c
    · obtain ⟨rfl, rfl⟩ := same
      exact hk
    · have other : (id, c) ≠ (x, u) := fun h =>
        same ⟨(Prod.mk.inj h).1.symm, (Prod.mk.inj h).2.symm⟩
      rw [ht id c other, hn id c _ same]
  served := hl ▸ h.served.other hv

/-- The routes of a peripheral are given up with its registrations. -/
theorem Office.IsRouted.unlisten (h : o.IsRouted owner) {gone : String}
    (hn : ∀ id c consumers, i.enroll owner id c consumers = if id = gone then [] else consumers)
    (hv : i.isOfValue = false) : ((o.unlisten gone).note i).IsRouted owner where
  route_eq id c := by
    rw [Office.log_note, Office.log_unlisten, registered_snoc, ← h.route_eq, hn,
      Office.tables_note, Office.tables_unlisten]
    split
    next same =>
      subst same
      exact Tables.route_unlisten_self ..
    next other => exact Tables.route_unlisten_of_ne _ other c
  served := by
    rw [Office.log_note, Office.log_unlisten]
    exact h.served.other hv

theorem Office.IsRouted.emit (h : o.IsRouted owner) (event : Event) :
    (o.emit event).IsRouted owner := by
  unfold Office.emit
  split
  · exact h.of_neutral (fun _ _ => rfl) rfl isNeutral_sent rfl
  · exact h

theorem registered_append_of_isOfValue (h : ∀ i ∈ later, i.isOfValue) :
    registered owner id c (log ++ later) = registered owner id c log := by
  induction later using List.reverseRecOn with
  | nil => rw [List.append_nil]
  | append_singleton later i ih =>
    obtain ⟨hlater, hi⟩ := List.forall_mem_append.mp h
    rw [← List.append_assoc, registered_snoc,
      isNeutral_of_isOfValue (hi i (List.mem_singleton_self i)), ih hlater]

theorem Labours.isRouted (h : Labours owner o worker o') (hr : o.IsRouted owner) :
    o'.IsRouted owner := by
  cases h with
  | idles => exact hr
  | tells state => exact hr.of_neutral (fun _ _ => rfl) rfl isNeutral_sent rfl
  | notices handle p => exact hr.of_neutral (fun _ _ => rfl) rfl isNeutral_sent rfl
  | reports known p => exact hr.of_neutral (fun _ _ => rfl) rfl isNeutral_sent rfl
  | hears id stream n =>
    have handed : ((o.note (.taken id n)).handOut (o.tables.route id n.characteristic)
        n.payload).log = o.log ++ .taken id n ::
          (registered owner id n.characteristic o.log).map (.delivered · n.payload) := by
      simp [Office.handOut, Office.note, hr.route_eq]
    constructor
    case route_eq =>
      intro other c
      rw [handed, registered_append_of_isOfValue]
      · exact hr.route_eq other c
      · simp [Incident.isOfValue]
    case served =>
      rw [handed]
      exact hr.served.handed id n

/-- The routes stay the registrations with every step. -/
theorem Advances.isRouted (h : Advances owner K o o') (hr : o.IsRouted owner) :
    o'.IsRouted owner := by
  cases h with
  | worked _ labours _ => exact (labours.isRouted hr).of_eq (fun _ _ => rfl) rfl
  | noted plain =>
    exact hr.of_neutral (fun _ _ => rfl) rfl (isNeutral_of_isPlain plain)
      (isOfValue_of_isPlain plain)
  | @enrolled p d consumer handle found =>
    refine hr.of_key p.id d.uuid (fun _ _ other => Tables.route_addRoute_of_ne _ other consumer)
      (fun _ _ _ other => ?_) ?_ rfl rfl
    · simp [Incident.enroll, Incident.revokes, Incident.subscribed?, other]
    · refine (Tables.route_addRoute_self ..).trans ?_
      simp [Incident.enroll, Incident.revokes, Incident.subscribed?]
  | @revoked p d consumer handle found _ e =>
    refine hr.of_key p.id d.uuid (fun _ _ other => Tables.route_removeRoute_of_ne _ other)
      (fun _ _ _ other => ?_) ?_ rfl rfl
    · simp [Incident.enroll, Incident.revokes, Incident.subscribed?, other]
    · refine (Tables.route_removeRoute_self ..).trans ?_
      simp [Incident.enroll, Incident.revokes]
  | @cancelled p handle =>
    exact hr.unlisten (fun _ _ _ => by
      simp [Incident.enroll, Incident.revokes, Incident.subscribed?, eq_comm]) rfl
  | @parted handle =>
    exact hr.unlisten (fun _ _ _ => by
      simp [Incident.enroll, Incident.revokes, Incident.subscribed?, eq_comm]) rfl
  | listened _ _ stream =>
    refine hr.of_eq (fun id c => ?_) Office.log_listen
    rw [Office.tables_listen]
    rfl
  | completed => exact hr.emit _
  | released => exact hr.emit _
  | started _ stream state =>
    refine hr.of_neutral (fun id c => ?_) Office.log_start isNeutral_sent rfl
    rw [Office.tables_start]
    rfl
  | shut =>
    refine hr.of_eq (fun id c => ?_) Office.log_shut
    rw [Office.tables_shut]
    rfl

theorem Unfolds.isRouted (h : Unfolds owner K o o') (hr : o.IsRouted owner) :
    o'.IsRouted owner := by
  induction h with
  | refl => exact hr
  | tail _ step ih => exact step.isRouted ih

/-! ## After connections have ended -/

/-- Whoever was registered for one of these peripherals is never handed a value again, and all
others stay registered. -/
structure Clears (owner : Handle → String) (ids : String → Prop) (o o' : Office η) : Prop where
  /-- All who are registered from now on have subscribed anew. -/
  gone {id : String} (h : ids id) (c : Uuid) (later : List (Incident η)) :
    (registered owner id c (o'.log ++ later)).Sublist (subscribed id c later)
  unheard {id : String} (h : ids id) {task : Task} {stream : Stream} {rest : Prog η Bool} :
    ¬ o'.Employs task (.listen id stream) rest
  kept {id : String} (h : ¬ ids id) (c : Uuid) :
    registered owner id c o'.log = registered owner id c o.log

theorem clears_of_tables {ids : String → Prop} (hs : o'.IsStaffed owner) (hr : o.IsRouted owner)
    (hr' : o'.IsRouted owner)
    (gone : ∀ id, ids id → o'.tables.listener? id = none ∧ ∀ c, o'.tables.route id c = [])
    (kept : ∀ id, ¬ ids id → ∀ c, o'.tables.route id c = o.tables.route id c) :
    Clears owner ids o o' where
  gone {id} h c later := by
    have left : (registered owner id c (o'.log ++ later)).Sublist
        (registered owner id c o'.log ++ subscribed id c later) := registered_append_sublist later
    rwa [← hr'.route_eq, (gone id h).2, List.nil_append] at left
  unheard {id} h task stream rest employed := by
    simpa [(gone id h).1] using hs.listens employed
  kept {id} h c := by rw [← hr'.route_eq, ← hr.route_eq, kept id h]

/-- A connection is cancelled as soon as that is asked for, whatever the platform answers. -/
theorem clears_of_cancel {p : Peripheral} {r : Option (Except Error Unit)}
    (hs : o.IsStaffed owner) (hr : o.IsRouted owner)
    (h : Attends owner (.cancelConnection p) (answer (.cancelConnection p)) o r o')
    (known : r ≠ some (.error (.peripheralNotFound p.id))) : Clears owner (· = p.id) o o' := by
  have unfolds : Unfolds owner (fun _ => True) o o' := attends_answer trivial hs h
  obtain ⟨handle, idle⟩ : ∃ handle, ∃ o₁, Idles owner
      ((o.unlisten p.id).note (.asked (.cancelConnection p) (.disconnect handle))) o₁ ∧
      o'.tables = o₁.tables := by
    rcases attends_cancel hs h with ⟨-, hr, -⟩ | ⟨-, handle, o₁, idle, ⟨rfl, -⟩ | ⟨rfl, -⟩⟩
    · exact absurd hr known
    · exact ⟨handle, o', idle, rfl⟩
    · exact ⟨handle, o₁, idle, Office.tables_emit⟩
  obtain ⟨o₁, idle, tables⟩ := idle
  refine clears_of_tables (unfolds.isStaffed hs) hr (unfolds.isRouted hr) ?_ ?_
  · rintro id rfl
    rw [tables, idle.listener?_eq, Office.tables_note, Office.tables_unlisten]
    refine ⟨Tables.listener?_unlisten_self _ _, fun c => ?_⟩
    rw [idle.route_eq, Office.tables_note, Office.tables_unlisten]
    exact Tables.route_unlisten_self _ _ c
  · intro id hid c
    rw [tables, idle.route_eq, Office.tables_note, Office.tables_unlisten]
    exact Tables.route_unlisten_of_ne _ hid c

theorem clears_of_stop {x : Except Error Unit} (hs : o.IsStaffed owner) (hr : o.IsRouted owner)
    (h : Attends owner (.stop : Session.Request η) (answer .stop) o (some x) o') :
    Clears owner o.tables.listensTo o o' := by
  have unfolds : Unfolds owner (fun _ => True) o o' := attends_answer trivial hs h
  obtain ⟨r, h, hx⟩ := attends_bind_done_iff.mp h
  obtain ⟨o₁, -, rfl, silent, route⟩ := (attends_stop (K := fun _ => True) trivial hs h).2 (by
    cases r with
    | none => cases hx
    | some done => rfl)
  refine clears_of_tables (unfolds.isStaffed hs) hr (unfolds.isRouted hr) ?_ ?_
  · intro id hid
    rw [Office.tables_shut]
    refine ⟨silent id, fun c => ?_⟩
    exact (route id c).trans (if_pos (Tables.mem_listeners_iff.mpr hid))
  · intro id hid c
    rw [Office.tables_shut]
    exact (route id c).trans (if_neg (mt Tables.mem_listeners_iff.mp hid))

/-- Values are handed out as they should be, whatever has happened and whatever comes next. -/
structure FansOut (owner : Handle → String) (o : Office η) : Prop where
  served : IsServed owner o.log
  /-- Of two listeners at their posts, none is for the same peripheral as the other. -/
  single {id : String} {task task' : Task} {stream stream' : Stream} {rest rest' : Prog η Bool}
    (h : o.Employs task (.listen id stream) rest)
    (h' : o.Employs task' (.listen id stream') rest') : task = task'
  cancelled {p : Peripheral} {r : Option (Except Error Unit)} {o' : Office η}
    (h : Attends owner (.cancelConnection p) (answer (.cancelConnection p)) o r o')
    (known : r ≠ some (.error (.peripheralNotFound p.id))) : Clears owner (· = p.id) o o'
  stopped {x : Except Error Unit} {o' : Office η}
    (h : Attends owner (.stop : Session.Request η) (answer .stop) o (some x) o') :
    Clears owner o.tables.listensTo o o'

/-- Whatever a session is asked for, and whatever its workers do meanwhile: each value that a
listener takes is handed to exactly those who are registered for its characteristic of the
listener's peripheral at that moment, once to each and in order of subscription. There is never a
second listener for a peripheral. Once a connection has been cancelled, or the session has been
stopped while it listened, those who were registered for that peripheral are not handed anything
again, and all others stay registered.

What a worker does between two waits overlaps nothing else, as in every office (`Resumes`): a value
that a listener has taken is handed out before the session or another worker goes on. That one of
them acts in the middle of it, on another thread, is left out. -/
theorem notifications_fan_out (h : Elapses owner (fun _ => True) ({} : Office η) o) :
    FansOut owner o := by
  have unfolds := h.unfolds Office.isStaffed_new
  have staffed := unfolds.isStaffed Office.isStaffed_new
  have routed := unfolds.isRouted Office.isRouted_new
  constructor
  case served => exact routed.served
  case single =>
    intro id task task' stream stream' rest rest' h h'
    exact Option.some.inj ((staffed.listens h).symm.trans (staffed.listens h'))
  case cancelled => exact fun h known => clears_of_cancel staffed routed h known
  case stopped => exact clears_of_stop staffed routed

/-- A meter that is connected to and subscribed to hands its value to the one who has subscribed. -/
theorem notifications_fan_out_meter :
    ∃ o : Office String, Elapses (fun _ => "meter") (fun _ => True) {} o ∧
      .delivered "power" [42] ∈ o.log ∧ FansOut (fun _ => "meter") o := by
  let owner : Handle → String := fun _ => "meter"
  let meter : Peripheral := ⟨"meter", "", none⟩
  let power : Characteristic := ⟨default, default, Characteristic.notifyBit⟩
  let listed : List Platform.Service :=
    [{ uuid := default, isPrimary := true, characteristics := [{ power with }] }]
  have found : find? listed power = some { power with } := by decide
  have unstarted : ({} : Office String).tables.forwarder = none := rfl
  obtain ⟨o₁, o₂, hstart, hworks, tables₂, -⟩ := exists_known owner unstarted (0 : Nat) {}
  have kept : o₂.tables.handle? meter.id = some (0 : Nat) := by
    rw [tables₂]
    rfl
  have silent : o₂.tables.listener? meter.id = none := by
    rw [tables₂]
    rfl
  have opened : o₂.tables.events = some (0 : Nat) := by
    rw [tables₂]
  obtain ⟨o₃, hconnect, tables₃, employed, -⟩ := exists_connected owner kept opened silent (0 : Nat)
  have kept₃ : o₃.tables.handle? meter.id = some (0 : Nat) := by
    rw [tables₃]
    exact kept
  obtain ⟨o₄, hsubscribe, tables₄, posts₄⟩ := exists_subscribed owner kept₃ found "power"
  have employed₄ : o₄.Employs o₂.posts.length (.listen meter.id (0 : Nat))
      (Worker.round (.listen meter.id (0 : Nat))) := by
    rw [Office.Employs, posts₄]
    exact employed
  obtain ⟨o₅, hhand, log⟩ := exists_handed owner employed₄ ⟨default, [42]⟩
  have elapsed : Elapses owner (fun _ => True) {} o₅ := by
    have started : Elapses owner (fun _ => True) {} o₁ := .attended .refl trivial hstart
    have known := started.works hworks
    exact ((known.attended trivial hconnect).attended trivial hsubscribe).worked hhand
  refine ⟨o₅, elapsed, ?_, notifications_fan_out elapsed⟩
  have route : o₄.tables.route meter.id default = ["power"] := by
    rw [tables₄, Tables.route_addRoute_self, tables₃, tables₂]
    rfl
  rw [log, route]
  simp

end GattSync.Adapter
