import GattSync.Proofs.Adapter.Advance

/-!
# How requests are attended to

What a session does in its office for each request, from the wait before to the wait after each
question to the platform. Between those waits only the workers act (`Idles`), and they leave
everything in the tables as it is but the handles. So a request comes down to the few steps that are
its own: a queue is opened, a listener is employed and the completion of a connection is sent, a
peripheral is parted from, a consumer is enrolled.

An office that goes on in any way advances by its steps (`Elapses.unfolds`), so whatever all steps
keep holds for good.
-/

namespace GattSync.Adapter

open Program Platform

variable {η α β : Type} {owner : Handle → String} {K : Session.Request η → Prop}
  {request : Session.Request η} {o o' : Office η} {id : String} {p : Peripheral}

/-! ## While the session waits -/

/-- Only the workers act, and the session notes what it has asked. -/
abbrev Idles (owner : Handle → String) : Office η → Office η → Prop :=
  Unfolds owner fun _ => False

theorem Idles.unfolds (h : Idles owner o o') : Unfolds owner K o o' := Unfolds.mono h False.elim

/-- The workers leave the tables as they are, but for handles that they keep. -/
theorem Idles.tables_eq (h : Idles owner o o') :
    o'.tables = { o.tables with peripherals := o'.tables.peripherals } ∧
      ∀ id, o.tables.knows id → o'.tables.knows id := by
  induction h with
  | refl => exact ⟨rfl, fun _ => id⟩
  | tail _ step ih =>
    obtain ⟨same, knows⟩ := ih
    cases step with
    | worked _ labours _ =>
      rcases labours.tables_eq with ht | ⟨handle, ht⟩
      · rw [Office.tables_assign, ht]
        exact ⟨same, knows⟩
      · rw [Office.tables_assign, ht, same]
        exact ⟨rfl, fun id known => Tables.knows_keep.mpr (.inr (knows id known))⟩
    | noted => exact ⟨same, knows⟩
    | _ => contradiction

theorem Idles.listener?_eq (h : Idles owner o o') (id : String) :
    o'.tables.listener? id = o.tables.listener? id := by
  rw [h.tables_eq.1]
  rfl

theorem Idles.route_eq (h : Idles owner o o') (id : String) (c : Uuid) :
    o'.tables.route id c = o.tables.route id c := by
  rw [h.tables_eq.1]
  rfl

theorem Idles.events_eq (h : Idles owner o o') : o'.tables.events = o.tables.events := by
  rw [h.tables_eq.1]

/-- Whoever asks the platform for something plain waits, and that is all. -/
theorem attends_ask {inquiry : Platform.Request} {f : inquiry.Answer → Prog η β} {r : Option β}
    (hs : o.IsStaffed owner) (ha : (Incident.asked request inquiry).isPlain)
    (hx : ∀ x, (Incident.answered request inquiry x).isPlain)
    (h : Attends owner request ((ask inquiry).bind f) o r o') :
    (r = none ∧ Idles owner o o') ∨
      ∃ x o₁, Idles owner o o₁ ∧ Attends owner request (f x) o₁ r o' := by
  have waits {o₁ : Office η} (h : Works owner (o.note (.asked request inquiry)) o₁) :
      Idles owner o o₁ :=
    Relation.ReflTransGen.head (.noted ha) (unfolds_of_works h (hs.note _))
  rcases attends_ask_bind_iff.mp h with ⟨rfl, hw⟩ | ⟨x, o₁, hw, h⟩
  · exact .inl ⟨rfl, waits hw⟩
  · exact .inr ⟨x, _, (waits hw).tail (.noted (hx x)), h⟩

/-- Whoever asks for a peripheral that is not known is refused at once. -/
theorem attends_withHandle {next : Handle → Prog η (Except Error α)}
    {r : Option (Except Error α)} (h : Attends owner request (withHandle p next) o r o') :
    (o.tables.handle? p.id = none ∧ r = some (.error (.peripheralNotFound p.id)) ∧ o' = o) ∨
      ∃ handle, o.tables.handle? p.id = some handle ∧
        Attends owner request (next handle) o r o' := by
  replace h := attends_tables_bind_iff.mp h
  cases hh : o.tables.handle? p.id with
  | none =>
    rw [hh] at h
    obtain ⟨rfl, rfl⟩ := attends_done_iff.mp h
    exact .inl ⟨rfl, rfl, rfl⟩
  | some handle =>
    rw [hh] at h
    exact .inr ⟨handle, rfl, h⟩

@[simp] theorem attends_emit_bind_iff {event : Event} {f : Unit → Prog η β} {r : Option β} :
    Attends owner request ((emit event).bind f) o r o' ↔
      Attends owner request (f ()) (o.emit event) r o' := by
  rw [emit, bind_eq, Program.bind_assoc, attends_tables_bind_iff, Office.emit]
  cases o.tables.events with
  | none => exact Iff.rfl
  | some queue =>
    exact attends_send_bind_iff.trans (exists_const Bool)

@[simp] theorem attends_unlisten_bind_iff {f : Unit → Prog η β} {r : Option β} :
    Attends owner request ((unlisten id).bind f) o r o' ↔
      Attends owner request (f ()) (o.unlisten id) r o' := by
  simp only [unlisten, bind_eq, Program.bind_assoc, attends_tables_bind_iff,
    attends_abort_bind_iff, attends_change_bind_iff, Office.unlisten]

/-! ## Requests that change nothing -/

theorem isPlain_of_isQuiet (hq : request.isQuiet) (inquiry : Platform.Request) :
    (Incident.asked request inquiry).isPlain ∧
      ∀ x, (Incident.answered request inquiry x).isPlain := by
  cases request with
  | stop | connect _ | cancelConnection _ | subscribe _ _ _ => cases hq
  | _ => exact ⟨rfl, fun _ => rfl⟩

theorem attends_inquiry {r : Option request.Answer} (hs : o.IsStaffed owner)
    (hq : request.isQuiet) (hn : request ≠ .start)
    (h : Attends owner request (answer request) o r o') : Idles owner o o' := by
  obtain ⟨calls, h⟩ := h
  refine h.preserves (uses_inquiry hq hn) ?_ Relation.ReflTransGen.refl
  intro o₁ call o₂ hi step idle
  have plain := isPlain_of_isQuiet hq
  have staffed := idle.isStaffed hs
  cases step with
  | @answered inquiry _ hw x =>
    have waits : Idles owner _ _ := unfolds_of_works hw (staffed.note _)
    exact ((idle.tail (.noted (plain inquiry).1)).trans waits).tail (.noted ((plain inquiry).2 x))
  | @waiting inquiry _ hw =>
    have waits : Idles owner _ _ := unfolds_of_works hw (staffed.note _)
    exact (idle.tail (.noted (plain inquiry).1)).trans waits
  | @does op x _ hd =>
    cases op with
    | platform inquiry => exact hd.elim
    | tables =>
      obtain ⟨-, rfl⟩ := hd
      exact idle
    | services handle =>
      subst hd
      exact idle
    | _ => exact hi.elim

/-! ## The life of a session -/

/-- A session is started at once, after its questions have been answered, or it is not. -/
theorem attends_start {r : Option (Except Error Session.Queue)} (hs : o.IsStaffed owner)
    (h : Attends owner (.start : Session.Request η) start o r o') :
    (Idles owner o o' ∧ ∀ queue, r ≠ some (.ok queue)) ∨
      ∃ o₁ stream state, Idles owner o o₁ ∧ o' = o₁.start stream state ∧
        r = some (.ok o₁.queues) := by
  rcases attends_ask hs rfl (fun _ => rfl) h with ⟨rfl, idle⟩ | ⟨x, o₁, idle, h⟩
  · exact .inl ⟨idle, nofun⟩
  · cases x with
    | error e =>
      obtain ⟨rfl, rfl⟩ := attends_done_iff.mp h
      exact .inl ⟨idle, nofun⟩
    | ok stream =>
      rcases attends_ask (idle.isStaffed hs) rfl (fun _ => rfl) h with
        ⟨rfl, more⟩ | ⟨y, o₂, more, h⟩
      · exact .inl ⟨idle.trans more, nofun⟩
      · replace h := attends_openQueue_bind_iff.mp h
        obtain ⟨kept, h⟩ := attends_send_bind_iff.mp h
        replace h := attends_tables_bind_iff.mp
          (attends_employ_bind_iff.mp (attends_change_bind_iff.mp h))
        replace h := attends_abort_bind_iff.mp (attends_change_bind_iff.mp h)
        obtain ⟨rfl, rfl⟩ := attends_done_iff.mp h
        exact .inr ⟨o₂, stream, _, idle.trans more, rfl, rfl⟩

/-- To release a peripheral is to part from it at once, and then to ask the platform. -/
theorem attends_release {r : Option Unit} (hs : o.IsStaffed owner) (known : o.tables.knows id)
    (h : Attends owner (.stop : Session.Request η) (release id) o r o') :
    ∃ handle, owner handle = id ∧
      Idles owner ((o.unlisten id).note (.asked .stop (.isConnected handle))) o' := by
  have staffed := hs.unlisten id
  obtain ⟨handle, hh⟩ : ∃ handle, (o.unlisten id).tables.handle? id = some handle := by
    rw [Office.tables_unlisten]
    exact Tables.handle?_of_knows known
  refine ⟨handle, staffed.sound.owner_eq hh, ?_⟩
  replace h := attends_tables_bind_iff.mp (attends_unlisten_bind_iff.mp h)
  rw [hh] at h
  rcases attends_ask_bind_iff.mp h with ⟨-, hw⟩ | ⟨x, o₁, hw, h⟩
  · exact unfolds_of_works hw (staffed.note _)
  · have waits : Idles owner _ (o₁.note (.answered .stop (.isConnected handle) x)) :=
      (unfolds_of_works hw (staffed.note _)).tail (.noted rfl)
    split at h
    · rcases attends_ask (waits.isStaffed (staffed.note _)) rfl (fun _ => rfl) h with
        ⟨-, more⟩ | ⟨y, o₂, more, h⟩
      · exact waits.trans more
      · obtain ⟨-, rfl⟩ := attends_done_iff.mp h
        exact waits.trans more
    · obtain ⟨-, rfl⟩ := attends_done_iff.mp h
      exact waits

/-- These peripherals are parted from, and the others are let alone. -/
structure Parts (owner : Handle → String) (K : Session.Request η → Prop) (ids : List String)
    (o o' : Office η) : Prop where
  unfolds : Unfolds owner K o o'
  listener? (id : String) :
    o'.tables.listener? id = if id ∈ ids then none else o.tables.listener? id
  route (id : String) (c : Uuid) :
    o'.tables.route id c = if id ∈ ids then [] else o.tables.route id c
  knows (id : String) (known : o.tables.knows id) : o'.tables.knows id

theorem parts_of_released {handle : Handle} (hk : K .stop)
    (h : Idles owner
      ((o.unlisten (owner handle)).note (.asked .stop (.isConnected handle))) o') :
    Parts owner K [owner handle] o o' := by
  constructor
  case unfolds => exact Relation.ReflTransGen.head (.parted hk) h.unfolds
  case listener? =>
    intro id
    rw [h.listener?_eq, Office.tables_note, Office.tables_unlisten]
    split
    · next hid =>
      rw [List.mem_singleton.mp hid]
      exact Tables.listener?_unlisten_self _ _
    · next hid => exact Tables.listener?_unlisten_of_ne _ fun same => hid (by simp [same])
  case route =>
    intro id c
    rw [h.route_eq, Office.tables_note, Office.tables_unlisten]
    split
    · next hid =>
      rw [List.mem_singleton.mp hid]
      exact Tables.route_unlisten_self _ _ c
    · next hid => exact Tables.route_unlisten_of_ne _ (fun same => hid (by simp [same])) c
  case knows =>
    intro id known
    refine h.tables_eq.2 id ?_
    rw [Office.tables_note, Office.tables_unlisten]
    exact known

theorem Parts.trans {ids more : List String} {o₁ : Office η} (h : Parts owner K ids o o₁)
    (hm : Parts owner K more o₁ o') : Parts owner K (ids ++ more) o o' where
  unfolds := h.unfolds.trans hm.unfolds
  listener? id := by
    rw [hm.listener?, h.listener?]
    by_cases first : id ∈ ids <;> simp [first]
  route id c := by
    rw [hm.route, h.route]
    by_cases first : id ∈ ids <;> simp [first]
  knows id known := hm.knows id (h.knows id known)

theorem attends_releases {l : List (String × Task)} {r : Option Unit} (hk : K .stop)
    (hs : o.IsStaffed owner) (known : ∀ e ∈ l, o.tables.knows e.1)
    (h : Attends owner (.stop : Session.Request η) (l.forM fun e => release e.1) o r o') :
    Unfolds owner K o o' ∧ (r = some () → Parts owner K (l.map (·.1)) o o') := by
  -- parting from one peripheral keeps all handles, so those that are left stay known
  induction l generalizing o with
  | nil =>
    obtain ⟨rfl, rfl⟩ := attends_done_iff.mp h
    exact ⟨.refl, fun _ => ⟨.refl, fun _ => by simp, fun _ _ => by simp, fun _ => id⟩⟩
  | cons e l ih =>
    obtain ⟨first, others⟩ := List.forall_mem_cons.mp known
    rcases attends_bind_iff.mp h with ⟨rfl, hfirst⟩ | ⟨_, o₁, hfirst, hrest⟩
    · obtain ⟨handle, ho, idle⟩ := attends_release hs first hfirst
      exact ⟨(parts_of_released hk (ho.symm ▸ idle)).unfolds, nofun⟩
    · obtain ⟨handle, ho, idle⟩ := attends_release hs first hfirst
      have parted : Parts owner K [e.1] o o₁ := ho ▸ parts_of_released hk (ho.symm ▸ idle)
      obtain ⟨unfolds, parts⟩ := ih (parted.unfolds.isStaffed hs)
        (fun f hm => parted.knows f.1 (others f hm)) hrest
      exact ⟨parted.unfolds.trans unfolds, fun hr => parted.trans (parts hr)⟩

/-- A session that is stopped parts from all peripherals that it listens to, and shuts. -/
theorem attends_stop {r : Option Unit} (hk : K .stop) (hs : o.IsStaffed owner)
    (h : Attends owner (.stop : Session.Request η) stop o r o') :
    Unfolds owner K o o' ∧
      (r = some () → ∃ o₁, Unfolds owner K o o₁ ∧ o' = o₁.shut ∧
        (∀ id, o₁.tables.listener? id = none) ∧
        ∀ id c, o₁.tables.route id c =
          if id ∈ o.tables.listeners.map (·.1) then [] else o.tables.route id c) := by
  rcases attends_ask hs rfl (fun _ => rfl) h with ⟨rfl, idle⟩ | ⟨x, o₁, idle, h⟩
  · exact ⟨idle.unfolds, nofun⟩
  · have staffed := idle.isStaffed hs
    have listeners : o₁.tables.listeners = o.tables.listeners := by rw [idle.tables_eq.1]
    have known : ∀ e ∈ o₁.tables.listeners, o₁.tables.knows e.1 :=
      fun e he => staffed.sound.known ⟨e, he, rfl⟩
    rcases attends_bind_iff.mp (attends_tables_bind_iff.mp h) with
      ⟨rfl, hr⟩ | ⟨_, o₂, hr, h⟩
    · exact ⟨idle.unfolds.trans (attends_releases hk staffed known hr).1, nofun⟩
    · obtain ⟨unfolds, parts⟩ := attends_releases hk staffed known hr
      replace parts := parts rfl
      have unlistened (id : String) : o₂.tables.listener? id = none := by
        rw [parts.listener?]
        split
        · rfl
        · next hid =>
          refine List.lookup_eq_none_iff.mpr fun e he => ?_
          have ne : id ≠ e.1 := fun same => hid (same ▸ List.mem_map_of_mem he)
          simpa using ne
      have closing := attends_change_bind_iff.mp (attends_tables_bind_iff.mp h)
      rw [← bind_done (abort _), attends_abort_bind_iff] at closing
      obtain ⟨rfl, rfl⟩ := attends_done_iff.mp closing
      have stopped : Unfolds owner K o o₂ := idle.unfolds.trans unfolds
      refine ⟨stopped.tail (.shut hk unlistened),
        fun _ => ⟨o₂, stopped, rfl, unlistened, fun id c => ?_⟩⟩
      rw [parts.route, idle.route_eq, listeners]

/-! ## Connections -/

/-- One who is connected to is listened to, unless there is no stream. -/
theorem attends_listen {handle : Handle} {r : Option Unit} (hs : o.IsStaffed owner)
    (h : Attends owner (.connect p : Session.Request η) (listen p.id handle) o r o') :
    Idles owner o o' ∨
      ∃ o₁ stream, Idles owner o o₁ ∧ o' = o₁.listen p.id stream ∧ r = some () := by
  rcases attends_ask hs rfl (fun _ => rfl) h with ⟨rfl, idle⟩ | ⟨x, o₁, idle, h⟩
  · exact .inl idle
  · cases x with
    | error e =>
      obtain ⟨rfl, rfl⟩ := attends_done_iff.mp h
      exact .inl idle
    | ok stream =>
      replace h := attends_change_bind_iff.mp
        (attends_tables_bind_iff.mp (attends_employ_bind_iff.mp h))
      rw [← bind_done (abort _), attends_abort_bind_iff] at h
      obtain ⟨rfl, rfl⟩ := attends_done_iff.mp h
      exact .inr ⟨o₁, stream, idle, rfl, rfl⟩

/-- What a session makes of a request to connect to a peripheral that it knows. -/
inductive Connecting (owner : Handle → String) (p : Peripheral) (o : Office η) :
    Option (Except Error Unit) → Office η → Prop
  | waiting {o' : Office η} (h : Idles owner o o') : Connecting owner p o none o'
  /-- It is not listened to. -/
  | apart {o₁ : Office η} (h : Idles owner o o₁) (error : Option String) :
    Connecting owner p o (some (.ok ())) (o₁.emit (.connected p error))
  | heard {o₁ : Office η} (h : Idles owner o o₁) (stream : Stream) :
    Connecting owner p o (some (.ok ())) ((o₁.listen p.id stream).emit (.connected p none))

theorem attends_connect {r : Option (Except Error Unit)} (hs : o.IsStaffed owner)
    (h : Attends owner (.connect p : Session.Request η) (answer (.connect p)) o r o') :
    (o.tables.handle? p.id = none ∧ r = some (.error (.peripheralNotFound p.id)) ∧ o' = o) ∨
      o.tables.knows p.id ∧ Connecting owner p o r o' := by
  rcases attends_withHandle h with unknown | ⟨handle, hh, h⟩
  · exact .inl unknown
  · refine .inr ⟨Tables.knows_of_handle? hh, ?_⟩
    rcases attends_ask hs rfl (fun _ => rfl) h with ⟨rfl, idle⟩ | ⟨x, o₁, idle, h⟩
    · exact .waiting idle
    · cases x with
      | error e =>
        replace h := attends_emit_bind_iff.mp h
        obtain ⟨rfl, rfl⟩ := attends_done_iff.mp h
        exact .apart idle (some e.message)
      | ok done =>
        have staffed := idle.isStaffed hs
        rcases attends_bind_iff.mp h with ⟨rfl, hl⟩ | ⟨_, o₂, hl, h⟩
        · rcases attends_listen staffed hl with more | ⟨o₂, stream, -, -, hr⟩
          · exact .waiting (idle.trans more)
          · cases hr
        · replace h := attends_emit_bind_iff.mp h
          obtain ⟨rfl, rfl⟩ := attends_done_iff.mp h
          rcases attends_listen staffed hl with more | ⟨o₃, stream, more, rfl, -⟩
          · exact .apart (idle.trans more) none
          · exact .heard (idle.trans more) stream

theorem Connecting.unfolds {r : Option (Except Error Unit)} (h : Connecting owner p o r o')
    (hk : K (.connect p)) (known : o.tables.knows p.id) : Unfolds owner K o o' := by
  cases h with
  | waiting idle => exact idle.unfolds
  | apart idle error => exact idle.unfolds.tail (.completed hk error)
  | heard idle stream =>
    have listened := idle.unfolds.tail (.listened hk (idle.tables_eq.2 _ known) stream)
    exact listened.tail (.completed hk none)

/-- To cancel a connection is to part from the peripheral at once, and to report it once the
platform has answered. -/
theorem attends_cancel {r : Option (Except Error Unit)} (hs : o.IsStaffed owner)
    (h : Attends owner (.cancelConnection p : Session.Request η) (answer (.cancelConnection p)) o
      r o') :
    (o.tables.handle? p.id = none ∧ r = some (.error (.peripheralNotFound p.id)) ∧ o' = o) ∨
      o.tables.knows p.id ∧ ∃ handle o₁,
        Idles owner ((o.unlisten p.id).note (.asked (.cancelConnection p) (.disconnect handle)))
          o₁ ∧
        ((o' = o₁ ∧ r ≠ some (.ok ())) ∨
          (o' = o₁.emit (.disconnected p none) ∧ r = some (.ok ()))) := by
  rcases attends_withHandle h with unknown | ⟨handle, hh, h⟩
  · exact .inl unknown
  · refine .inr ⟨Tables.knows_of_handle? hh, handle, ?_⟩
    have staffed := hs.unlisten p.id
    rcases attends_ask_bind_iff.mp (attends_unlisten_bind_iff.mp h) with
      ⟨rfl, hw⟩ | ⟨x, o₁, hw, h⟩
    · exact ⟨o', unfolds_of_works hw (staffed.note _), .inl ⟨rfl, nofun⟩⟩
    · have plain : (Incident.answered (.cancelConnection p) (.disconnect handle) x :
          Incident η).isPlain := rfl
      refine ⟨_, (unfolds_of_works hw (staffed.note _)).tail (.noted plain), ?_⟩
      cases x with
      | error e =>
        obtain ⟨rfl, rfl⟩ := attends_done_iff.mp h
        exact .inl ⟨rfl, nofun⟩
      | ok done =>
        replace h := attends_emit_bind_iff.mp h
        obtain ⟨rfl, rfl⟩ := attends_done_iff.mp h
        exact .inr ⟨rfl, rfl⟩

theorem attends_subscribe {c : Characteristic} {consumer : η} {r : Option (Except Error Unit)}
    (hk : K (.subscribe p c consumer)) (hs : o.IsStaffed owner)
    (h : Attends owner (.subscribe p c consumer) (answer (.subscribe p c consumer)) o r o') :
    Unfolds owner K o o' := by
  rcases attends_withHandle h with ⟨-, -, rfl⟩ | ⟨handle, -, h⟩
  · exact .refl
  · obtain ⟨listed, h⟩ := attends_services_bind_iff.mp h
    cases hf : find? listed c with
    | none =>
      rw [hf] at h
      obtain ⟨-, rfl⟩ := attends_done_iff.mp h
      exact .refl
    | some found =>
      rw [hf] at h
      have uuid : found.uuid = c.uuid := by
        have both := List.find?_some hf
        simp only [Bool.and_eq_true, beq_iff_eq] at both
        exact both.1
      simp only [uuid] at h
      replace h := attends_change_bind_iff.mp h
      have staffed : (o.change (Tables.addRoute · p.id c.uuid consumer)).IsStaffed owner :=
        hs.changeRoutes rfl
      have enrolled {o₁ : Office η} (hw : Works owner
          ((o.change (Tables.addRoute · p.id c.uuid consumer)).note
            (.asked (.subscribe p c consumer) (.subscribe handle found))) o₁) :
          Unfolds owner K o o₁ :=
        Relation.ReflTransGen.head (.enrolled hk) (unfolds_of_works hw (staffed.note _))
      rcases attends_ask_bind_iff.mp h with ⟨-, hw⟩ | ⟨x, o₁, hw, h⟩
      · exact enrolled hw
      · cases x with
        | error e =>
          replace h := attends_change_bind_iff.mp h
          obtain ⟨-, rfl⟩ := attends_done_iff.mp h
          exact (enrolled hw).tail (.revoked hk e)
        | ok done =>
          obtain ⟨-, rfl⟩ := attends_done_iff.mp h
          exact (enrolled hw).tail (.noted rfl)

/-! ## All requests -/

/-- Whatever the request is, the office advances by steps for it. -/
theorem attends_answer {r : Option request.Answer} (hk : K request) (hs : o.IsStaffed owner)
    (h : Attends owner request (answer request) o r o') : Unfolds owner K o o' := by
  cases request with
  | start =>
    rcases attends_start hs h with ⟨idle, -⟩ | ⟨o₁, stream, state, idle, rfl, -⟩
    · exact idle.unfolds
    · exact idle.unfolds.tail (.started hk stream state)
  | stop =>
    obtain ⟨r', h, -⟩ := attends_bind_done_iff.mp h
    exact (attends_stop hk hs h).1
  | connect p =>
    rcases attends_connect hs h with ⟨-, -, rfl⟩ | ⟨known, h⟩
    · exact .refl
    · exact h.unfolds hk known
  | cancelConnection p =>
    rcases attends_cancel hs h with ⟨-, -, rfl⟩ | ⟨known, handle, o₁, idle, h⟩
    · exact .refl
    · have unfolds : Unfolds owner K o o₁ :=
        Relation.ReflTransGen.head (.cancelled hk) idle.unfolds
      rcases h with ⟨rfl, -⟩ | ⟨rfl, -⟩
      · exact unfolds
      · refine unfolds.tail (.released hk (idle.tables_eq.2 _ ?_))
        rw [Office.tables_note, Office.tables_unlisten]
        exact known
  | subscribe p c consumer => exact attends_subscribe hk hs h
  | _ =>
    refine (attends_inquiry hs ?_ ?_ h).unfolds
    · rfl
    · exact nofun

theorem Elapses.works {o₁ : Office η} (h : Elapses owner K o o₁) (hw : Works owner o₁ o') :
    Elapses owner K o o' := by
  induction hw with
  | refl => exact h
  | tail _ step ih => exact ih.worked step

/-- However an office goes on, it advances by its steps. -/
theorem Elapses.unfolds (h : Elapses owner K o o') (hs : o.IsStaffed owner) :
    Unfolds owner K o o' := by
  induction h with
  | refl => exact .refl
  | worked _ step ih => exact ih.tail (step.advances (ih.isStaffed hs))
  | attended _ hk ha ih => exact ih.trans (attends_answer hk (ih.isStaffed hs) ha)

theorem Elapses.isStaffed (h : Elapses owner K o o') (hs : o.IsStaffed owner) :
    o'.IsStaffed owner :=
  (h.unfolds hs).isStaffed hs

end GattSync.Adapter
