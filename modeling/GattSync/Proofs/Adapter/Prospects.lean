import GattSync.Proofs.Adapter.Attendance

/-!
# What can come about in an office

None of the steps of an office is ruled out by the others. A session can be started in any office,
and its forwarder can then announce any peripheral; one that is known can be connected to and
listened to, and what it notifies can be handed out; a consumer can subscribe to what it lists; and
its connection can be cancelled.
-/

namespace GattSync.Adapter

open Program Platform

variable {η : Type} {owner : Handle → String} {o : Office η} {task : Task} {stream : Stream}
  {queue : Session.Queue} {id : String} {handle : Handle} {p : Peripheral}

theorem Office.employs_assign_self {worker : Worker} {rest : Prog η Bool}
    (h : o.Employs task worker rest) (left : Prog η Bool) :
    (o.assign task (some left)).Employs task worker left :=
  Office.employs_assign.mpr (.inr ⟨rfl, rfl, _, h⟩)

/-- A worker that is left with something goes on with it. -/
theorem resumes_of_after {o' : Office η} {worker : Worker} {rest p left : Prog η Bool}
    (he : o.Employs task worker rest) (h : GoesOn owner worker rest o p o')
    (hl : worker.after p = some left) : Resumes owner o (o'.assign task (some left)) :=
  hl ▸ .intro he h

/-- A session can be started in any office. -/
theorem exists_started (owner : Handle → String) (o : Office η) (stream : Stream)
    (state : AdapterState) :
    ∃ o₁ : Office η, Attends owner .start start o (some (.ok o.queues)) (o₁.start stream state) ∧
      o₁.tables = o.tables ∧ o₁.posts = o.posts ∧ o₁.queues = o.queues ∧
      ∀ queue, o₁.sent queue = o.sent queue := by
  let asked := (o.note (.asked .start .events)).note (.answered .start .events (.ok stream))
  refine ⟨(asked.note (.asked .start .adapterState)).note
    (.answered .start .adapterState (.ok state)), ?_, rfl, rfl, rfl, fun queue => ?_⟩
  · refine attends_ask_bind_iff.mpr (.inr ⟨.ok stream, _, .refl, ?_⟩)
    refine attends_ask_bind_iff.mpr (.inr ⟨.ok state, _, .refl, ?_⟩)
    refine attends_openQueue_bind_iff.mpr (attends_send_bind_iff.mpr ⟨true, ?_⟩)
    refine attends_change_bind_iff.mpr (attends_employ_bind_iff.mpr ?_)
    refine attends_tables_bind_iff.mpr (attends_change_bind_iff.mpr ?_)
    exact attends_abort_bind_iff.mpr (attends_done_iff.mpr ⟨rfl, rfl⟩)
  · simp [asked, Office.sent, Incident.sent?]

/-- A forwarder that is ready can announce any peripheral that the platform has a handle for, and is
ready again. -/
theorem exists_announced (owner : Handle → String)
    (h : o.Employs task (.forward stream queue) (Worker.round (.forward stream queue)))
    (handle : Handle) (p : Properties) :
    ∃ o', Works owner o o' ∧ o'.tables = o.tables.keep (owner handle) handle ∧
      o'.queues = o.queues ∧ o'.log = o.log ++
        [.sent queue (.discovered (describe (owner handle) p) (advertised p) p.rssi)] ∧
      o'.Employs task (.forward stream queue) (Worker.round (.forward stream queue)) := by
  let id := owner handle
  let seeking : Prog η Bool := (notice id).bind (pass queue)
  let inspecting : Prog η Bool := (inspect id handle).bind (pass queue)
  have seen : Resumes owner o (o.assign task (some seeking)) := by
    have waits : Settles seeking o seeking o := settles_ask_bind_iff.mpr ⟨rfl, rfl⟩
    exact resumes_of_after h (goesOn_nextEvent_bind_iff.mpr ⟨some (.discovered id), waits⟩) rfl
  have sought := Office.employs_assign_self h seeking
  have found : Resumes owner (o.assign task (some seeking))
      ((o.assign task (some seeking)).assign task (some inspecting)) := by
    have waits : Settles inspecting (o.assign task (some seeking)) inspecting _ :=
      settles_ask_bind_iff.mpr ⟨rfl, rfl⟩
    refine resumes_of_after (p := inspecting) sought ?_ rfl
    show GoesOn owner _ ((notice id).bind (pass queue)) _ _ _
    rw [notice_eq, Program.bind_assoc]
    exact goesOn_ask_bind_iff.mpr ⟨.ok handle, rfl, waits⟩
  have inspected := Office.employs_assign_self sought inspecting
  have announced : Resumes owner _ _ := resumes_of_after inspected
    (goesOn_ask_bind_iff.mpr ⟨.ok (some p), trivial,
      settles_change_bind_iff.mpr (settles_send_iff.mpr ⟨⟨true, rfl⟩, rfl⟩)⟩) rfl
  refine ⟨_, ((Relation.ReflTransGen.single seen).tail found).tail announced, rfl, rfl, rfl, ?_⟩
  exact Office.employs_assign_self inspected _

/-- So a session that has just been started can come to know any peripheral. -/
theorem exists_known (owner : Handle → String) (hn : o.tables.forwarder = none) (handle : Handle)
    (p : Properties) :
    ∃ o₁ o₂, Attends owner .start start o (some (.ok o.queues)) o₁ ∧ Works owner o₁ o₂ ∧
      o₂.tables = { o.tables with
        peripherals := put (owner handle) handle o.tables.peripherals
        events := some o.queues, forwarder := some o.posts.length } ∧
      o₂.sent o.queues = o.sent o.queues ++ [.adapterState .poweredOn,
        .discovered (describe (owner handle) p) (advertised p) p.rssi] := by
  let stream : Stream := (0 : Nat)
  obtain ⟨o₁, hstart, tables, posts, queues, sent⟩ := exists_started owner o stream .poweredOn
  have ready : (o₁.start stream .poweredOn).Employs o.posts.length (.forward stream o.queues)
      (Worker.round (.forward stream o.queues)) := by
    rw [← queues, ← posts]
    refine Office.employs_dismiss.mpr ⟨Office.employs_employ.mpr (.inr ⟨rfl, rfl, rfl⟩), ?_⟩
    rw [tables, hn]
    exact nofun
  obtain ⟨o₂, hworks, tables₂, -, log, -⟩ := exists_announced owner ready handle p
  refine ⟨_, o₂, hstart, hworks, ?_, ?_⟩
  · rw [tables₂, Office.tables_start, tables, queues, posts]
    rfl
  · replace sent : o₁.log.filterMap (Incident.sent? o.queues) = o.sent o.queues := sent o.queues
    simp [Office.sent, log, queues, sent, Incident.sent?]

/-- A peripheral that is known can be connected to. It is then listened to, and that is reported. -/
theorem exists_connected (owner : Handle → String) (hh : o.tables.handle? p.id = some handle)
    (hq : o.tables.events = some queue) (hl : o.tables.listener? p.id = none) (stream : Stream) :
    ∃ o', Attends owner (.connect p : Session.Request η) (answer (.connect p)) o (some (.ok ()))
        o' ∧ o'.tables = o.tables.listen p.id o.posts.length ∧
      o'.Employs o.posts.length (.listen p.id stream) (Worker.round (.listen p.id stream)) ∧
      o'.sent queue = o.sent queue ++ [.connected p none] := by
  let asked := (o.note (.asked (.connect p) (.connect handle))).note
    (.answered (.connect p) (.connect handle) (.ok ()))
  let heard := (asked.note (.asked (.connect p) (.notifications handle))).note
    (.answered (.connect p) (.notifications handle) (.ok stream))
  have listened : Attends owner (.connect p) (listen p.id handle) asked (some ())
      (heard.listen p.id stream) := by
    refine attends_ask_bind_iff.mpr (.inr ⟨.ok stream, _, .refl, ?_⟩)
    refine attends_employ_bind_iff.mpr (attends_tables_bind_iff.mpr ?_)
    refine attends_change_bind_iff.mpr ?_
    rw [← bind_done (abort _)]
    exact attends_abort_bind_iff.mpr (attends_done_iff.mpr ⟨rfl, rfl⟩)
  have emitted : (heard.listen p.id stream).emit (.connected p none) =
      (heard.listen p.id stream).note (.sent queue (.connected p none)) := by
    rw [Office.emit, Office.tables_listen]
    simp [heard, asked, Tables.listen, hq]
  refine ⟨(heard.listen p.id stream).emit (.connected p none), ?_, ?_, ?_, ?_⟩
  · refine attends_tables_bind_iff.mpr ?_
    rw [hh]
    refine attends_ask_bind_iff.mpr (.inr ⟨.ok (), _, .refl, ?_⟩)
    refine attends_bind_iff.mpr (.inr ⟨(), _, listened, ?_⟩)
    exact attends_emit_bind_iff.mpr (attends_done_iff.mpr ⟨rfl, rfl⟩)
  · rw [Office.tables_emit, Office.tables_listen]
    rfl
  · rw [emitted, Office.employs_note, Office.listen]
    refine Office.employs_dismiss.mpr ⟨Office.employs_employ.mpr (.inr ⟨rfl, rfl, rfl⟩), ?_⟩
    intro named
    cases hl.symm.trans named
  · rw [emitted, Office.sent_note]
    simp [Office.sent, heard, asked, Incident.sent?]

/-- The connection of a peripheral that is known can be cancelled, and that is reported. -/
theorem exists_cancelled (owner : Handle → String) (hh : o.tables.handle? p.id = some handle)
    (hq : o.tables.events = some queue) :
    ∃ o' : Office η, Attends owner (.cancelConnection p) (answer (.cancelConnection p)) o
        (some (.ok ())) o' ∧ o'.sent queue = o.sent queue ++ [.disconnected p none] := by
  let parted := ((o.unlisten p.id).note (.asked (.cancelConnection p) (.disconnect handle))).note
    (.answered (.cancelConnection p) (.disconnect handle) (.ok ()))
  refine ⟨parted.emit (.disconnected p none), attends_tables_bind_iff.mpr ?_, ?_⟩
  · rw [hh]
    refine attends_unlisten_bind_iff.mpr (attends_ask_bind_iff.mpr (.inr ⟨.ok (), _, .refl, ?_⟩))
    exact attends_emit_bind_iff.mpr (attends_done_iff.mpr ⟨rfl, rfl⟩)
  · have opened : parted.tables.events = some queue := by
      simp [parted, Tables.unlisten, hq]
    rw [Office.sent_emit opened]
    simp [parted, Office.sent_note, Incident.sent?]

/-- A consumer can subscribe to what a peripheral that is known may list. -/
theorem exists_subscribed (owner : Handle → String) (hh : o.tables.handle? p.id = some handle)
    {c : Characteristic} {listed : List Platform.Service} {found : Platform.Characteristic}
    (hf : find? listed c = some found) (consumer : η) :
    ∃ o', Attends owner (.subscribe p c consumer) (answer (.subscribe p c consumer)) o
        (some (.ok ())) o' ∧ o'.tables = o.tables.addRoute p.id found.uuid consumer ∧
      o'.posts = o.posts := by
  let enrolled := o.change (Tables.addRoute · p.id found.uuid consumer)
  refine ⟨(enrolled.note (.asked (.subscribe p c consumer) (.subscribe handle found))).note
    (.answered (.subscribe p c consumer) (.subscribe handle found) (.ok ())),
    attends_tables_bind_iff.mpr ?_, rfl, rfl⟩
  rw [hh]
  refine attends_services_bind_iff.mpr ⟨listed, ?_⟩
  rw [hf]
  refine attends_change_bind_iff.mpr (attends_ask_bind_iff.mpr (.inr ⟨.ok (), _, .refl, ?_⟩))
  exact attends_done_iff.mpr ⟨rfl, rfl⟩

/-- A listener that is ready can take any value, and hands it out. -/
theorem exists_handed (owner : Handle → String)
    (h : o.Employs task (.listen id stream) (Worker.round (.listen id stream)))
    (n : Notification) :
    ∃ o', Resumes owner o o' ∧ o'.log = o.log ++ .taken id n ::
      (o.tables.route id n.characteristic).map (.delivered · n.payload) := by
  have taken : Resumes owner o _ := resumes_of_after h (goesOn_nextValue_bind_iff.mpr (.inr ⟨n,
    settles_tables_bind_iff.mpr (settles_handOut_iff.mpr (.done true _))⟩)) rfl
  exact ⟨_, taken, by simp [Office.handOut, Office.note]⟩

end GattSync.Adapter
