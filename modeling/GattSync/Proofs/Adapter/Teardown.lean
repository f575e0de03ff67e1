import GattSync.Proofs.Adapter.Links

/-!
# What stopping a session leaves behind

To stop a session is to end scanning, to disconnect every peripheral that is still connected through
the session, and to leave all tables empty (`Discharges`). A session that is stopped goes through
the peripherals that it listens to. It disconnects those of them that the platform reports as
connected, and it drops their routes, in whatever order they come. So the duty is discharged exactly
when every peripheral that is connected or has routes is listened to (`discharges_iff`).

That is so after every history in which nothing has gone wrong with a connection. A connection
without a stream of notified values stays when the session is stopped.
-/

namespace GattSync.Adapter

open Program Platform

variable {η : Type} {owner : Handle → String} {t t' : Tables η} {turns : List (Turn η)}
  {inquiries first rest : List (Call Platform.effects)} {id other : String}

/-! ## What stopping is to come to -/

/-- A disconnection of the peripheral is asked for. -/
def Disconnects (owner : Handle → String) (inquiries : List (Call Platform.effects)) (id : String) :
    Prop :=
  ∃ handle, owner handle = id ∧ .disconnect handle ∈ inquiries.map (·.1)

/-- Whether a peripheral is connected is answered by these reports. -/
def IsReported (owner : Handle → String) (reports : String → Except PlatformError Bool)
    (inquiries : List (Call Platform.effects)) : Prop :=
  ∀ handle x, asked (.isConnected handle) x ∈ inquiries → x = reports (owner handle)

/-- From these tables, the session is stopped with these inquiries and left with those tables. -/
def IsStopped (owner : Handle → String) (reports : String → Except PlatformError Bool)
    (t : Tables η) (inquiries : List (Call Platform.effects)) (t' : Tables η) : Prop :=
  (∃ x, Proceeds owner (answer .stop) t inquiries (some x) t') ∧ IsReported owner reports inquiries

/-- Scanning is ended, all peripherals that are linked are disconnected if the platform reports them
as connected, and nothing is left. -/
structure Discharges (owner : Handle → String) (reports : String → Except PlatformError Bool)
    (linked : String → Bool) (inquiries : List (Call Platform.effects)) (t' : Tables η) : Prop where
  scanning : .stopScan ∈ inquiries.map (·.1)
  disconnects {id : String} (hl : linked id) (hr : reports id = .ok true) :
    Disconnects owner inquiries id
  listeners : t'.listeners = []
  routes : t'.routes = []
  peripherals : t'.peripherals = []
  events : t'.events = none

variable {reports : String → Except PlatformError Bool}

theorem IsReported.append (h : IsReported owner reports (first ++ rest)) :
    IsReported owner reports first ∧ IsReported owner reports rest :=
  ⟨fun handle x hm => h handle x (List.mem_append_left _ hm),
    fun handle x hm => h handle x (List.mem_append_right _ hm)⟩

theorem disconnects_append :
    Disconnects owner (first ++ rest) id ↔
      Disconnects owner first id ∨ Disconnects owner rest id := by
  simp only [Disconnects, List.map_append, List.mem_append, and_or_left, exists_or]

theorem Releases.disconnects_iff (h : Releases owner id inquiries (some ()))
    (hr : IsReported owner reports inquiries) :
    Disconnects owner inquiries other ↔ other = id ∧ reports other = .ok true := by
  cases h with
  | @apart handle ho x hx =>
    have report : x = reports id := ho ▸ hr handle x (List.mem_singleton_self _)
    refine iff_of_false (by simp [Disconnects, asked]) ?_
    rintro ⟨rfl, hother⟩
    exact hx (report.trans hother)
  | @parted handle ho x =>
    have report : .ok true = reports id := ho ▸ hr handle (.ok true) List.mem_cons_self
    constructor
    · rintro ⟨handle', rfl, hm⟩
      obtain rfl : handle' = handle := by simpa [asked] using hm
      exact ⟨ho, ho ▸ report.symm⟩
    · rintro ⟨rfl, -⟩
      exact ⟨handle, ho, by simp [asked]⟩

theorem Releasing.disconnects_iff {ids : List String}
    (h : Releasing owner t ids inquiries (some ()) t') (hr : IsReported owner reports inquiries) :
    Disconnects owner inquiries id ↔ id ∈ ids ∧ reports id = .ok true := by
  generalize hs : some () = r at h
  induction h with
  | nil => simp [Disconnects]
  | next hf _ _ ih =>
    rw [disconnects_append, hf.disconnects_iff hr.append.1, ih hr.append.2 hs, List.mem_cons,
      or_and_right]
  | givenUp => cases hs

theorem IsStopped.stops (h : IsStopped owner reports t inquiries t') (hs : t.IsSound owner) :
    Stops owner t inquiries (some ()) t' := by
  obtain ⟨⟨x, hx⟩, -⟩ := h
  obtain ⟨r, hp, hr⟩ := proceeds_bind_done_iff.mp hx
  cases r with
  | none => cases hr
  | some done => exact proceeds_stop hs hp

/-- Stopping disconnects what is listened to and reported as connected, and nothing else. -/
theorem IsStopped.disconnects_iff (h : IsStopped owner reports t inquiries t')
    (hs : t.IsSound owner) :
    Disconnects owner inquiries id ↔ t.listensTo id ∧ reports id = .ok true := by
  have reported := h.2
  cases h.stops hs with
  | @stopped t₁ t₂ rest ht x hl =>
    have unasked : ¬ Disconnects owner [asked .stopScan x] id := by simp [Disconnects, asked]
    rw [← List.singleton_append] at reported ⊢
    rw [disconnects_append, or_iff_right unasked, hl.disconnects_iff reported.append.2,
      Tables.mem_listeners_iff, ht.listensTo_iff]

/-! ## Whatever is reported, a session can be stopped -/

theorem nonempty_answer (op : Effect η) : Nonempty op.Answer := by
  cases op with
  | platform request => exact ⟨.error .notConnected⟩
  | services handle => exact ⟨[]⟩
  | tables => exact ⟨{}⟩
  | openQueue | employ worker => exact ⟨(0 : Nat)⟩
  | send queue event => exact ⟨true⟩
  | nextEvent stream | nextValue stream => exact ⟨none⟩
  | change f | abort task | deliver consumer payload => exact ⟨()⟩

/-- How the tables are taken on by a call, where the platform answers by these reports. -/
def PassesBy (owner : Handle → String) (reports : String → Except PlatformError Bool)
    (t : Tables η) (call : Call (Adapter.effects η)) (t' : Tables η) : Prop :=
  Passes owner t call t' ∧
    ∀ handle x, inquiry? call = some (asked (.isConnected handle) x) → x = reports (owner handle)

theorem exists_passesBy (owner : Handle → String) (reports : String → Except PlatformError Bool)
    (t : Tables η) (op : Effect η) : ∃ x t', PassesBy owner reports t ⟨op, some x⟩ t' := by
  obtain ⟨x⟩ := nonempty_answer op
  cases op with
  | platform request =>
    cases request with
    | isConnected handle =>
      refine ⟨reports (owner handle), t, .waited _ .refl, fun handle' y hy => ?_⟩
      cases hy
      rfl
    | _ => exact ⟨x, t, .waited _ .refl, nofun⟩
  | tables => exact ⟨t, t, .read t, nofun⟩
  | change f => exact ⟨(), f t, .changed t f, nofun⟩
  | _ => exact ⟨x, t, .internal t rfl x, nofun⟩

theorem exists_isStopped (owner : Handle → String) (reports : String → Except PlatformError Bool)
    (t : Tables η) : ∃ inquiries t', IsStopped owner reports t inquiries t' := by
  obtain ⟨calls, x, t', h⟩ := exists_evolves (exists_passesBy owner reports) (answer .stop) t
  refine ⟨calls.filterMap inquiry?, t', ⟨x, calls, h.mono And.left, rfl⟩, fun handle y hm => ?_⟩
  obtain ⟨call, hc, hi⟩ := List.mem_filterMap.mp hm
  exact h.forall_calls (fun hs => hs.2) call hc handle y hi

/-! ## Exactly when nothing is left behind -/

theorem Stops.scanning_mem {r : Option Unit} (h : Stops owner t inquiries r t') :
    .stopScan ∈ inquiries.map (·.1) := by
  cases h <;> exact List.mem_cons_self

/-- The duty is discharged by every way to stop the session, whatever the platform reports, exactly
if all that is linked or has routes is listened to. -/
theorem discharges_iff (hs : t.IsSound owner) {linked : String → Bool} :
    (∀ reports inquiries t', IsStopped owner reports t inquiries t' →
        Discharges owner reports linked inquiries t') ↔ Tends linked t := by
  constructor
  · intro h id hid
    obtain ⟨inquiries, t', hstop⟩ := exists_isStopped owner (fun _ => .ok true) t
    have duty := h _ inquiries t' hstop
    rcases hid with hlinked | ⟨r, hr, rfl⟩
    · exact ((hstop.disconnects_iff hs).mp (duty.disconnects hlinked rfl)).1
    · refine Classical.byContradiction fun unheard => ?_
      have left : r ∈ t'.routes := ((hstop.stops hs).tables.2.2.2.2 r).mpr ⟨hr, unheard⟩
      rw [duty.routes] at left
      cases left
  · intro h reports inquiries t' hstop
    obtain ⟨listeners, peripherals, events, -, routes⟩ := (hstop.stops hs).tables
    refine ⟨(hstop.stops hs).scanning_mem, fun {id} hl hr => ?_, listeners, ?_, peripherals, events⟩
    · exact (hstop.disconnects_iff hs).mpr ⟨h id (.inl hl), hr⟩
    · refine List.eq_nil_iff_forall_not_mem.mpr fun r hr => ?_
      obtain ⟨old, unheard⟩ := (routes r).mp hr
      exact unheard (h r.1.1 (.inr ⟨r, old, rfl⟩))

/-- What can be said of stopping a session that has had these turns. -/
structure Teardown (owner : Handle → String) (turns : List (Turn η)) (t : Tables η) : Prop where
  /-- It can be stopped whatever the platform reports. -/
  ends (reports : String → Except PlatformError Bool) :
    ∃ inquiries t', IsStopped owner reports t inquiries t'
  /-- Of the tables only the routes of peripherals that are not listened to can be left. -/
  tables {reports : String → Except PlatformError Bool} {inquiries : List (Call Platform.effects)}
    {t' : Tables η} (h : IsStopped owner reports t inquiries t') :
    t'.listeners = [] ∧ t'.peripherals = [] ∧ t'.events = none ∧ t'.forwarder = none ∧
      ∀ r, r ∈ t'.routes ↔ r ∈ t.routes ∧ ¬ t.listensTo r.1.1
  /-- The peripherals that are listened to are disconnected if they are reported, and no others. -/
  disconnects {reports : String → Except PlatformError Bool}
    {inquiries : List (Call Platform.effects)} {t' : Tables η}
    (h : IsStopped owner reports t inquiries t') (id : String) :
    Disconnects owner inquiries id ↔ t.listensTo id ∧ reports id = .ok true
  /-- Nothing is left behind if and only if the session listens to all that is connected through it
  or has routes. -/
  discharges_iff :
    (∀ reports inquiries t', IsStopped owner reports t inquiries t' →
        Discharges owner reports (isLinked owner (log turns)) inquiries t') ↔
      ∀ id, isLinked owner (log turns) id ∨ t.routes? id → t.listensTo id
  /-- So it is if nothing has gone wrong. -/
  undisturbed (h : IsUndisturbed owner turns) {reports : String → Except PlatformError Bool}
    {inquiries : List (Call Platform.effects)} {t' : Tables η}
    (hstop : IsStopped owner reports t inquiries t') :
    Discharges owner reports (isLinked owner (log turns)) inquiries t'

/-- After any history, a session is stopped in this way. -/
theorem session_teardown (h : History owner turns t) : Teardown owner turns t where
  ends := fun reports => exists_isStopped owner reports t
  tables hstop := (hstop.stops h.isSound).tables
  disconnects hstop _ := hstop.disconnects_iff h.isSound
  discharges_iff := Adapter.discharges_iff h.isSound
  undisturbed hu := (Adapter.discharges_iff h.isSound).mpr (h.tends hu) _ _ _

/-- A peripheral, and the handle that is kept for it. -/
def lone : Peripheral := ⟨"dev-1", "AA:BB:CC:DD:EE:FF", none⟩

/-- A session is started and connects to a peripheral, and it is then answered when it wants to
listen. -/
def introduction (x : Except PlatformError Stream) : List (Turn String) :=
  [⟨.start, [asked .events (.ok (0 : Nat)), asked .adapterState (.ok AdapterState.poweredOn)]⟩,
    ⟨.connect lone, [asked (.connect 0) (.ok ()), asked (.notifications 0) x]⟩]

/-- The tables of a started session that has seen one peripheral. -/
def started : Tables String :=
  { peripherals := [(lone.id, 0)], events := some 0, forwarder := some 0 }

theorem proceeds_start {owner : Handle → String} :
    Proceeds owner (answer (.start : Session.Request String)) {}
      [asked .events (.ok (0 : Nat)), asked .adapterState (.ok AdapterState.poweredOn)]
      (some (.ok (0 : Nat))) { events := some 0, forwarder := some 0 } := by
  refine proceeds_ask_bind_iff.mpr (.inr ⟨.ok (0 : Nat), _, _, rfl, .refl, ?_⟩)
  refine proceeds_ask_bind_iff.mpr (.inr ⟨.ok AdapterState.poweredOn, _, _, rfl, .refl, ?_⟩)
  refine (proceeds_internal_bind_iff rfl).mpr ⟨(0 : Nat), ?_⟩
  refine (proceeds_internal_bind_iff rfl).mpr ⟨true, ?_⟩
  refine proceeds_change_bind_iff.mpr ?_
  refine (proceeds_internal_bind_iff rfl).mpr ⟨(0 : Nat), ?_⟩
  refine proceeds_tables_bind_iff.mpr (proceeds_change_bind_iff.mpr ?_)
  exact proceeds_done_iff.mpr ⟨rfl, rfl, rfl⟩

/-- The tables once it has been answered. -/
def introduced (x : Except PlatformError Stream) : Tables String :=
  match x with
  | .ok _ => started.listen lone.id 1
  | .error _ => started

theorem proceeds_lone {owner : Handle → String} (x : Except PlatformError Stream) :
    Proceeds owner (answer (.connect lone : Session.Request String)) started
      [asked (.connect 0) (.ok ()), asked (.notifications 0) x] (some (.ok ())) (introduced x) := by
  refine proceeds_tables_bind_iff.mpr ?_
  refine proceeds_ask_bind_iff.mpr (.inr ⟨.ok (), _, _, rfl, .refl, ?_⟩)
  refine proceeds_bind_iff.mpr (.inr ⟨(), introduced x, _, [], (List.append_nil _).symm, ?_, ?_⟩)
  · refine proceeds_ask_bind_iff.mpr (.inr ⟨x, _, [], rfl, .refl, ?_⟩)
    cases x with
    | error e => exact proceeds_done_iff.mpr ⟨rfl, rfl, rfl⟩
    | ok stream =>
      refine (proceeds_internal_bind_iff rfl).mpr ⟨(1 : Nat), ?_⟩
      refine proceeds_tables_bind_iff.mpr (proceeds_change_bind_iff.mpr ?_)
      exact proceeds_done_iff.mpr ⟨rfl, rfl, rfl⟩
  · exact proceeds_emit_bind_iff.mpr (proceeds_done_iff.mpr ⟨rfl, rfl, rfl⟩)

theorem history_introduction (x : Except PlatformError Stream) :
    History (fun _ => lone.id) (introduction x) (introduced x) := by
  have opened : History (fun _ => lone.id) _ _ := History.created.turned proceeds_start
  have seen := opened.waited (.kept .refl 0)
  exact seen.turned (proceeds_lone x)

theorem isUndisturbed_introduction (stream : Stream) :
    IsUndisturbed (fun _ => lone.id) (introduction (.ok stream)) where
  settled := by simp [introduction, asked, isSettled, succeeded]
  linked past u hp p c consumer hu := by
    have hm : u ∈ introduction (.ok stream) :=
      hp.subset (List.mem_append_right _ (List.mem_singleton_self _))
    simp only [introduction, List.mem_cons, List.not_mem_nil, or_false] at hm
    rcases hm with rfl | rfl <;> cases hu

/-- With a stream to listen to, the connection is not left behind. -/
theorem session_teardown_heard :
    History (fun _ => lone.id) (introduction (.ok (0 : Nat))) (introduced (.ok (0 : Nat))) ∧
      ∀ reports inquiries t', IsStopped (fun _ => lone.id) reports (introduced (.ok (0 : Nat)))
          inquiries t' →
        Discharges (fun _ => lone.id) reports
          (isLinked (fun _ => lone.id) (log (introduction (.ok (0 : Nat))))) inquiries t' :=
  have h := history_introduction (.ok (0 : Nat))
  ⟨h, fun _ _ _ => (session_teardown h).undisturbed (isUndisturbed_introduction 0)⟩

/-- Without one it is: the peripheral is connected through the session and reported as connected,
and nobody disconnects it. -/
theorem leaves_connected :
    ∃ (turns : List (Turn String)) (t : Tables String) (inquiries : List (Call Platform.effects))
      (t' : Tables String), History (fun _ => lone.id) turns t ∧
      isLinked (fun _ => lone.id) (log turns) lone.id ∧
      IsStopped (fun _ => lone.id) (fun _ => .ok true) t inquiries t' ∧
      ¬ Disconnects (fun _ => lone.id) inquiries lone.id := by
  have h := history_introduction (.error .notConnected)
  obtain ⟨inquiries, t', hstop⟩ := exists_isStopped (fun _ => lone.id) (fun _ => .ok true) started
  refine ⟨_, _, inquiries, t', h, by simp [introduction, log, isLinked, relink, link?, asked],
    hstop, fun hd => ?_⟩
  obtain ⟨⟨l, hl, -⟩, -⟩ := (hstop.disconnects_iff h.isSound).mp hd
  cases hl

end GattSync.Adapter
