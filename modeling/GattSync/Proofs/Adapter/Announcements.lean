import GattSync.Proofs.Adapter.Prospects

/-!
# What is announced on a queue

A session that is started sends the state of the adapter first. From then on its forwarder keeps
the handle of a peripheral and announces it at the same moment, so on the open queue the peripherals
that are known and those that are announced are the same (`Office.Announces.known`). Therefore
whatever is reported as gone has been announced before, and whatever has been announced stays known
until the session is stopped (`Unfolds.announces`).

This takes a session that knows nothing yet when it is started: one that was just created or has
been stopped, and has not been started since (`Unstarted`). Nobody is at work for such a session
(`Unstarted.isClosed`), and a start that fails leaves it as it is.
-/

namespace GattSync

/-- The peripheral with this id is announced. -/
def Event.Announces (id : String) : Event → Prop
  | .discovered p _ _ => p.id = id
  | _ => False

/-- Whatever disconnects has been announced before. -/
def IsAnnounced (events : List Event) : Prop :=
  ∀ before p error after, events = before ++ .disconnected p error :: after →
    ∃ e ∈ before, e.Announces p.id

namespace Adapter

open Program Platform

variable {η : Type} {owner : Handle → String} {K : Session.Request η → Prop}
  {o o' : Office η} {worker : Worker} {queue : Session.Queue} {id : String} {event : Event}

theorem isAnnounced_nil : IsAnnounced [] := by
  intro before p error after hs
  cases before <;> cases hs

theorem isAnnounced_snoc {events : List Event} {e : Event} (h : IsAnnounced events)
    (he : ∀ p error, e = .disconnected p error → ∃ d ∈ events, d.Announces p.id) :
    IsAnnounced (events ++ [e]) := by
  intro before p error after hs
  rcases append_eq_append_cons_iff.mp hs with ⟨more, rfl, -⟩ | ⟨more, rfl, hlast⟩
  · exact h before p error more rfl
  · obtain ⟨rfl, hlast⟩ | ⟨more, rfl, hlast⟩ := List.cons_eq_append_iff.mp hlast
    · rw [List.append_nil]
      exact he p error (List.cons.inj hlast).1
    · simp at hlast

/-! ## What a step sends -/

/-- With requests of a kind and these tables, the event can be sent. -/
def IsDue (K : Session.Request η → Prop) (t : Tables η) : Event → Prop
  | .connected p _ => K (.connect p)
  | .disconnected p _ => t.knows p.id
  | _ => True

/-- What a step sends to a queue, and what is known after it. -/
inductive Sends (K : Session.Request η → Prop) (queue : Session.Queue) (o o' : Office η) : Prop
  | nothing (hs : o'.sent queue = o.sent queue)
      (hq : o'.tables.events = some queue → o.tables.events = some queue ∧
        ∀ id, o'.tables.knows id → o.tables.knows id)
  /-- The queue is the open one. -/
  | event (e : Event) (hs : o'.sent queue = o.sent queue ++ [e])
      (hq : o.tables.events = some queue)
      (hk : ∀ id, o'.tables.knows id ↔ e.Announces id ∨ o.tables.knows id)
      (hd : IsDue K o.tables e)
  | opened (hk : K .start) (hn : queue = o.queues) (hq : queue < o'.queues)

theorem sends_of_silent (hs : o'.sent queue = o.sent queue)
    (hq : o'.tables.events = o.tables.events)
    (hk : ∀ id, o'.tables.knows id → o.tables.knows id) : Sends K queue o o' :=
  .nothing hs fun h => ⟨hq ▸ h, hk⟩

/-- What is sent to the open queue is not sent to any other one. -/
theorem sends_of_sent {q : Session.Queue} (hl : o'.log = o.log ++ [.sent q event])
    (hq : o.tables.events = some q) (hq' : o'.tables.events = some q)
    (hk : ∀ id, o'.tables.knows id ↔ event.Announces id ∨ o.tables.knows id)
    (hd : IsDue K o.tables event) : Sends K queue o o' := by
  by_cases same : q = queue
  · subst same
    refine .event event ?_ hq hk hd
    simp [Office.sent, hl, Incident.sent?]
  · refine .nothing ?_ fun h => absurd (Option.some.inj (hq'.symm.trans h)) same
    simp [Office.sent, hl, Incident.sent?, same]

theorem sends_of_emit (hk : ∀ id, ¬ event.Announces id) (hd : IsDue K o.tables event) :
    Sends K queue o (o.emit event) := by
  unfold Office.emit
  split
  · next q hq => exact sends_of_sent rfl hq hq (fun id => by simp [hk id]) hd
  · exact sends_of_silent rfl rfl fun _ => id

theorem sent?_of_isPlain {i : Incident η} (h : i.isPlain) : i.sent? queue = none := by
  cases i with
  | sent => cases h
  | _ => rfl

/-- A forwarder sends to the open queue. -/
theorem Labours.sends {stream : Stream} {q : Session.Queue}
    (h : Labours owner o (.forward stream q) o') (hq : o.tables.events = some q) :
    Sends K queue o o' := by
  cases h with
  | idles => exact sends_of_silent rfl rfl fun _ => id
  | tells state => exact sends_of_sent rfl hq hq (fun id => by simp [Event.Announces]) trivial
  | notices handle p =>
    refine sends_of_sent rfl hq hq (fun id => ?_) trivial
    exact Tables.knows_keep.trans (or_congr_left eq_comm)
  | reports known p =>
    exact sends_of_sent rfl hq hq (fun id => by simp [Event.Announces]) known

theorem Advances.sends (h : Advances owner K o o') (queue : Session.Queue)
    (hs : o.IsStaffed owner) : Sends K queue o o' := by
  cases h with
  | @worked task worker rest left o₁ he labours hl =>
    -- what the worker is left with changes neither the tables nor the log
    suffices step : Sends K queue o o₁ by
      cases step with
      | nothing hs hq => exact .nothing hs hq
      | event e hs hq hk hd => exact .event e hs hq hk hd
      | opened hk hn hq => exact .opened hk hn hq
    cases worker with
    | forward stream q => exact labours.sends (hs.forwards he).2
    | listen id stream =>
      cases labours with
      | idles => exact sends_of_silent rfl rfl fun _ known => known
      | hears _ _ n =>
        refine sends_of_silent ?_ rfl fun _ known => known
        simp [Office.sent, Office.handOut, Office.note, Incident.sent?]
  | noted plain =>
    refine sends_of_silent ?_ rfl fun _ => id
    simp [Office.sent_note, sent?_of_isPlain plain]
  | enrolled =>
    exact sends_of_silent (by simp [Office.sent_note, Incident.sent?]) rfl fun _ => id
  | revoked =>
    exact sends_of_silent (by simp [Office.sent_note, Incident.sent?]) rfl fun _ => id
  | cancelled =>
    refine sends_of_silent ?_ ?_ ?_
    · simp [Office.sent, Incident.sent?]
    · simp [Tables.unlisten]
    · simp [Tables.unlisten, Tables.knows]
  | parted =>
    refine sends_of_silent ?_ ?_ ?_
    · simp [Office.sent, Incident.sent?]
    · simp [Tables.unlisten]
    · simp [Tables.unlisten, Tables.knows]
  | listened =>
    refine sends_of_silent ?_ ?_ ?_
    · simp [Office.sent]
    · simp [Tables.listen]
    · simp [Tables.listen, Tables.knows]
  | completed hk error => exact sends_of_emit (fun _ => id) hk
  | released _ known => exact sends_of_emit (fun _ => id) known
  | started hk stream state =>
    by_cases same : queue = o.queues
    · refine .opened hk same ?_
      simp [Office.start, same]
    · refine .nothing ?_ ?_
      · simp [Office.sent, Incident.sent?, Ne.symm same]
      · rw [Office.tables_start]
        exact fun hq => absurd (Option.some.inj hq).symm same
  | shut =>
    refine .nothing ?_ ?_
    · simp [Office.sent]
    · rw [Office.tables_shut]
      intro hq
      cases hq

/-- Until the session is stopped, what is known stays known. -/
theorem Advances.knows (h : Advances owner K o o') (hk : ¬ K .stop) (known : o.tables.knows id) :
    o'.tables.knows id := by
  cases h with
  | worked _ labours _ =>
    rcases labours.tables_eq with ht | ⟨handle, ht⟩
    · rwa [Office.tables_assign, ht]
    · rw [Office.tables_assign, ht]
      exact Tables.knows_keep.mpr (.inr known)
  | cancelled =>
    rw [Office.tables_note, Office.tables_unlisten]
    exact known
  | parted hstop => exact absurd hstop hk
  | listened =>
    rw [Office.tables_listen]
    exact known
  | completed | released =>
    rw [Office.tables_emit]
    exact known
  | started =>
    rw [Office.tables_start]
    exact known
  | shut hstop => exact absurd hstop hk
  | _ => exact known

theorem Unfolds.knows (h : Unfolds owner K o o') (hk : ¬ K .stop) (known : o.tables.knows id) :
    o'.tables.knows id := by
  induction h with
  | refl => exact known
  | tail _ step ih => exact step.knows hk ih

theorem Labours.queues_eq (h : Labours owner o worker o') : o'.queues = o.queues := by
  cases h <;> rfl

theorem Advances.queues_le (h : Advances owner K o o') : o.queues ≤ o'.queues := by
  cases h with
  | worked _ labours _ => exact Nat.le_of_eq labours.queues_eq.symm
  | cancelled | parted => simp [Office.unlisten]
  | listened => simp [Office.listen]
  | completed | released =>
    unfold Office.emit
    split <;> exact Nat.le_refl _
  | started => simp [Office.start]
  | shut => simp [Office.shut]
  | _ => exact Nat.le_refl _

/-- Unless the session is started, a queue only gets longer, and a completion is only sent for a
request to connect. -/
theorem Unfolds.adds (h : Unfolds owner K o o') (hk : ¬ K .start) (hs : o.IsStaffed owner)
    (queue : Session.Queue) : ∃ more, o'.sent queue = o.sent queue ++ more ∧
      ∀ p error, .connected p error ∈ more → K (.connect p) := by
  induction h with
  | refl => exact ⟨[], by simp, by simp⟩
  | tail before step ih =>
    obtain ⟨more, sent, asked⟩ := ih
    cases step.sends queue (Unfolds.isStaffed before hs) with
    | nothing same => exact ⟨more, same.trans sent, asked⟩
    | event e last _ _ due =>
      refine ⟨more ++ [e], by rw [last, sent, List.append_assoc], fun p error he => ?_⟩
      rcases List.mem_append.mp he with he | he
      · exact asked p error he
      · obtain rfl := List.mem_singleton.mp he
        exact due
    | opened hstart => exact absurd hstart hk

/-- Unless the session is started or stopped, the open queue stays the same. -/
theorem Advances.events_eq (h : Advances owner K o o') (hstart : ¬ K .start) (hstop : ¬ K .stop) :
    o'.tables.events = o.tables.events := by
  cases h with
  | worked _ labours _ =>
    rcases labours.tables_eq with ht | ⟨handle, ht⟩ <;> rw [Office.tables_assign, ht]
    rfl
  | cancelled =>
    rw [Office.tables_note, Office.tables_unlisten]
    rfl
  | listened =>
    rw [Office.tables_listen]
    rfl
  | completed | released => rw [Office.tables_emit]
  | started hk => exact absurd hk hstart
  | parted hk | shut hk => exact absurd hk hstop
  | _ => rfl

theorem Unfolds.events_eq (h : Unfolds owner K o o') (hstart : ¬ K .start) (hstop : ¬ K .stop) :
    o'.tables.events = o.tables.events := by
  induction h with
  | refl => rfl
  | tail _ step ih => exact (step.events_eq hstart hstop).trans ih

/-! ## Queues are numbered -/

/-- Nothing is sent to a queue before it is opened. -/
structure Office.IsNumbered (o : Office η) : Prop where
  opened {queue : Session.Queue} (h : o.tables.events = some queue) : queue < o.queues
  unsent {queue : Session.Queue} (h : o.queues ≤ queue) : o.sent queue = []

theorem Office.isNumbered_new : ({} : Office η).IsNumbered := ⟨nofun, fun _ => rfl⟩

theorem Advances.isNumbered (h : Advances owner K o o') (hs : o.IsStaffed owner)
    (hn : o.IsNumbered) : o'.IsNumbered := by
  have more := h.queues_le
  constructor
  case opened =>
    intro queue hq
    cases h.sends queue hs with
    | nothing _ still => exact Nat.lt_of_lt_of_le (hn.opened (still hq).1) more
    | event _ _ hq => exact Nat.lt_of_lt_of_le (hn.opened hq) more
    | opened _ _ hq => exact hq
  case unsent =>
    intro queue hq
    cases h.sends queue hs with
    | nothing hs => exact hs.trans (hn.unsent (Nat.le_trans more hq))
    | event _ _ current =>
      exact absurd (Nat.le_trans more hq) (Nat.not_le_of_lt (hn.opened current))
    | opened _ _ new => exact absurd hq (Nat.not_le_of_lt new)

theorem Unfolds.isNumbered (h : Unfolds owner K o o') (hs : o.IsStaffed owner)
    (hn : o.IsNumbered) : o'.IsNumbered :=
  h.preserves hs hn fun staffed step => step.isNumbered staffed

/-- A session that has been started has opened a queue and has sent the adapter's state to it. -/
theorem opens_of_started (hs : o.IsStaffed owner) (hn : o.IsNumbered)
    (h : Attends owner (.start : Session.Request η) start o (some (.ok queue)) o') :
    ∃ o₁ stream state, Idles owner o o₁ ∧ o' = o₁.start stream state ∧ queue = o₁.queues ∧
      o'.sent queue = [.adapterState state] := by
  rcases attends_start hs h with ⟨-, hr⟩ | ⟨o₁, stream, state, idle, rfl, hr⟩
  · exact absurd rfl (hr queue)
  · obtain rfl : queue = o₁.queues := Except.ok.inj (Option.some.inj hr)
    refine ⟨o₁, stream, state, idle, rfl, rfl, ?_⟩
    have before : o₁.log.filterMap (Incident.sent? o₁.queues) = [] :=
      (idle.isNumbered hs hn).unsent (Nat.le_refl _)
    simp [Office.sent, before, Incident.sent?]

/-! ## What is announced -/

/-- What holds of a queue since the session was started with it. -/
structure Office.Announces (o : Office η) (queue : Session.Queue) : Prop where
  opened : queue < o.queues
  first : ∃ state, (o.sent queue).head? = some (.adapterState state)
  /-- On the open queue, whatever is known has been announced. -/
  known (hq : o.tables.events = some queue) {id : String} (hk : o.tables.knows id) :
    ∃ e ∈ o.sent queue, e.Announces id
  announced : IsAnnounced (o.sent queue)
  resolves {e : Event} (he : e ∈ o.sent queue) {id : String} (ha : e.Announces id) :
    o.tables.knows id

theorem Advances.announces (h : Advances owner K o o') (hk : ¬ K .stop) (hs : o.IsStaffed owner)
    (ha : o.Announces queue) : o'.Announces queue := by
  have opened := Nat.lt_of_lt_of_le ha.opened h.queues_le
  cases h.sends queue hs with
  | nothing same still =>
    refine ⟨opened, same ▸ ha.first, ?_, same ▸ ha.announced, ?_⟩
    · intro hq id known
      rw [same]
      exact ha.known (still hq).1 ((still hq).2 id known)
    · intro e he id announces
      exact h.knows hk (ha.resolves (same ▸ he) announces)
  | event e more hq knows due =>
    refine ⟨opened, ?_, ?_, ?_, ?_⟩
    · obtain ⟨state, hfirst⟩ := ha.first
      exact ⟨state, by rw [more, List.head?_append, hfirst]; rfl⟩
    · intro _ id known
      rw [more]
      rcases (knows id).mp known with announces | known
      · exact ⟨e, by simp, announces⟩
      · obtain ⟨d, hd, announces⟩ := ha.known hq known
        exact ⟨d, List.mem_append_left _ hd, announces⟩
    · rw [more]
      refine isAnnounced_snoc ha.announced fun p error he => ha.known hq ?_
      subst he
      exact due
    · intro d hd id announces
      rw [more] at hd
      rcases List.mem_append.mp hd with old | last
      · exact h.knows hk (ha.resolves old announces)
      · obtain rfl := List.mem_singleton.mp last
        exact (knows id).mpr (.inl announces)
  | opened _ new => exact absurd ha.opened (new ▸ Nat.lt_irrefl _)

/-- Until the session is stopped, that goes on to hold. -/
theorem Unfolds.announces (h : Unfolds owner K o o') (hk : ¬ K .stop) (hs : o.IsStaffed owner)
    (ha : o.Announces queue) : o'.Announces queue :=
  h.preserves hs ha fun staffed step => step.announces hk staffed

/-! ## Sessions that are not started -/

/-- Nothing is known, no queue is open, and nobody is at work. -/
structure Office.IsClosed (o : Office η) : Prop where
  events : o.tables.events = none
  unknown {id : String} : ¬ o.tables.knows id
  unemployed {task : Task} {worker : Worker} {rest : Prog η Bool} :
    ¬ o.Employs task worker rest

theorem Office.isClosed_new : ({} : Office η).IsClosed where
  events := rfl
  unknown h := by simp [Tables.knows] at h
  unemployed h := by simp [Office.Employs] at h

theorem Office.IsStaffed.isClosed_shut (hs : o.IsStaffed owner)
    (hl : ∀ id, o.tables.listener? id = none) : o.shut.IsClosed where
  events := by rw [Office.tables_shut]; rfl
  unknown h := by simp [Tables.knows, Tables.shut] at h
  unemployed := hs.not_employs_shut hl

/-- A closed office stays closed unless the session is started. -/
theorem Advances.isClosed (h : Advances owner K o o') (hk : ¬ K .start) (hs : o.IsStaffed owner)
    (hc : o.IsClosed) : o'.IsClosed := by
  have emit (event : Event) : o.emit event = o := by
    rw [Office.emit, hc.events]
  cases h with
  | worked he => exact absurd he hc.unemployed
  | noted => exact ⟨hc.events, hc.unknown, hc.unemployed⟩
  | enrolled => exact ⟨hc.events, hc.unknown, hc.unemployed⟩
  | revoked => exact ⟨hc.events, hc.unknown, hc.unemployed⟩
  | cancelled | parted =>
    refine ⟨?_, ?_, ?_⟩
    · rw [Office.tables_note, Office.tables_unlisten]
      exact hc.events
    · rw [Office.tables_note, Office.tables_unlisten]
      exact hc.unknown
    · simp [Office.unlisten, hc.unemployed]
  | listened _ known => exact absurd known hc.unknown
  | completed | released =>
    rw [emit]
    exact hc
  | started hstart => exact absurd hstart hk
  | shut _ hl => exact hs.isClosed_shut hl

theorem Unfolds.isClosed (h : Unfolds owner K o o') (hk : ¬ K .start) (hs : o.IsStaffed owner)
    (hc : o.IsClosed) : o'.IsClosed :=
  h.preserves hs hc fun staffed step => step.isClosed hk staffed

/-- While nobody is at work, waiting changes nothing. -/
theorem Idles.of_isClosed (h : Idles owner o o') (hc : o.IsClosed) :
    o'.tables = o.tables ∧ o'.posts = o.posts ∧ o'.queues = o.queues ∧
      ∀ queue, o'.sent queue = o.sent queue := by
  induction h with
  | refl => exact ⟨rfl, rfl, rfl, fun _ => rfl⟩
  | @tail o₁ o₂ _ step ih =>
    obtain ⟨tables, posts, queues, sent⟩ := ih
    cases step with
    | @worked task worker rest left o₂ he =>
      have employed : o.Employs task worker rest := by rwa [Office.Employs, ← posts]
      exact absurd employed hc.unemployed
    | noted plain =>
      refine ⟨tables, posts, queues, fun queue => ?_⟩
      simp [Office.sent_note, sent?_of_isPlain plain, sent queue]
    | _ => contradiction

/-- The session was just created or has been stopped, and has not been started since. -/
inductive Unstarted (owner : Handle → String) : Office η → Prop
  | created : Unstarted owner {}
  | stopped {o o' : Office η} {x : Except Error Unit} (h : Elapses owner (fun _ => True) {} o)
      (hs : Attends owner (.stop : Session.Request η) (answer .stop) o (some x) o') :
    Unstarted owner o'
  | resumed {o o' : Office η} (h : Unstarted owner o) (hr : Resumes owner o o') :
    Unstarted owner o'
  | attended {o o' : Office η} {request : Session.Request η} {r : Option request.Answer}
      (h : Unstarted owner o) (hn : request ≠ .start)
      (ha : Attends owner request (answer request) o r o') : Unstarted owner o'
  /-- The session could not be started. -/
  | refused {o o' : Office η} {r : Option (Except Error Session.Queue)} (h : Unstarted owner o)
      (ha : Attends owner (.start : Session.Request η) start o r o')
      (hr : ∀ queue, r ≠ some (.ok queue)) : Unstarted owner o'

theorem Unstarted.unfolds (h : Unstarted owner o) :
    Unfolds owner (fun _ => True) {} o := by
  induction h with
  | created => exact .refl
  | stopped h hs =>
    have before := h.unfolds Office.isStaffed_new
    exact before.trans (attends_answer trivial (before.isStaffed Office.isStaffed_new) hs)
  | resumed _ hr ih => exact ih.tail (hr.advances (ih.isStaffed Office.isStaffed_new))
  | attended _ _ ha ih =>
    exact ih.trans (attends_answer trivial (ih.isStaffed Office.isStaffed_new) ha)
  | refused _ ha _ ih =>
    exact ih.trans (attends_answer trivial (ih.isStaffed Office.isStaffed_new) ha)

theorem Unstarted.isStaffed (h : Unstarted owner o) : o.IsStaffed owner :=
  h.unfolds.isStaffed Office.isStaffed_new

theorem idles_of_refused {r : Option (Except Error Session.Queue)} (hs : o.IsStaffed owner)
    (h : Attends owner (.start : Session.Request η) start o r o')
    (hr : ∀ queue, r ≠ some (.ok queue)) : Idles owner o o' := by
  rcases attends_start hs h with ⟨idle, -⟩ | ⟨o₁, stream, state, -, -, hr'⟩
  · exact idle
  · exact absurd hr' (hr _)

theorem Unstarted.isClosed (h : Unstarted owner o) : o.IsClosed := by
  induction h with
  | created => exact Office.isClosed_new
  | @stopped o o' x h hs =>
    have staffed := h.isStaffed Office.isStaffed_new
    obtain ⟨r, hstop, hx⟩ := attends_bind_done_iff.mp hs
    have done : r = some () := by
      cases r with
      | none => cases hx
      | some done => rfl
    obtain ⟨o₁, before, rfl, silent, -⟩ :=
      (attends_stop (K := fun _ => True) trivial staffed hstop).2 done
    exact (before.isStaffed staffed).isClosed_shut silent
  | resumed h hr ih =>
    obtain ⟨he, -⟩ := hr
    exact absurd he ih.unemployed
  | @attended o o' request r h hn ha ih =>
    have unfolds : Unfolds owner (· ≠ .start) o o' := attends_answer hn h.isStaffed ha
    exact unfolds.isClosed (fun h => h rfl) h.isStaffed ih
  | refused h ha hr ih =>
    have idle := idles_of_refused h.isStaffed ha hr
    exact Unfolds.isClosed idle id h.isStaffed ih

/-- A session that has been started announces. -/
theorem Unstarted.announces (h : Unstarted owner o)
    (ha : Attends owner (.start : Session.Request η) start o (some (.ok queue)) o') :
    o'.Announces queue := by
  have closed := h.isClosed
  have numbered := h.unfolds.isNumbered Office.isStaffed_new Office.isNumbered_new
  obtain ⟨o₁, stream, state, idle, rfl, rfl, only⟩ := opens_of_started h.isStaffed numbered ha
  have unknown {id : String} : ¬ (o₁.start stream state).tables.knows id := by
    rw [Office.tables_start, (idle.of_isClosed closed).1]
    exact closed.unknown
  refine ⟨?_, ⟨state, by rw [only]; rfl⟩, fun _ _ known => absurd known unknown, ?_, ?_⟩
  · simp [Office.start]
  · rw [only]
    refine isAnnounced_snoc isAnnounced_nil fun p error he => ?_
    cases he
  · rw [only]
    intro e he id announces
    obtain rfl := List.mem_singleton.mp he
    exact announces.elim

end Adapter
end GattSync
