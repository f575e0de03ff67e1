import GattSync.Proofs.Cycle.Driven

/-!
# What a controller waits for

A controller that has requested a connection waits for its completion, and one that has released its
peripheral waits to see it disconnect. Neither is ever waited for in vain: the session sends what is
waited for before it answers the request.

In every turn the completions balance (`Controller.Step.balance`): what is handled and what is still
requested is what was requested and what has been sent. So at any time between two turns there is
one completion in the queue for a requested connection, and there is none otherwise
(`Controller.Awaits`).
-/

namespace GattSync

/-- The peripheral that a connection was requested to, if the event completes that. -/
def Event.completed? : Event → Option Peripheral
  | .connected p _ => some p
  | _ => none

/-- The peripherals that connections are completed for. -/
def completions (events : List Event) : List Peripheral := events.filterMap (·.completed?)

variable {events more : List Event}

@[simp] theorem completions_append :
    completions (events ++ more) = completions events ++ completions more :=
  List.filterMap_append

theorem completions_cons {e : Event} :
    completions (e :: events) = e.completed?.toList ++ completions events := by
  cases h : e.completed? <;> simp [completions, h]

theorem completions_eq_nil (h : ∀ p error, .connected p error ∉ events) :
    completions events = [] := by
  refine List.filterMap_eq_nil_iff.mpr fun e he => ?_
  cases e with
  | connected p error => exact absurd he (h p error)
  | _ => rfl

namespace Adapter

open Program Platform

variable {η : Type} {owner : Handle → String} {K : Session.Request η → Prop}
  {queue : Session.Queue} {p : Peripheral} {o o' : Office η}

/-! ## What a request sends -/

theorem Unfolds.adds_quietly (h : Unfolds owner K o o') (hs : o.IsStaffed owner)
    (hk : ¬ K .start) (hc : ∀ p, ¬ K (.connect p)) (queue : Session.Queue) :
    ∃ more, o'.sent queue = o.sent queue ++ more ∧ completions more = [] := by
  obtain ⟨more, sent, asked⟩ := h.adds hk hs queue
  exact ⟨more, sent, completions_eq_nil fun p error he => hc p (asked p error he)⟩

/-- A connection that has been accepted is completed once. -/
theorem adds_of_connect (hs : o.IsStaffed owner) (hq : o.tables.events = some queue)
    (h : Attends owner (.connect p) (answer (.connect p)) o (some (.ok ())) o') :
    ∃ more, o'.sent queue = o.sent queue ++ more ∧ completions more = [p] := by
  have completed {o₁ o₂ : Office η} (idle : Idles owner o o₁)
      (events : o₂.tables.events = o₁.tables.events) (same : o₂.sent queue = o₁.sent queue)
      (error : Option String) :
      ∃ more, (o₂.emit (.connected p error)).sent queue = o.sent queue ++ more ∧
        completions more = [p] := by
    obtain ⟨more, sent, unrelated⟩ := idle.adds_quietly hs id (fun _ => id) queue
    refine ⟨more ++ [.connected p error], ?_, by rw [completions_append, unrelated]; rfl⟩
    rw [Office.sent_emit (events.trans (idle.events_eq.trans hq)), same, sent, List.append_assoc]
  rcases attends_connect hs h with ⟨-, hr, -⟩ | ⟨-, h⟩
  · cases hr
  · cases h with
    | apart idle error => exact completed idle rfl rfl error
    | heard idle stream =>
      refine completed idle ?_ Office.sent_listen none
      rw [Office.tables_listen]
      rfl

/-- One that has not been accepted leaves everything as it was. -/
theorem eq_of_connect_refused {fault : Error} (hs : o.IsStaffed owner)
    (h : Attends owner (.connect p) (answer (.connect p)) o (some (.error fault)) o') : o' = o := by
  rcases attends_connect hs h with ⟨-, -, same⟩ | ⟨-, h⟩
  · exact same
  · cases h

/-- A peripheral that could be released is reported as gone. -/
theorem adds_of_cancel {x : Except Error Unit} (hs : o.IsStaffed owner)
    (hq : o.tables.events = some queue)
    (h : Attends owner (.cancelConnection p) (answer (.cancelConnection p)) o (some x) o') :
    ∃ more, o'.sent queue = o.sent queue ++ more ∧ completions more = [] ∧
      (x = .ok () → .disconnected p none ∈ more) := by
  rcases attends_cancel hs h with ⟨-, hr, rfl⟩ | ⟨-, handle, o₁, idle, h⟩
  · obtain rfl := Option.some.inj hr
    exact ⟨[], by simp, rfl, nofun⟩
  · obtain ⟨more, sent, unrelated⟩ :=
      idle.adds_quietly ((hs.unlisten p.id).note _) id (fun _ => id) queue
    have same : ((o.unlisten p.id).note (.asked (.cancelConnection p) (.disconnect handle))).sent
        queue = o.sent queue := by
      simp [Office.sent_note, Incident.sent?]
    rw [same] at sent
    rcases h with ⟨rfl, hr⟩ | ⟨rfl, -⟩
    · exact ⟨more, sent, unrelated, fun hx => absurd (congrArg some hx) hr⟩
    · refine ⟨more ++ [.disconnected p none], ?_, ?_, by simp⟩
      · have opened : o₁.tables.events = some queue := by
          rw [idle.events_eq, Office.tables_note, Office.tables_unlisten]
          exact hq
        rw [Office.sent_emit opened, sent, List.append_assoc]
      · rw [completions_append, unrelated]
        rfl

end Adapter

namespace Cycle.Controller

open Program Adapter Platform

variable {plan : Plan} {owner : Handle → String} {queue : Session.Queue} {turns : List Turn}
  {o o₁ o₂ : Office String} {c c' : Controller} {e : Event} {calls : List (Call Cycle.effects)}
  {p : Peripheral}

/-! ## The balance of a turn -/

/-- The peripheral that a connection is requested to and not yet completed. -/
def requested (c : Controller) : List Peripheral :=
  if c.connection = .connecting then c.target.toList else []

theorem requested_of_ne (h : c.connection ≠ .connecting) : c.requested = [] := if_neg h

theorem mem_requested :
    p ∈ c.requested ↔ c.connection = .connecting ∧ c.target = some p := by
  unfold requested
  split <;> simp_all

theorem requested_eq_of_mem (h : p ∈ c.requested) : c.requested = [p] := by
  obtain ⟨hc, ht⟩ := mem_requested.mp h
  rw [requested, if_pos hc, ht]
  rfl

theorem requested_scanned (h : c.requested = []) (x : Except Error Unit) :
    (c.scanned x).requested = [] := by
  cases x with
  | ok done => rfl
  | error fault => exact h

/-- The completion of a requested connection is not passed over. -/
theorem completed?_of_passesOver (hp : c.passesOver plan e)
    (he : ∀ p, e.completed? = some p → p ∈ c.requested) : e.completed? = none := by
  cases e with
  | connected p error =>
    obtain ⟨hc, ht⟩ := mem_requested.mp (he p rfl)
    have awaits : c.awaits p := by
      simp [awaits, Connection.awaitsConnection, hc, isTarget_iff.mpr ⟨p, ht, rfl⟩]
    simp [passesOver, awaits] at hp
  | _ => rfl

theorem adds_of_leads (h : Leads (Serves owner) o calls o₁) (hs : o.IsStaffed owner)
    (hw : ∀ call ∈ calls, Asks IsWithin call) (hc : ∀ r ∈ requests calls, r.connected? = none)
    (queue : Session.Queue) :
    ∃ more, o₁.sent queue = o.sent queue ++ more ∧ completions more = [] := by
  refine (unfolds_of_leads (K := fun r => IsWithin r ∧ r.connected? = none) h hs ?_).adds_quietly
    hs (fun h => h.1.1 rfl) (fun p h => nomatch h.2) queue
  intro call hm r hr
  exact ⟨hw call hm r hr, hc r (List.mem_filterMap.mpr ⟨call, hm, hr⟩)⟩

/-- A connection that is requested and accepted is completed once. -/
theorem adds_of_selected {x : Except Error Unit}
    (hl : Leads (Serves owner) o₁ [asked .stopScanning x, asked (.connect p) (.ok ())] o₂)
    (hs : o₁.IsStaffed owner) (hq : o₁.tables.events = some queue)
    (hw : ∀ call ∈ [asked .stopScanning x, asked (.connect p) (.ok ())], Asks IsWithin call) :
    ∃ more, o₂.sent queue = o₁.sent queue ++ more ∧ completions more = [p] := by
  obtain ⟨o₃, stopped, rest⟩ := leads_cons_iff.mp hl
  obtain ⟨o₄, connected, rest⟩ := leads_cons_iff.mp rest
  obtain rfl := leads_nil_iff.mp rest
  have first : Leads (Serves owner) o₁ [asked .stopScanning x] o₃ := .cons stopped (.nil o₃)
  have within : ∀ call ∈ [asked .stopScanning x], Asks IsWithin call :=
    List.forall_mem_singleton.mpr (hw _ (.head _))
  have unfolds := unfolds_of_leads first hs within
  obtain ⟨more, sent, quiet⟩ :=
    adds_of_leads first hs within (by simp [Session.Request.connected?]) queue
  obtain ⟨last, sent', completes⟩ := adds_of_connect (unfolds.isStaffed hs)
    (opened_of_within unfolds hq) (serves_session_iff.mp connected)
  refine ⟨more ++ last, by rw [sent', sent, List.append_assoc], ?_⟩
  rw [completions_append, quiet, completes, List.nil_append]

/-- One that is not accepted is not completed. -/
theorem adds_of_refused {x y : Except Error Unit} {fault : Error}
    (hl : Leads (Serves owner) o₁
      [asked .stopScanning x, asked (.connect p) (.error fault), asked (.scan []) y] o₂)
    (hs : o₁.IsStaffed owner)
    (hw : ∀ call ∈ [asked .stopScanning x, asked (.connect p) (.error fault),
      asked (.scan []) y], Asks IsWithin call) (queue : Session.Queue) :
    ∃ more, o₂.sent queue = o₁.sent queue ++ more ∧ completions more = [] := by
  obtain ⟨o₃, stopped, rest⟩ := leads_cons_iff.mp hl
  obtain ⟨o₄, connected, searched⟩ := leads_cons_iff.mp rest
  obtain ⟨first, others⟩ := List.forall_mem_cons.mp hw
  obtain rfl := eq_of_connect_refused ((stopped.unfolds hs first).isStaffed hs)
    (serves_session_iff.mp connected)
  have around : Leads (Serves owner) o₁ [asked .stopScanning x, asked (.scan []) y] o₂ :=
    .cons stopped searched
  refine adds_of_leads around hs ?_ (by simp [Session.Request.connected?]) queue
  exact List.forall_mem_cons.mpr ⟨first, (List.forall_mem_cons.mp others).2⟩

/-- In a turn that does not end the cycle, the completion that is handled and the connection that is
then requested are, together, the one that was requested and the ones that have been completed. -/
theorem Step.balance (h : c.Step plan e calls c')
    (hl : Leads (Serves owner) o₁ calls o₂) (hs : o₁.IsStaffed owner)
    (hw : ∀ call ∈ calls, Asks IsWithin call) (hq : o₁.tables.events = some queue)
    (he : ∀ p, e.completed? = some p → p ∈ c.requested) (hd : c'.connection ≠ .disconnected) :
    ∃ more, o₂.sent queue = o₁.sent queue ++ more ∧
      e.completed?.toList ++ c'.requested = c.requested ++ completions more := by
  have balances {ps : List Peripheral}
      (hc : ∃ more, o₂.sent queue = o₁.sent queue ++ more ∧ completions more = ps)
      (same : e.completed?.toList ++ c'.requested = c.requested ++ ps) :
      ∃ more, o₂.sent queue = o₁.sent queue ++ more ∧
        e.completed?.toList ++ c'.requested = c.requested ++ completions more := by
    obtain ⟨more, sent, rfl⟩ := hc
    exact ⟨more, sent, same⟩
  -- the turns in which no connection is requested complete none
  have quiet (hn : ∀ r ∈ requests calls, r.connected? = none) := adds_of_leads hl hs hw hn queue
  cases h with
  | passedOver h =>
    refine balances (quiet (by simp)) ?_
    rw [completed?_of_passesOver h he, List.append_nil]
    rfl
  | searched h x =>
    have idle : c.requested = [] := requested_of_ne (by rcases h with h | h <;> simp [h])
    refine balances (quiet (by simp [Session.Request.connected?])) ?_
    rw [requested_scanned idle, idle]
    rfl
  | paused _ x =>
    refine balances (quiet (by simp [Session.Request.connected?])) ?_
    rw [List.append_nil]
    rfl
  | selected h x =>
    have idle : c.requested = [] := requested_of_ne (by simp [connection_of_selects h])
    refine balances (adds_of_selected hl hs hq hw) ?_
    rw [idle]
    rfl
  | refused h x fault y =>
    have idle : c.requested = [] := requested_of_ne (by simp [connection_of_selects h])
    refine balances (adds_of_refused hl hs hw queue) ?_
    rw [requested_scanned rfl, idle]
    rfl
  | @failed p text h x =>
    refine balances (quiet (by simp [Session.Request.connected?])) ?_
    rw [requested_scanned (by simp [requested]), requested_eq_of_mem (he p rfl)]
    rfl
  | @processed p walk h hwalk x =>
    -- processing a peripheral and releasing it requests no connection
    have goesOn := (isConnection_process hwalk x).goesOnWith
    refine balances (quiet fun r hr => (goesOn r hr).1) ?_
    rw [requested_eq_of_mem (he p rfl)]
    rfl
  | finished => exact absurd rfl hd

/-- A turn that leaves the controller connected has asked to release the peripheral, or it was
connected before and has not heard that the peripheral is gone. -/
theorem Step.released (h : c.Step plan e calls c') (hc : c.Coherent)
    (hl : Leads (Serves owner) o₁ calls o₂) (hs : o₁.IsStaffed owner)
    (hw : ∀ call ∈ calls, Asks IsWithin call) (hq : o₁.tables.events = some queue)
    (hd : c'.connection = .connected) (ht : c'.target = some p) :
    (c.connection = .connected ∧ c.target = some p ∧ ∀ error, e ≠ .disconnected p error) ∨
    ∃ x more, asked (.cancelConnection p) x ∈ calls ∧ o₂.sent queue = o₁.sent queue ++ more ∧
      (x = .ok () → .disconnected p none ∈ more) := by
  cases h with
  | passedOver h =>
    refine .inl ⟨hd, ht, ?_⟩
    rintro error rfl
    simp [passesOver, isLinkedTo, hd, isTarget_iff.mpr ⟨p, ht, rfl⟩] at h
  | searched h x =>
    rcases connection_scanned c x with hx | hx <;> rcases h with h | h <;> simp_all
  | paused _ x =>
    refine .inl ⟨hd, ht, fun error same => ?_⟩
    cases same
  | selected => cases hd
  | refused h x fault y =>
    have left := connection_scanned { c with connection := .connecting, target := none } y
    rcases left with hx | hx <;> simp [hx] at hd
  | @failed q text h x =>
    have before := (hc.connecting_of_awaits h).1
    rcases connection_scanned { c with target := none } x with hx | hx <;> simp_all
  | @processed q walk h hwalk x =>
    obtain rfl := Option.some.inj ht
    obtain ⟨o₃, walked, rest⟩ := leads_append_iff.mp hl
    obtain ⟨o₄, cancelled, rest⟩ := leads_cons_iff.mp rest
    obtain rfl := leads_nil_iff.mp rest
    have unfolds := unfolds_of_leads walked hs fun call hm => hw call (List.mem_append_left _ hm)
    obtain ⟨more, sent⟩ := grows_of_within unfolds hs queue
    obtain ⟨last, sent', -, gone⟩ := adds_of_cancel (unfolds.isStaffed hs)
      (opened_of_within unfolds hq) (serves_session_iff.mp cancelled)
    refine .inr ⟨x, more ++ last, by simp, by rw [sent', sent, List.append_assoc], fun hx => ?_⟩
    exact List.mem_append_right _ (gone hx)
  | finished => cases hd

/-! ## Between two turns -/

/-- The events of a queue that are still to be handled after these turns. -/
def unhandled (o : Office String) (queue : Session.Queue) (turns : List Turn) : List Event :=
  (o.sent queue).drop turns.length

theorem unhandled_append {more : List Event} (hn : turns.length ≤ (o₁.sent queue).length)
    (hm : o₂.sent queue = o₁.sent queue ++ more) :
    unhandled o₂ queue turns = unhandled o₁ queue turns ++ more := by
  rw [unhandled, hm, List.drop_append_of_le_length hn, unhandled]

/-- The event that is handled is the first one. -/
theorem unhandled_eq_cons {u : Turn} (he : (o.sent queue)[turns.length]? = some e) :
    unhandled o queue turns = e :: unhandled o queue (turns ++ [u]) := by
  obtain ⟨hn, rfl⟩ := List.getElem?_eq_some_iff.mp he
  rw [unhandled, List.drop_eq_getElem_cons hn, unhandled, List.length_append]
  rfl

/-- What waits for a controller between two turns. -/
structure Awaits (queue : Session.Queue) (turns : List Turn) (c : Controller)
    (o : Office String) : Prop where
  opened : o.tables.events = some queue
  handled : turns.length ≤ (o.sent queue).length
  due (h : c.connection ≠ .disconnected) : completions (unhandled o queue turns) = c.requested
  released (h : c.connection = .connected) {p : Peripheral} (ht : c.target = some p) :
    .disconnected p none ∈ unhandled o queue turns ∨
      ∃ u ∈ turns, ∃ fault, asked (.cancelConnection p) (.error fault) ∈ u.calls

/-- Other events may be sent meanwhile. -/
theorem Awaits.append {more : List Event} (h : Awaits queue turns c o₁)
    (hm : o₂.sent queue = o₁.sent queue ++ more) (hc : completions more = [])
    (hq : o₂.tables.events = some queue) : Awaits queue turns c o₂ where
  opened := hq
  handled := by
    rw [hm, List.length_append]
    exact Nat.le_add_right_of_le h.handled
  due hd := by rw [unhandled_append h.handled hm, completions_append, hc, h.due hd, List.append_nil]
  released hd p ht := by
    rw [unhandled_append h.handled hm]
    exact (h.released hd ht).imp (List.mem_append_left _) id

theorem Awaits.snoc (h : Awaits queue turns c o₁) (hc : c.Coherent)
    (hs : o₁.IsStaffed owner) (he : (o₁.sent queue)[turns.length]? = some e)
    (ht : (c.handle plan e).Evolves (Serves owner) o₁ calls (some c') o₂) :
    Awaits queue (turns ++ [⟨c, e, calls, c'⟩]) c' o₂ := by
  have step := runs_handle_iff.mp ht.runs
  have within := isWithin_of_evolves ht
  have unfolds := unfolds_of_leads ht.leads hs within
  obtain ⟨more, sent⟩ := grows_of_within unfolds hs queue
  have first := unhandled_eq_cons (u := ⟨c, e, calls, c'⟩) he
  have length : (turns ++ [(⟨c, e, calls, c'⟩ : Turn)]).length ≤ (o₁.sent queue).length := by
    obtain ⟨hn, -⟩ := List.getElem?_eq_some_iff.mp he
    rw [List.length_append]
    exact hn
  have rest := unhandled_append length sent
  constructor
  case opened => exact opened_of_within unfolds h.opened
  case handled =>
    refine Nat.le_trans length ?_
    rw [sent, List.length_append]
    exact Nat.le_add_right _ _
  case due =>
    intro hd
    have before : c.connection ≠ .disconnected := fun done =>
      hd (((History.nil.snoc ht.runs).connected_or_disconnected hc).2 done)
    have due := h.due before
    rw [first, completions_cons] at due
    have own : ∀ p, e.completed? = some p → p ∈ c.requested := by
      intro p hp
      rw [← due, hp]
      exact List.mem_append_left _ (List.mem_singleton_self p)
    obtain ⟨more', sent', balance⟩ := step.balance ht.leads hs within h.opened own hd
    obtain rfl := List.append_cancel_left (sent.symm.trans sent')
    rw [← due, List.append_assoc] at balance
    rw [rest, completions_append, List.append_cancel_left balance]
  case released =>
    intro hd p htarget
    rw [rest]
    rcases step.released hc ht.leads hs within h.opened hd htarget with
      ⟨connected, target, passed⟩ | ⟨x, more', asks, sent', gone⟩
    · rcases h.released connected target with waits | ⟨u, hu, failed⟩
      · rw [first] at waits
        refine .inl (List.mem_append_left _ ((List.mem_cons.mp waits).resolve_left ?_))
        exact fun same => passed none same.symm
      · exact .inr ⟨u, List.mem_append_left _ hu, failed⟩
    · obtain rfl := List.append_cancel_left (sent.symm.trans sent')
      cases x with
      | ok done => exact .inl (List.mem_append_right _ (gone rfl))
      | error fault =>
        exact .inr ⟨_, List.mem_append_right _ (List.mem_singleton_self _), fault, asks⟩

theorem Follows.awaits (h : Follows owner plan queue o turns c o₁) (hs : o.IsStaffed owner)
    (ha : Awaits queue [] {} o) : Awaits queue turns c o₁ := by
  induction h with
  | begun => exact ha
  | worked before hr ih =>
    have staffed := (before.unfolds hs).isStaffed hs
    have idle : Idles owner _ _ := .single (hr.advances staffed)
    obtain ⟨more, sent, quiet⟩ := Unfolds.adds_quietly idle staffed id (fun _ => id) queue
    exact ih.append sent quiet (idle.events_eq.trans ih.opened)
  | handled before he ht ih =>
    exact ih.snoc before.history.coherent ((before.unfolds hs).isStaffed hs) he ht

/-- A controller that follows the queue of a session never waits for a completion that was not sent:
while it is connecting, the completion for the selected peripheral is in the queue, once, and once
it is connected, the peripheral is reported as gone in the queue, or it could not be released. -/
theorem completions_sent {o₀ : Office String} (h : Elapses owner (fun _ => True) {} o₀)
    (hstart : Attends owner .start (answer .start) o₀ (some (.ok queue)) o)
    (hf : Follows owner plan queue o turns c o₁) (ht : c.target = some p) :
    (c.connection = .connecting → completions (unhandled o₁ queue turns) = [p]) ∧
    (c.connection = .connected → .disconnected p none ∈ unhandled o₁ queue turns ∨
      ∃ u ∈ turns, ∃ fault, asked (.cancelConnection p) (.error fault) ∈ u.calls) := by
  have staffed := h.isStaffed Office.isStaffed_new
  have staffed' : o.IsStaffed owner :=
    (attends_answer (K := fun _ => True) trivial staffed hstart).isStaffed staffed
  have started : Awaits queue [] {} o := by
    have numbered := (h.unfolds Office.isStaffed_new).isNumbered Office.isStaffed_new
      Office.isNumbered_new
    obtain ⟨o₂, stream, state, -, rfl, rfl, only⟩ := opens_of_started staffed numbered hstart
    refine ⟨by rw [Office.tables_start], Nat.zero_le _, fun _ => ?_, nofun⟩
    rw [unhandled, only]
    rfl
  have awaits := hf.awaits staffed' started
  refine ⟨fun connecting => ?_, fun connected => awaits.released connected ht⟩
  rw [awaits.due (by simp [connecting])]
  exact requested_eq_of_mem (mem_requested.mpr ⟨connecting, ht⟩)

/-- A new session completes the connection to the one peripheral that there is, and reports it as
gone when it is released, also if nothing can be discovered of it. -/
theorem completions_sent_nameless :
    ∃ o o₁ o₂ turns more,
      Follows (fun _ => "dev-1") .bare (0 : Nat) o turns
        { connection := .connecting, target := some (describe "dev-1" {}) } o₁ ∧
      completions (unhandled o₁ (0 : Nat) turns) = [describe "dev-1" {}] ∧
      Follows (fun _ => "dev-1") .bare (0 : Nat) o more
        { connection := .connected, target := some (describe "dev-1" {}) } o₂ ∧
      (.disconnected (describe "dev-1" {}) none ∈ unhandled o₂ (0 : Nat) more ∨
        ∃ u ∈ more, ∃ fault,
          asked (.cancelConnection (describe "dev-1" {})) (.error fault) ∈ u.calls) := by
  let owner : Handle → String := fun _ => "dev-1"
  let p : Peripheral := describe "dev-1" {}
  obtain ⟨o, o₁, turns, hstart, connecting, -, waits, opened, known⟩ :=
    exists_follows_connecting owner .bare (0 : Nat) {} (p := p) rfl (by decide)
  obtain ⟨fault, negotiate⟩ : ∃ fault, Attends owner (.setMtu p Plan.bare.mtu)
      (answer (.setMtu p Plan.bare.mtu)) o₁ (some (.error fault)) o₁ :=
    ⟨_, attends_done_iff.mpr ⟨rfl, rfl⟩⟩
  let o₂ := (o₁.note (.asked (.discoverServices p) (.discoverServices (0 : Nat)))).note
    (.answered (.discoverServices p) (.discoverServices (0 : Nat)) (.error .notConnected))
  have discover : Attends owner (.discoverServices p) (answer (.discoverServices p)) o₁
      (some (.error (.bluetooth .notConnected))) o₂ := by
    refine attends_tables_bind_iff.mpr ?_
    rw [known]
    exact attends_ask_bind_iff.mpr
      (.inr ⟨.error .notConnected, _, .refl, attends_done_iff.mpr ⟨rfl, rfl⟩⟩)
  obtain ⟨o₃, cancel, -⟩ := exists_cancelled (o := o₂) (p := p) owner known opened
  have process : (({ connection := .connecting, target := some p } : Controller).handle .bare
      (.connected p none)).Evolves (Serves owner) o₁
      [asked (.setMtu p Plan.bare.mtu) (.error fault),
        asked (.discoverServices p) (.error (.bluetooth .notConnected)),
        asked (.cancelConnection p) (.ok ())]
      (some { connection := .connected, target := some p }) o₃ := by
    show (onConnected .bare _ p none).Evolves _ _ _ _ _
    rw [onConnected, if_pos (by decide)]
    refine .asked (.attended negotiate) (.asked (.attended discover) ?_)
    exact .asked (.attended cancel) (.done _ o₃)
  have first : (o₁.sent (0 : Nat))[turns.length]? = some (.connected p none) := by
    rw [← List.head?_drop, waits]
    rfl
  have connected := connecting.handled first process
  exact ⟨o, o₁, o₃, turns, _, connecting, (completions_sent .refl hstart connecting rfl).1 rfl,
    connected, (completions_sent .refl hstart connected rfl).2 rfl⟩

end Cycle.Controller
end GattSync
