import GattSync.Proofs.Cycle.Walk
import GattSync.Resync.Phase

/-!
# The span of a cycle

What a cycle of the resync loop does with its session and its publisher (`IsSpan`): it starts the
session, and when that fails it publishes and is over. Otherwise it stops the session once, after
everything else that it asks of it, and publishes once, at the point of its configuration.

The events may come to an end, the target may disconnect, or the deadline may pass while the cycle
waits for any answer; the span is the same in all cases. So what is seen of a loop is one span after
the other, and a beginning of a span while a cycle goes on (`cycle_spans`).
-/

namespace GattSync

namespace Cycle

open Program

/-- The operation is neither the start nor the stop of a session, nor a publication. -/
def Effect.IsInner : Effect → Prop
  | .session r => r ≠ .start ∧ r ≠ .stop
  | .publish => False
  | _ => True

theorem Effect.IsAccess.isInner {p : Peripheral} {effect : Effect} (h : effect.IsAccess p) :
    effect.IsInner := by
  cases effect with
  | session r =>
    constructor
    · rintro rfl
      exact h
    · rintro rfl
      exact h
  | publish => exact h
  | _ => trivial

section Controller

variable (plan : Plan) (c : Controller)

theorem uses_ask {r : Session.Request String} (h : r ≠ .start ∧ r ≠ .stop) :
    (Cycle.ask r).Uses Effect.IsInner := uses_perform.mpr h

theorem uses_process (p : Peripheral) : (plan.process p).Uses Effect.IsInner := by
  refine Uses.bind (uses_ask ⟨nofun, nofun⟩) fun _ => ?_
  refine Uses.bind (uses_ask ⟨nofun, nofun⟩) fun found => ?_
  cases found with
  | error e => trivial
  | ok services =>
    refine Uses.bind ((uses_walk plan p services).mono fun _ h => h.isInner) fun goesOn => ?_
    cases goesOn with
    | true => exact uses_perform.mpr trivial
    | false => trivial

theorem uses_startScanning : c.startScanning.Uses Effect.IsInner := by
  refine Uses.bind (uses_ask ⟨nofun, nofun⟩) fun answer => ?_
  cases answer <;> trivial

/-- Whatever a controller is told, it leaves the session's start and stop, and the publication, to
its cycle. -/
theorem uses_handle (e : Event) : (c.handle plan e).Uses Effect.IsInner := by
  cases e with
  | adapterState state =>
    show (c.onAdapterState state).Uses _
    unfold Controller.onAdapterState
    split
    · split
      · exact uses_startScanning c
      · exact uses_startScanning c
      · trivial
    · exact Uses.bind (uses_ask ⟨nofun, nofun⟩) fun _ => trivial
  | discovered p advertisement rssi =>
    show (c.onDiscovered plan p advertisement).Uses _
    unfold Controller.onDiscovered
    split
    · refine Uses.bind (uses_ask ⟨nofun, nofun⟩) fun _ => ?_
      refine Uses.bind (uses_ask ⟨nofun, nofun⟩) fun answer => ?_
      cases answer with
      | ok done => trivial
      | error fault => exact uses_startScanning _
    · trivial
  | connected p error =>
    show (c.onConnected plan p error).Uses _
    unfold Controller.onConnected
    split
    · cases error with
      | some text => exact uses_startScanning _
      | none =>
        refine Uses.bind (uses_process plan p) fun _ => ?_
        exact Uses.bind (uses_ask ⟨nofun, nofun⟩) fun _ => trivial
    · trivial
  | disconnected p text =>
    show (c.onDisconnected p).Uses _
    unfold Controller.onDisconnected
    split
    · split
      · exact Uses.bind (uses_perform.mpr trivial) fun _ => trivial
      · trivial
    · trivial

end Controller

end Cycle

namespace Resync

open Program

variable {s : Settings} {ph : Phase} {calls : List (Call effects)}

/-! ## What is seen of a cycle -/

/-- A request to the session or a publication. A request has no answer when it was given up before
there was one. -/
inductive Mark where
  | request (r : Session.Request String) (x : Option r.Answer)
  | publication

/-- What is seen of a call. -/
def mark? : Call effects → Option Mark
  | ⟨.cycle _ (.session r), x⟩ => some (.request r x)
  | ⟨.cycle _ .publish, _⟩ => some .publication
  | _ => none

/-- What is seen of calls, in order. -/
def marks (calls : List (Call effects)) : List Mark := calls.filterMap mark?

/-- A request other than the start and the stop of the session. -/
def Mark.IsInner : Mark → Prop
  | .request r _ => r ≠ .start ∧ r ≠ .stop
  | .publication => False

/-- A session that has been stopped, with the publication that may be due then. -/
inductive IsClosing : PublishPoint → List Mark → Prop
  | onStart (x : Except Error Unit) : IsClosing .onStart [.request .stop (some x)]
  | afterCycle (x : Except Error Unit) :
    IsClosing .afterCycle [.request .stop (some x), .publication]

/-- What is seen of a whole cycle. -/
inductive IsSpan : PublishPoint → List Mark → Prop
  | unstarted (point : PublishPoint) (fault : Error) :
    IsSpan point [.request .start (some (.error fault)), .publication]
  | onStart {inner closing : List Mark} (queue : Session.Queue) (hi : ∀ m ∈ inner, m.IsInner)
      (hc : IsClosing .onStart closing) :
    IsSpan .onStart (.request .start (some (.ok queue)) :: .publication :: (inner ++ closing))
  | afterCycle {inner closing : List Mark} (queue : Session.Queue) (hi : ∀ m ∈ inner, m.IsInner)
      (hc : IsClosing .afterCycle closing) :
    IsSpan .afterCycle (.request .start (some (.ok queue)) :: (inner ++ closing))

/-! ## What is seen of a phase -/

@[simp] theorem marks_append (first rest : List (Call effects)) :
    marks (first ++ rest) = marks first ++ marks rest := List.filterMap_append

/-- The operation is not seen, or it is seen as neither start nor stop nor publication. -/
def Effect.IsInner : Effect → Prop
  | .cycle _ effect => effect.IsInner
  | _ => True

theorem isInner_of_mem_marks (h : ∀ call ∈ calls, Effect.IsInner call.1) :
    ∀ m ∈ marks calls, m.IsInner := by
  intro m hm
  obtain ⟨⟨op, x⟩, hc, hx⟩ := List.mem_filterMap.mp hm
  have inner := h _ hc
  cases op with
  | cycle store effect =>
    cases effect with
    | session r =>
      obtain rfl := Option.some.inj hx
      exact inner
    | publish => exact inner.elim
    | _ => cases hx
  | _ => cases hx

theorem uses_within {α : Type} (store : Status.Store) {p : Cycle.Prog α}
    (h : p.Uses Cycle.Effect.IsInner) : (within store p).Uses Effect.IsInner :=
  h.interpret fun _ ho => uses_perform.mpr ho

/-- While a cycle listens, it follows its controller. -/
theorem uses_listening (s : Settings) (ticker : Ticker) (store : Status.Store)
    (queue : Session.Queue) (deadline : Duration) (c : Cycle.Controller) :
    (Phase.run s (.listening ticker store queue deadline c)).Uses Effect.IsInner := by
  refine Uses.bind (uses_perform.mpr trivial) fun event? => ?_
  cases event? with
  | none => exact Uses.bind (uses_perform.mpr trivial) fun _ => trivial
  | some event =>
    refine Uses.bind (uses_within store (Cycle.uses_handle s.plan c event)) fun c' => ?_
    split
    · exact Uses.bind (uses_perform.mpr trivial) fun _ => trivial
    · trivial

/-! ## Phase by phase -/

/-- A cycle is opened by the start of the session. A publication follows at once if it is due then,
or if the session could not be started. -/
theorem runs_opening {store : Status.Store} {point : PublishPoint} {queue? : Option Session.Queue}
    (h : (within store (Cycle.opening point)).Runs calls queue?) :
    (∃ fault, marks calls = [.request .start (some (.error fault)), .publication] ∧
      queue? = none) ∨
    ∃ queue, marks calls = .request .start (some (.ok queue)) ::
        (if point = .onStart then [.publication] else []) ∧ queue? = some queue := by
  obtain ⟨x, rest, rfl, ha⟩ := runs_perform_bind_iff.mp h
  cases x with
  | error fault =>
    obtain ⟨_, _, rfl, hd⟩ := runs_perform_bind_iff.mp ha
    obtain ⟨rfl, rfl⟩ := runs_done_iff.mp hd
    exact .inl ⟨fault, rfl, rfl⟩
  | ok queue =>
    cases point with
    | onStart =>
      obtain ⟨_, _, rfl, hd⟩ := runs_perform_bind_iff.mp ha
      obtain ⟨rfl, rfl⟩ := runs_done_iff.mp hd
      exact .inr ⟨queue, rfl, rfl⟩
    | afterCycle =>
      obtain ⟨rfl, rfl⟩ := runs_done_iff.mp ha
      exact .inr ⟨queue, rfl, rfl⟩

theorem runs_closing {store : Status.Store} {point : PublishPoint}
    (h : (within store (Cycle.closing point)).Runs calls ()) : IsClosing point (marks calls) := by
  obtain ⟨x, rest, rfl, ha⟩ := runs_perform_bind_iff.mp h
  cases point with
  | onStart =>
    obtain ⟨rfl, -⟩ := runs_done_iff.mp ha
    exact .onStart x
  | afterCycle =>
    obtain ⟨_, _, rfl, hd⟩ := runs_perform_bind_iff.mp ha
    obtain ⟨rfl, -⟩ := runs_done_iff.mp hd
    exact .afterCycle x

namespace Phase

variable {ticker : Ticker} {store : Status.Store} {queue : Session.Queue} {deadline : Duration}
  {c : Cycle.Controller} {next : Option Phase}

theorem runs_launched (s : Settings) (now : Duration) :
    (Phase.run s .launched).Runs [⟨.now, some now⟩]
      ((Ticker.start? now s.config.syncInterval).map .begun) := by
  refine runs_perform_bind_iff.mpr ⟨now, [], rfl, ?_⟩
  cases Ticker.start? now s.config.syncInterval <;> exact .done _

theorem run_launched (h : (Phase.run s .launched).Runs calls next) :
    marks calls = [] ∧ ∀ ph ∈ next, ∃ ticker, ph = .begun ticker := by
  obtain ⟨now, rest, rfl, hr⟩ := runs_perform_bind_iff.mp h
  split at hr
  · obtain ⟨rfl, rfl⟩ := runs_done_iff.mp hr
    exact ⟨rfl, fun ph hp => ⟨_, (Option.some.inj hp).symm⟩⟩
  · obtain ⟨rfl, rfl⟩ := runs_done_iff.mp hr
    exact ⟨rfl, nofun⟩

theorem run_begun (h : (Phase.run s (.begun ticker)).Runs calls next) :
    (∃ fault, marks calls = [.request .start (some (.error fault)), .publication] ∧
      next = some (.resting ticker)) ∨
    ∃ queue store deadline, marks calls = .request .start (some (.ok queue)) ::
        (if s.config.publishPoint = .onStart then [.publication] else []) ∧
      next = some (.listening ticker store queue deadline {}) := by
  obtain ⟨last, _, rfl, h₁⟩ := runs_perform_bind_iff.mp h
  obtain ⟨store, _, rfl, h₂⟩ := runs_perform_bind_iff.mp h₁
  obtain ⟨opening, _, rest, rfl, ho, hl⟩ := runs_bind_iff.mp h₂
  show (∃ fault, marks (opening ++ rest) = _ ∧ _) ∨ ∃ queue store deadline,
    marks (opening ++ rest) = _ ∧ _
  rcases runs_opening ho with ⟨fault, hm, rfl⟩ | ⟨queue, hm, rfl⟩
  · obtain ⟨rfl, rfl⟩ := runs_done_iff.mp hl
    rw [List.append_nil]
    exact .inl ⟨fault, hm, rfl⟩
  · obtain ⟨now, _, rfl, hd⟩ := runs_perform_bind_iff.mp hl
    obtain ⟨rfl, rfl⟩ := runs_done_iff.mp hd
    have unseen : marks [⟨.now, some now⟩] = [] := rfl
    rw [marks_append, unseen, List.append_nil]
    exact .inr ⟨queue, store, _, hm, rfl⟩

theorem run_listening
    (h : (Phase.run s (.listening ticker store queue deadline c)).Runs calls next) :
    calls ≠ [] ∧ (next = some (.closing ticker store) ∨
      ∃ c', next = some (.listening ticker store queue deadline c')) := by
  obtain ⟨event?, _, rfl, h₁⟩ := runs_perform_bind_iff.mp h
  refine ⟨List.cons_ne_nil _ _, ?_⟩
  cases event? with
  | none =>
    obtain ⟨_, _, rfl, hd⟩ := runs_perform_bind_iff.mp h₁
    exact .inl (runs_done_iff.mp hd).2
  | some event =>
    obtain ⟨_, c', rest, rfl, -, h₂⟩ := runs_bind_iff.mp h₁
    split at h₂
    · obtain ⟨_, _, rfl, hd⟩ := runs_perform_bind_iff.mp h₂
      exact .inl (runs_done_iff.mp hd).2
    · exact .inr ⟨c', (runs_done_iff.mp h₂).2⟩

theorem run_expired (h : (Phase.run s (.expired ticker store queue)).Runs calls next) :
    marks calls = [] ∧ next = some (.closing ticker store) := by
  obtain ⟨_, _, rfl, hd⟩ := runs_perform_bind_iff.mp h
  obtain ⟨rfl, rfl⟩ := runs_done_iff.mp hd
  exact ⟨rfl, rfl⟩

theorem run_closing (h : (Phase.run s (.closing ticker store)).Runs calls next) :
    IsClosing s.config.publishPoint (marks calls) ∧ next = some (.resting ticker) := by
  obtain ⟨closing, _, _, rfl, hc, hd⟩ := runs_bind_iff.mp h
  obtain ⟨rfl, rfl⟩ := runs_done_iff.mp hd
  rw [List.append_nil]
  exact ⟨runs_closing hc, rfl⟩

theorem run_resting (h : (Phase.run s (.resting ticker)).Runs calls next) :
    marks calls = [] ∧ ∀ ph ∈ next, ∃ ticker, ph = .begun ticker := by
  obtain ⟨stops, rest, rfl, hr⟩ := runs_perform_bind_iff.mp h
  cases stops with
  | true =>
    obtain ⟨rfl, rfl⟩ := runs_done_iff.mp hr
    exact ⟨rfl, nofun⟩
  | false =>
    obtain ⟨now, rest, rfl, hd⟩ := runs_perform_bind_iff.mp hr
    obtain ⟨rfl, rfl⟩ := runs_done_iff.mp hd
    exact ⟨rfl, fun ph hp => ⟨_, (Option.some.inj hp).symm⟩⟩

/-- A phase comes to its end, or it is given up at its deadline and another one takes its place. -/
inductive Step (s : Settings) (ph : Phase) : List (Call effects) → Option Phase → Prop
  | run {calls : List (Call effects)} {next : Option Phase} (h : (ph.run s).Runs calls next) :
    Step s ph calls next
  | expire {calls : List (Call effects)} {deadline : Duration} {next : Phase}
      (hd : ph.expiry? = some (deadline, next)) (h : (ph.run s).Breaks calls) :
    Step s ph calls (some next)

/-- No cycle goes on in this phase. -/
def IsResting : Phase → Prop
  | .launched => True
  | .resting _ => True
  | _ => False

/-- What is to be seen from the beginning of this phase to the end of its cycle. -/
def Ahead (point : PublishPoint) : Phase → List Mark → Prop
  | .launched, ms => ms = []
  | .begun _, ms => IsSpan point ms
  | .listening _ _ _ _ _, ms =>
    ∃ inner closing, ms = inner ++ closing ∧ (∀ m ∈ inner, m.IsInner) ∧ IsClosing point closing
  | .expired _ _ _, ms => IsClosing point ms
  | .closing _ _, ms => IsClosing point ms
  | .resting _, ms => ms = []

theorem IsResting.ahead_iff (hr : ph.IsResting) {point : PublishPoint} {ms : List Mark} :
    ph.Ahead point ms ↔ ms = [] := by
  cases ph with
  | launched => exact Iff.rfl
  | resting ticker => exact Iff.rfl
  | _ => exact hr.elim

/-- Nothing is seen between two cycles. -/
theorem Step.of_isResting (h : ph.Step s calls next) (hr : ph.IsResting) :
    marks calls = [] ∧ ∀ ph ∈ next, ∃ ticker, ph = .begun ticker := by
  cases h with
  | expire hd _ =>
    cases ph with
    | listening => exact hr.elim
    | _ => cases hd
  | run h =>
    cases ph with
    | launched => exact run_launched h
    | resting ticker => exact run_resting h
    | _ => exact hr.elim

end Phase

theorem isSpan_started (point : PublishPoint) (queue : Session.Queue) {inner closing : List Mark}
    (hi : ∀ m ∈ inner, m.IsInner) (hc : IsClosing point closing) :
    IsSpan point (.request .start (some (.ok queue)) ::
      (if point = .onStart then [.publication] else []) ++ (inner ++ closing)) := by
  cases point with
  | onStart =>
    have span := IsSpan.onStart queue hi hc
    exact span
  | afterCycle =>
    have span := IsSpan.afterCycle queue hi hc
    exact span

namespace Phase

variable {next : Option Phase}

/-- What a phase of a cycle does, and what is to be seen from the next phase on, is what was to be
seen from the phase on. -/
theorem Step.ahead (h : ph.Step s calls next) (hr : ¬ ph.IsResting) :
    ∃ ph', next = some ph' ∧ ∀ ms, ph'.Ahead s.config.publishPoint ms →
      ph.Ahead s.config.publishPoint (marks calls ++ ms) := by
  cases ph with
  | launched => exact absurd trivial hr
  | begun ticker =>
    cases h with
    | expire hd _ => cases hd
    | run h =>
      rcases run_begun h with ⟨fault, hm, rfl⟩ | ⟨queue, store, deadline, hm, rfl⟩
      · refine ⟨_, rfl, fun ms hn => ?_⟩
        obtain rfl : ms = [] := hn
        rw [hm]
        exact .unstarted _ fault
      · refine ⟨_, rfl, ?_⟩
        rintro _ ⟨inner, closing, rfl, hi, hc⟩
        rw [hm]
        exact isSpan_started _ queue hi hc
  | listening ticker store queue deadline c =>
    have inner := uses_listening s ticker store queue deadline c
    cases h with
    | expire hd h =>
      obtain rfl := (Prod.mk.inj (Option.some.inj hd)).2
      refine ⟨_, rfl, fun ms hn => ?_⟩
      exact ⟨marks calls, ms, rfl, isInner_of_mem_marks (inner.of_breaks h), hn⟩
    | run h =>
      have hi := isInner_of_mem_marks (inner.of_runs h)
      rcases (run_listening h).2 with rfl | ⟨c', rfl⟩
      · exact ⟨_, rfl, fun ms hn => ⟨marks calls, ms, rfl, hi, hn⟩⟩
      · refine ⟨_, rfl, ?_⟩
        rintro _ ⟨more, closing, rfl, hm, hc⟩
        refine ⟨marks calls ++ more, closing, ?_, List.forall_mem_append.mpr ⟨hi, hm⟩, hc⟩
        exact (List.append_assoc _ _ _).symm
  | expired ticker store queue =>
    cases h with
    | expire hd _ => cases hd
    | run h =>
      obtain ⟨hm, rfl⟩ := run_expired h
      rw [hm]
      exact ⟨_, rfl, fun ms hn => hn⟩
  | closing ticker store =>
    cases h with
    | expire hd _ => cases hd
    | run h =>
      obtain ⟨hc, rfl⟩ := run_closing h
      refine ⟨_, rfl, fun ms hn => ?_⟩
      obtain rfl : ms = [] := hn
      rw [List.append_nil]
      exact hc
  | resting ticker => exact absurd trivial hr

/-! ## Cycles -/

/-- From this phase to the end of its cycle, these calls are made. -/
inductive Cycles (s : Settings) : Phase → List (Call effects) → Ticker → Prop
  | ended (ticker : Ticker) : Cycles s (.resting ticker) [] ticker
  | step {ph next : Phase} {calls rest : List (Call effects)} {ticker : Ticker}
      (hr : ¬ ph.IsResting) (ht : ph.Step s calls (some next)) (h : Cycles s next rest ticker) :
    Cycles s ph (calls ++ rest) ticker

theorem Cycles.ahead {ticker : Ticker} (h : ph.Cycles s calls ticker) :
    ph.Ahead s.config.publishPoint (marks calls) := by
  induction h with
  | ended ticker => rfl
  | step hr ht _ ih =>
    obtain ⟨_, hnext, ha⟩ := ht.ahead hr
    obtain rfl := Option.some.inj hnext
    rw [marks_append]
    exact ha _ ih

/-- From this phase on, the cycle comes to its end with the answers of this behaviour, and none of
the next so many calls is given up. -/
def Completes (s : Settings) (σ : Behaviour effects) (past : List (Call effects)) (n : Nat)
    (ph : Phase) : Prop :=
  ∃ calls ticker, ph.Cycles s calls ticker ∧ σ.Gives past calls ∧
    ∀ call ∈ calls.take n, call.2.isSome

section Completes

variable {σ : Behaviour effects} {past : List (Call effects)} {n : Nat} {ticker : Ticker}
  {store : Status.Store} {queue : Session.Queue}

theorem completes_resting : Completes s σ past n (.resting ticker) :=
  ⟨[], ticker, .ended ticker, trivial, by simp⟩

/-- It is enough to complete the cycle from the next phase on. -/
theorem Step.completes {next : Phase} (h : ph.Step s calls (some next)) (hr : ¬ ph.IsResting)
    (hg : σ.Gives past calls) (ha : ∀ call ∈ calls.take n, call.2.isSome)
    (hn : next.Completes s σ (past ++ calls) (n - calls.length)) : ph.Completes s σ past n := by
  obtain ⟨rest, ticker, hc, hgr, har⟩ := hn
  refine ⟨calls ++ rest, ticker, .step hr h hc, Behaviour.gives_append.mpr ⟨hg, hgr⟩, ?_⟩
  rw [List.take_append]
  exact List.forall_mem_append.mpr ⟨ha, har⟩

theorem completes_of_runs {next : Phase} (h : (ph.run s).Runs calls (some next))
    (hr : ¬ ph.IsResting) (hg : σ.Gives past calls)
    (hn : next.Completes s σ (past ++ calls) (n - calls.length)) : ph.Completes s σ past n :=
  (Step.run h).completes hr hg (fun _ hm => h.isSome_of_mem _ (List.mem_of_mem_take hm)) hn

theorem completes_closing : Completes s σ past n (.closing ticker store) := by
  obtain ⟨calls, _, h, hg⟩ := exists_runs σ past (Phase.run s (.closing ticker store))
  obtain ⟨-, rfl⟩ := run_closing h
  exact completes_of_runs h nofun hg completes_resting

theorem completes_expired : Completes s σ past n (.expired ticker store queue) := by
  obtain ⟨calls, _, h, hg⟩ := exists_runs σ past (Phase.run s (.expired ticker store queue))
  obtain ⟨-, rfl⟩ := run_expired h
  exact completes_of_runs h nofun hg completes_closing

/-- Listening comes to an end by itself within the next so many calls, or it is given up after
them. -/
theorem completes_listening (deadline : Duration) (c : Cycle.Controller) :
    Completes s σ past n (.listening ticker store queue deadline c) := by
  induction n using Nat.strongRecOn generalizing past c with
  | ind n ih =>
    rcases exists_runs_or_breaks σ past n
      (Phase.run s (.listening ticker store queue deadline c)) with
      ⟨calls, _, h, hg, hl⟩ | ⟨calls, h, hg, hl⟩
    · obtain ⟨hne, rfl | ⟨c', rfl⟩⟩ := run_listening h
      · exact completes_of_runs h nofun hg completes_closing
      · have some_calls := List.length_pos_iff.mpr hne
        exact completes_of_runs h nofun hg (ih _ (by omega) c')
    · refine Step.completes (.expire rfl h) nofun hg ?_ completes_expired
      have early : calls.take n = calls.dropLast := by
        rw [List.dropLast_eq_take, hl, Nat.add_sub_cancel]
      rw [early]
      exact h.isSome_of_mem_dropLast

theorem completes_begun : Completes s σ past n (.begun ticker) := by
  obtain ⟨calls, _, h, hg⟩ := exists_runs σ past (Phase.run s (.begun ticker))
  rcases run_begun h with ⟨_, -, rfl⟩ | ⟨_, _, deadline, -, rfl⟩
  · exact completes_of_runs h nofun hg completes_resting
  · exact completes_of_runs h nofun hg (completes_listening deadline {})

end Completes

/-! ## Loops -/

/-- From this phase on, a loop makes these calls and comes to another phase, or to its end. -/
inductive Loops (s : Settings) (ph : Phase) : List (Call effects) → Option Phase → Prop
  | nil : Loops s ph [] (some ph)
  | snoc {mid : Phase} {next : Option Phase} {calls more : List (Call effects)}
      (h : Loops s ph calls (some mid)) (ht : mid.Step s more next) :
    Loops s ph (calls ++ more) next

/-- What has been seen of the cycle that goes on in this phase, if one does. -/
def Behind (point : PublishPoint) (seen : List Mark) : Option Phase → Prop
  | none => seen = []
  | some ph => (ph.IsResting → seen = []) ∧
    (¬ ph.IsResting → ∀ ms, ph.Ahead point ms → IsSpan point (seen ++ ms))

theorem behind_of_isResting {point : PublishPoint} (hr : ∀ ph ∈ next, ph.IsResting) :
    Behind point [] next := by
  cases next with
  | none => rfl
  | some ph => exact ⟨fun _ => rfl, fun h => absurd (hr ph rfl) h⟩

/-- What is seen of a loop is one span after the other, and what is behind of the last one. -/
theorem Loops.spans (h : Loops s .launched calls next) :
    ∃ (spans : List (List Mark)) (seen : List Mark), marks calls = spans.flatten ++ seen ∧
      (∀ span ∈ spans, IsSpan s.config.publishPoint span) ∧
      Behind s.config.publishPoint seen next := by
  induction h with
  | nil => exact ⟨[], [], rfl, nofun, fun _ => rfl, fun h => absurd trivial h⟩
  | @snoc mid next calls more _ ht ih =>
    obtain ⟨spans, seen, hm, hs, hb⟩ := ih
    by_cases hr : mid.IsResting
    · obtain ⟨hmore, hnext⟩ := ht.of_isResting hr
      obtain rfl := hb.1 hr
      refine ⟨spans, [], by simp [hm, hmore], hs, ?_⟩
      cases next with
      | none => rfl
      | some ph =>
        obtain ⟨ticker, rfl⟩ := hnext ph rfl
        exact ⟨fun h => h.elim, fun _ ms ha => ha⟩
    · obtain ⟨ph, rfl, ha⟩ := ht.ahead hr
      by_cases hn : ph.IsResting
      · -- the cycle is over, and its span is complete
        have span := hb.2 hr _ (ha [] (hn.ahead_iff.mpr rfl))
        rw [List.append_nil] at span
        refine ⟨spans ++ [seen ++ marks more], [], by simp [hm], ?_, ?_⟩
        · exact List.forall_mem_append.mpr ⟨hs, List.forall_mem_singleton.mpr span⟩
        · exact behind_of_isResting fun ph' hp => Option.some.inj hp ▸ hn
      · refine ⟨spans, seen ++ marks more, by simp [hm], hs, fun h => absurd h hn, ?_⟩
        intro _ ms hp
        rw [List.append_assoc]
        exact hb.2 hr _ (ha ms hp)

theorem exists_isClosing (point : PublishPoint) : ∃ ms, IsClosing point ms := by
  cases point with
  | onStart => exact ⟨_, .onStart (.ok ())⟩
  | afterCycle => exact ⟨_, .afterCycle (.ok ())⟩

theorem exists_ahead (point : PublishPoint) (ph : Phase) : ∃ ms, ph.Ahead point ms := by
  obtain ⟨closing, hc⟩ := exists_isClosing point
  cases ph with
  | launched => exact ⟨[], rfl⟩
  | begun ticker => exact ⟨_, .unstarted point .notConnected⟩
  | listening ticker store queue deadline c => exact ⟨closing, [], closing, rfl, by simp, hc⟩
  | expired ticker store queue => exact ⟨closing, hc⟩
  | closing ticker store => exact ⟨closing, hc⟩
  | resting ticker => exact ⟨[], rfl⟩

/-- What has been seen of a cycle is a beginning of a span. -/
theorem Behind.isSpan_append {point : PublishPoint} {seen : List Mark}
    (h : Behind point seen next) : ∃ more, IsSpan point (seen ++ more) := by
  have unseen : ∃ more, IsSpan point ([] ++ more) := ⟨_, .unstarted point .notConnected⟩
  cases next with
  | none =>
    obtain rfl : seen = [] := h
    exact unseen
  | some ph =>
    by_cases hr : ph.IsResting
    · obtain rfl := h.1 hr
      exact unseen
    · obtain ⟨ms, ha⟩ := exists_ahead point ph
      exact ⟨ms, h.2 hr ms ha⟩

end Phase

/-! ## The span of every cycle -/

/-- Every cycle has a span, wherever its deadline has fallen; what is seen of a loop is the spans of
its cycles and a beginning of another one while a cycle goes on; and whatever the answers are, every
cycle comes to its end, also if its deadline lies far off. -/
theorem cycle_spans (s : Settings) :
    (∀ ticker calls ticker', (Phase.begun ticker).Cycles s calls ticker' →
      IsSpan s.config.publishPoint (marks calls)) ∧
    (∀ calls next, Phase.launched.Loops s calls next →
      ∃ (spans : List (List Mark)) (seen more : List Mark), marks calls = spans.flatten ++ seen ∧
        (∀ span ∈ spans, IsSpan s.config.publishPoint span) ∧
        IsSpan s.config.publishPoint (seen ++ more) ∧
        ((∀ ph ∈ next, ph.IsResting) → seen = [])) ∧
    ∀ (σ : Behaviour effects) past n ticker, (Phase.begun ticker).Completes s σ past n := by
  refine ⟨fun ticker calls ticker' h => h.ahead, fun calls next h => ?_,
    fun σ past n ticker => Phase.completes_begun⟩
  obtain ⟨spans, seen, hm, hs, hb⟩ := h.spans
  obtain ⟨more, hmore⟩ := hb.isSpan_append
  refine ⟨spans, seen, more, hm, hs, hmore, fun hr => ?_⟩
  cases next with
  | none => exact hb
  | some ph => exact hb.1 (hr ph rfl)

/-- The session starts, has nothing to report, and fails at all else. -/
def quiet : Behaviour effects
  | _, .cycle _ (.session .start) => .ok 0
  | _, .cycle _ (.session _) => .error .notConnected
  | _, .cycle _ (.record _ _ _) => ()
  | _, .cycle _ (.hold _) => ()
  | _, .cycle _ .finish => ()
  | _, .cycle _ .publish => ()
  | _, .now => .zero
  | _, .lastPublished => none
  | _, .openStore _ => default
  | _, .receive _ => none
  | _, .conclude _ => ()
  | _, .abandon _ => ()
  | _, .rest _ => false

/-- A cycle without events has a span. -/
theorem cycle_spans_quiet :
    ∃ calls ticker, (Phase.begun ⟨.ofSeconds 15, .ofSeconds 15⟩).Cycles ⟨{}, {}, {}⟩ calls ticker ∧
      quiet.Gives [] calls ∧ IsSpan .afterCycle (marks calls) := by
  obtain ⟨calls, ticker, h, hg, -⟩ := (cycle_spans ⟨{}, {}, {}⟩).2.2 quiet [] 0 _
  exact ⟨calls, ticker, h, hg, (cycle_spans ⟨{}, {}, {}⟩).1 _ _ _ h⟩

end Resync
end GattSync
