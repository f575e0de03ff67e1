import GattSync.Proofs.Resync.Rounds

/-!
# The store of a cycle

A loop opens a store for each cycle, and whatever it does in the cycle it does with that store,
which lies on its desk. It hands the status in it to the publisher once, before it opens another
one. So the stores that a loop opens are those that it publishes, in order, and at most one that it
is still to publish (`Follows.opened_eq`).
-/

namespace GattSync.Resync

open Program

variable {s : Settings} {ph : Phase} {calls more : List (Call effects)} {next : Option Phase}
  {store : Status.Store}

/-! ## Stores in the calls of a loop -/

/-- The store that is opened with a call. -/
def opened? : Call effects → Option Status.Store
  | ⟨.openStore _, store⟩ => store
  | _ => none

/-- The store whose status is handed to the publisher with a call. -/
def handed? : Call effects → Option Status.Store
  | ⟨.cycle store .publish, _⟩ => some store
  | _ => none

/-- The stores that are opened, in order. -/
def opened (calls : List (Call effects)) : List Status.Store := calls.filterMap opened?

/-- The stores that are published, in order. -/
def handed (calls : List (Call effects)) : List Status.Store := calls.filterMap handed?

@[simp] theorem opened_append : opened (calls ++ more) = opened calls ++ opened more :=
  List.filterMap_append

@[simp] theorem handed_append : handed (calls ++ more) = handed calls ++ handed more :=
  List.filterMap_append

theorem opened_cons (call : Call effects) :
    opened (call :: calls) = (opened? call).toList ++ opened calls := by
  cases h : opened? call <;> simp [opened, h]

theorem handed_cons (call : Call effects) :
    handed (call :: calls) = (handed? call).toList ++ handed calls := by
  cases h : handed? call <;> simp [handed, h]

theorem eq_of_handed? {call : Call effects} (h : handed? call = some store) :
    ∃ x, call = ⟨.cycle store .publish, x⟩ := by
  obtain ⟨op, x⟩ := call
  cases op with
  | cycle st effect =>
    cases effect with
    | publish =>
      obtain rfl := Option.some.inj h
      exact ⟨x, rfl⟩
    | _ => cases h
  | _ => cases h

theorem mem_handed : store ∈ handed calls ↔ ∃ x, ⟨.cycle store .publish, x⟩ ∈ calls := by
  constructor
  · intro h
    obtain ⟨call, hc, hs⟩ := List.mem_filterMap.mp h
    obtain ⟨x, rfl⟩ := eq_of_handed? hs
    exact ⟨x, hc⟩
  · rintro ⟨x, hc⟩
    exact List.mem_filterMap.mpr ⟨_, hc, rfl⟩

theorem mem_opened : store ∈ opened calls ↔ ∃ seed, ⟨.openStore seed, some store⟩ ∈ calls := by
  constructor
  · intro h
    obtain ⟨⟨op, x⟩, hc, hs⟩ := List.mem_filterMap.mp h
    cases op with
    | openStore seed =>
      obtain rfl : x = some store := hs
      exact ⟨seed, hc⟩
    | _ => cases hs
  · rintro ⟨seed, hc⟩
    exact List.mem_filterMap.mpr ⟨_, hc, rfl⟩

/-! ## The desk -/

/-- What a loop has on its desk. -/
inductive Desk where
  /-- No store has been opened. -/
  | empty
  /-- A store that is still to be published. -/
  | kept (store : Status.Store)
  /-- A store that has been published. -/
  | done (store : Status.Store)
  deriving DecidableEq, Repr

namespace Desk

def store? : Desk → Option Status.Store
  | .empty => none
  | .kept store => some store
  | .done store => some store

/-- The store that is still to be published. -/
def pending : Desk → List Status.Store
  | .kept store => [store]
  | _ => []

/-- The desk after the session of a cycle has been started. -/
def started (point : PublishPoint) (store : Status.Store) : Desk :=
  if point = .onStart then .done store else .kept store

@[simp] theorem store?_started (point : PublishPoint) (store : Status.Store) :
    (started point store).store? = some store := by
  cases point <;> rfl

end Desk

/-- The operation has to do with a store. -/
def Effect.isStoring : Effect → Bool
  | .cycle _ _ => true
  | .openStore _ => true
  | _ => false

/-- What becomes of a desk with a call. A store is opened when none is to be published, and what is
done is done with the store on the desk. -/
inductive Takes : Desk → Call effects → Desk → Prop
  | opened {desk : Desk} (hp : desk.pending = []) (seed : Status.Snapshot)
      (store : Status.Store) : Takes desk ⟨.openStore seed, some store⟩ (.kept store)
  | handed (store : Status.Store) (x : Option Unit) :
    Takes (.kept store) ⟨.cycle store .publish, x⟩ (.done store)
  | used {desk : Desk} {store : Status.Store} {effect : Cycle.Effect}
      (hs : desk.store? = some store) (he : effect ≠ .publish) {x : Option effect.Answer} :
    Takes desk ⟨.cycle store effect, x⟩ desk
  | other {desk : Desk} {call : Call effects} (ho : call.1.isStoring = false) :
    Takes desk call desk

/-- What becomes of a desk with calls. -/
inductive Follows : Desk → List (Call effects) → Desk → Prop
  | nil (desk : Desk) : Follows desk [] desk
  | cons {desk mid desk' : Desk} {call : Call effects} {calls : List (Call effects)}
      (ht : Takes desk call mid) (h : Follows mid calls desk') : Follows desk (call :: calls) desk'

variable {desk desk' : Desk} {call : Call effects}

theorem follows_append_iff : Follows desk (calls ++ more) desk' ↔
    ∃ mid, Follows desk calls mid ∧ Follows mid more desk' := by
  induction calls generalizing desk with
  | nil =>
    constructor
    · intro h
      exact ⟨desk, .nil desk, h⟩
    · rintro ⟨_, ⟨⟩, h⟩
      exact h
  | cons call calls ih =>
    constructor
    · rintro (_ | ⟨ht, h⟩)
      obtain ⟨mid, first, rest⟩ := ih.mp h
      exact ⟨mid, .cons ht first, rest⟩
    · rintro ⟨mid, _ | ⟨ht, h⟩, rest⟩
      exact .cons ht (ih.mpr ⟨mid, h, rest⟩)

theorem follows_singleton_iff : Follows desk [call] desk' ↔ Takes desk call desk' := by
  constructor
  · rintro (_ | ⟨ht, ⟨⟩⟩)
    exact ht
  · intro ht
    exact .cons ht (.nil desk')

/-- Calls that leave the desk as it is. -/
theorem follows_of_forall (h : ∀ call ∈ calls, Takes desk call desk) :
    Follows desk calls desk := by
  induction calls with
  | nil => exact .nil desk
  | cons call calls ih =>
    obtain ⟨first, rest⟩ := List.forall_mem_cons.mp h
    exact .cons first (ih rest)

theorem takes_ask {r : Session.Request String} {x : Option r.Answer}
    (hs : desk.store? = some store) : Takes desk ⟨.cycle store (.session r), x⟩ desk := by
  refine .used hs ?_
  exact nofun

/-- What is done in a cycle is done with the store on the desk. -/
theorem Takes.store?_eq {effect : Cycle.Effect} {x : Option effect.Answer}
    (h : Takes desk ⟨.cycle store effect, x⟩ desk') : desk.store? = some store := by
  cases h with
  | handed => rfl
  | used hs => exact hs
  | other ho => cases ho

theorem Takes.store? (h : Takes desk call desk') :
    desk'.store? = (opened? call).or desk.store? := by
  cases h with
  | other ho =>
    obtain ⟨op, x⟩ := call
    cases op with
    | openStore => cases ho
    | _ => rfl
  | _ => rfl

theorem Takes.pending_eq (h : Takes desk call desk') :
    desk.pending ++ (opened? call).toList = (handed? call).toList ++ desk'.pending := by
  cases h with
  | opened hp => rw [hp]; rfl
  | handed => rfl
  | @used desk store effect hs he =>
    have unhanded (x : Option effect.Answer) :
        handed? ⟨.cycle store effect, x⟩ = none := by
      cases effect with
      | publish => exact absurd rfl he
      | _ => rfl
    rw [unhanded]
    exact List.append_nil _
  | other ho =>
    obtain ⟨op, x⟩ := call
    cases op with
    | cycle => cases ho
    | openStore => cases ho
    | _ => exact List.append_nil _

/-- On the desk is the store that has been opened last. -/
theorem Follows.store? (h : Follows desk calls desk') :
    desk'.store? = (opened calls).getLast?.or desk.store? := by
  induction h with
  | nil => rfl
  | @cons desk mid desk' call calls ht _ ih =>
    rw [ih, ht.store?, opened_cons, List.getLast?_append, Option.or_assoc]
    cases opened? call <;> rfl

/-- What is opened is published or still to be published, in the order in which it is opened. -/
theorem Follows.pending_eq (h : Follows desk calls desk') :
    desk.pending ++ opened calls = handed calls ++ desk'.pending := by
  induction h with
  | nil desk => exact List.append_nil _
  | @cons desk mid desk' call calls ht _ ih =>
    rw [opened_cons, handed_cons, ← List.append_assoc, ht.pending_eq, List.append_assoc, ih,
      List.append_assoc]

theorem Follows.opened_eq (h : Follows .empty calls desk) :
    opened calls = handed calls ++ desk.pending := h.pending_eq

/-- A store has been published when another one is opened after it, or when none is to be published
any more. -/
theorem Follows.mem_handed {earlier later : List Status.Store} (h : Follows .empty calls desk)
    (ho : opened calls = earlier ++ store :: later) (hl : later ≠ [] ∨ desk.pending = []) :
    store ∈ handed calls := by
  rw [h.opened_eq] at ho
  cases hp : desk.pending with
  | nil =>
    rw [hp, List.append_nil] at ho
    simp [ho]
  | cons last rest =>
    obtain rfl : rest = [] := by
      cases desk <;> cases hp
      rfl
    have more : later ≠ [] := hl.resolve_right (by simp [hp])
    rcases List.eq_nil_or_concat later with rfl | ⟨init, another, rfl⟩
    · exact absurd rfl more
    · have ends : handed calls ++ [last] = (earlier ++ store :: init) ++ [another] := by
        simpa [hp] using ho
      simp [(List.append_inj' ends rfl).1]

/-- What is published has been kept. -/
theorem Takes.eq_kept {x : Option Unit} (h : Takes desk ⟨.cycle store .publish, x⟩ desk') :
    desk = .kept store := by
  cases h with
  | handed => rfl
  | used _ he => exact absurd rfl he
  | other ho => cases ho

/-- From the opening of a store to its publication, nothing is published. -/
theorem Follows.handed_eq_nil {first rest : List (Call effects)} {seed : Status.Snapshot}
    {x : Option Unit} (h : Follows .empty
      (first ++ ⟨.openStore seed, some store⟩ :: (rest ++ [⟨.cycle store .publish, x⟩])) desk)
    (once : store ∉ opened rest) : handed rest = [] := by
  obtain ⟨_, -, _ | ⟨opening, h⟩⟩ := follows_append_iff.mp h
  obtain ⟨mid, between, publication⟩ := follows_append_iff.mp h
  obtain rfl := (follows_singleton_iff.mp publication).eq_kept
  cases opening with
  | other ho => cases ho
  | opened =>
    have balance : [store] ++ opened rest = handed rest ++ [store] := between.pending_eq
    rcases List.eq_nil_or_concat (opened rest) with unopened | ⟨init, last, ends⟩
    · rw [unopened, List.append_nil] at balance
      exact List.append_left_eq_self.mp balance.symm
    · rw [ends, List.concat_eq_append, ← List.append_assoc] at balance
      obtain rfl : last = store := by simpa using (List.append_inj' balance rfl).2
      exact absurd (by simp [ends]) once

/-! ## Phase by phase -/

theorem follows_opening {point : PublishPoint} {queue? : Option Session.Queue}
    (h : (within store (Cycle.opening point)).Runs calls queue?) :
    Follows (.kept store) calls (if queue?.isSome then .started point store else .done store) := by
  obtain ⟨x, rest, rfl, ha⟩ := runs_perform_bind_iff.mp h
  refine .cons (takes_ask rfl) ?_
  cases x with
  | error fault =>
    obtain ⟨x, _, rfl, hd⟩ := runs_perform_bind_iff.mp ha
    obtain ⟨rfl, rfl⟩ := runs_done_iff.mp hd
    exact follows_singleton_iff.mpr (.handed store _)
  | ok queue =>
    cases point with
    | onStart =>
      obtain ⟨_, _, rfl, hd⟩ := runs_perform_bind_iff.mp ha
      obtain ⟨rfl, rfl⟩ := runs_done_iff.mp hd
      exact follows_singleton_iff.mpr (.handed store _)
    | afterCycle =>
      obtain ⟨rfl, rfl⟩ := runs_done_iff.mp ha
      exact .nil _

theorem follows_closing {point : PublishPoint}
    (h : (within store (Cycle.closing point)).Runs calls ()) :
    Follows (.started point store) calls (.done store) := by
  obtain ⟨x, rest, rfl, ha⟩ := runs_perform_bind_iff.mp h
  refine .cons (takes_ask (Desk.store?_started point store)) ?_
  cases point with
  | onStart =>
    obtain ⟨rfl, -⟩ := runs_done_iff.mp ha
    exact .nil _
  | afterCycle =>
    obtain ⟨_, _, rfl, hd⟩ := runs_perform_bind_iff.mp ha
    obtain ⟨rfl, -⟩ := runs_done_iff.mp hd
    exact follows_singleton_iff.mpr (.handed store _)

namespace Phase

/-- What a loop that has come here has on its desk. -/
def Finds (point : PublishPoint) : Option Phase → Desk → Prop
  | some (.listening _ store _ _ _), desk => desk = .started point store
  | some (.expired _ store _), desk => desk = .started point store
  | some (.closing _ store), desk => desk = .started point store
  | _, desk => desk.pending = []

theorem follows_begun {ticker : Ticker} (h : (Phase.run s (.begun ticker)).Runs calls next)
    (hp : desk.pending = []) :
    ∃ desk', Follows desk calls desk' ∧ Finds s.config.publishPoint next desk' := by
  obtain ⟨last, _, rfl, h₁⟩ := runs_perform_bind_iff.mp h
  obtain ⟨store, _, rfl, h₂⟩ := runs_perform_bind_iff.mp h₁
  obtain ⟨opening, queue?, rest, rfl, ho, hl⟩ := runs_bind_iff.mp h₂
  have begins {desk' : Desk} (hf : Follows (.kept store) (opening ++ rest) desk') :
      Follows desk (⟨.lastPublished, some last⟩ ::
        ⟨.openStore (s.config.seed s.initial last), some store⟩ :: (opening ++ rest)) desk' :=
    .cons (.other rfl) (.cons (.opened hp _ store) hf)
  have opens := follows_opening ho
  cases queue? with
  | none =>
    obtain ⟨rfl, rfl⟩ := runs_done_iff.mp hl
    exact ⟨.done store, begins (by simpa using opens), rfl⟩
  | some queue =>
    obtain ⟨now, _, rfl, hd⟩ := runs_perform_bind_iff.mp hl
    obtain ⟨rfl, rfl⟩ := runs_done_iff.mp hd
    have clock : Follows (.started s.config.publishPoint store) [⟨.now, some now⟩]
        (.started s.config.publishPoint store) := follows_singleton_iff.mpr (.other rfl)
    exact ⟨_, begins (follows_append_iff.mpr ⟨_, opens, clock⟩), rfl⟩

/-- While a loop listens, it works on the store on its desk. -/
theorem Asks.takes {ticker : Ticker} {queue : Session.Queue} {deadline : Duration}
    {c : Cycle.Controller} (h : Asks (.listening ticker store queue deadline c) call.1)
    (hs : desk.store? = some store) : Takes desk call desk := by
  obtain ⟨op, x⟩ := call
  cases op with
  | cycle st effect =>
    obtain ⟨rfl, inner⟩ := h
    refine .used hs ?_
    rintro rfl
    exact inner
  | openStore => exact h.elim
  | _ => exact .other rfl

/-- A loop that is not in a cycle leaves its desk as it is. -/
theorem follows_of_isResting (h : ph.Step s calls next) (hr : ph.IsResting) :
    Follows desk calls desk := by
  refine follows_of_forall fun call hc => ?_
  have asks := h.asks call hc
  obtain ⟨op, x⟩ := call
  cases ph with
  | launched =>
    cases op with
    | now => exact .other rfl
    | _ => exact asks.elim
  | resting ticker =>
    cases op with
    | now => exact .other rfl
    | rest deadline => exact .other rfl
    | _ => exact asks.elim
  | _ => exact hr.elim

theorem Step.follows (h : ph.Step s calls next) (hf : Finds s.config.publishPoint ph desk) :
    ∃ desk', Follows desk calls desk' ∧ Finds s.config.publishPoint next desk' := by
  cases ph with
  | launched =>
    refine ⟨desk, follows_of_isResting h trivial, ?_⟩
    cases next with
    | none => exact hf
    | some ph =>
      obtain ⟨ticker, rfl⟩ := (h.of_isResting trivial).2 ph rfl
      exact hf
  | begun ticker => exact follows_begun (h.runs rfl) hf
  | listening ticker store queue deadline c =>
    obtain rfl : desk = .started s.config.publishPoint store := hf
    refine ⟨_, follows_of_forall fun call hc => (h.asks call hc).takes (by simp), ?_⟩
    cases h with
    | run h => rcases (run_listening h).2 with rfl | ⟨c', rfl⟩ <;> rfl
    | expire hd _ =>
      obtain ⟨-, rfl⟩ := Prod.mk.inj (Option.some.inj hd)
      rfl
  | expired ticker store queue =>
    obtain ⟨_, _, rfl, hd⟩ := runs_perform_bind_iff.mp (h.runs rfl)
    obtain ⟨rfl, rfl⟩ := runs_done_iff.mp hd
    exact ⟨desk, follows_singleton_iff.mpr (.other rfl), hf⟩
  | closing ticker store =>
    obtain rfl : desk = .started s.config.publishPoint store := hf
    obtain ⟨closing, _, _, rfl, hc, hd⟩ := runs_bind_iff.mp (h.runs rfl)
    obtain ⟨rfl, rfl⟩ := runs_done_iff.mp hd
    rw [List.append_nil]
    exact ⟨.done store, follows_closing hc, rfl⟩
  | resting ticker =>
    refine ⟨desk, follows_of_isResting h trivial, ?_⟩
    cases next with
    | none => exact hf
    | some ph =>
      obtain ⟨ticker, rfl⟩ := (h.of_isResting trivial).2 ph rfl
      exact hf

/-- A loop does what it does with the store on its desk. -/
theorem Loops.follows (h : Phase.launched.Loops s calls next) :
    ∃ desk, Follows .empty calls desk ∧ Finds s.config.publishPoint next desk := by
  induction h with
  | nil => exact ⟨.empty, .nil .empty, rfl⟩
  | snoc _ ht ih =>
    obtain ⟨mid, first, found⟩ := ih
    obtain ⟨desk, rest, finds⟩ := ht.follows found
    exact ⟨desk, follows_append_iff.mpr ⟨mid, first, rest⟩, finds⟩

end Phase

end GattSync.Resync
