import GattSync.Proofs.Resync.Span

/-!
# The rounds of a loop

Each time its rest is over and it has not been told to stop, a loop goes on to another cycle
(`rounds`). It starts the session once in its first cycle and once in each of these, so a loop that
rests or has ended has been through one complete cycle more than it has gone on to
(`Loops.hasCycles`).

A loop that has made any calls, also if it is in the middle of a phase, can go on: whatever the
answers are, its cycle comes to its end (`Phase.Stands.completes`).
-/

namespace GattSync.Resync

open Program

variable {s : Settings} {ph : Phase} {calls more : List (Call effects)} {next : Option Phase}

/-! ## What is asked for in a phase -/

/-- In this phase, this can be asked for. -/
def Phase.Asks : Phase → Effect → Prop
  | .launched, .now => True
  | .begun _, .lastPublished => True
  | .begun _, .openStore _ => True
  | .begun _, .cycle _ _ => True
  | .begun _, .now => True
  | .listening _ _ queue _ _, .receive q => q = queue
  | .listening _ _ queue _ _, .conclude q => q = queue
  | .listening _ store _ _ _, .cycle st effect => st = store ∧ effect.IsInner
  | .expired _ _ queue, .abandon q => q = queue
  | .closing _ store, .cycle st _ => st = store
  | .resting ticker, .rest deadline => deadline = ticker.deadline
  | .resting _, .now => True
  | _, _ => False

theorem uses_cycle {α : Type} (store : Status.Store) {Q : Cycle.Effect → Prop}
    {p : Cycle.Prog α} (h : p.Uses Q) :
    (within store p).Uses fun (op : Effect) => ∃ effect, op = .cycle store effect ∧ Q effect :=
  h.interpret fun effect he => uses_perform.mpr ⟨effect, rfl, he⟩

namespace Phase

theorem uses_run (s : Settings) (ph : Phase) : (ph.run s).Uses ph.Asks := by
  have any {α : Type} (store : Status.Store) (p : Cycle.Prog α) {P : Effect → Prop}
      (h : ∀ effect, P (.cycle store effect)) : (within store p).Uses P :=
    (uses_cycle store (uses_true p)).mono fun op ⟨effect, ho, _⟩ => ho ▸ h effect
  cases ph with
  | launched =>
    refine Uses.bind (uses_perform.mpr trivial) fun now => ?_
    split <;> trivial
  | begun ticker =>
    refine Uses.bind (uses_perform.mpr trivial) fun last => ?_
    refine Uses.bind (uses_perform.mpr trivial) fun store => ?_
    refine Uses.bind (any store _ fun _ => trivial) fun queue? => ?_
    cases queue? with
    | none => trivial
    | some queue => exact Uses.bind (uses_perform.mpr trivial) fun _ => trivial
  | listening ticker store queue deadline c =>
    refine Uses.bind (uses_perform.mpr rfl) fun event? => ?_
    cases event? with
    | none => exact Uses.bind (uses_perform.mpr rfl) fun _ => trivial
    | some event =>
      have handled := uses_cycle store (Cycle.uses_handle s.plan c event)
      refine Uses.bind (handled.mono ?_) fun c' => ?_
      · rintro _ ⟨effect, rfl, inner⟩
        exact ⟨rfl, inner⟩
      · split
        · exact Uses.bind (uses_perform.mpr rfl) fun _ => trivial
        · trivial
  | expired ticker store queue => exact Uses.bind (uses_perform.mpr rfl) fun _ => trivial
  | closing ticker store => exact Uses.bind (any store _ fun _ => rfl) fun _ => trivial
  | resting ticker =>
    refine Uses.bind (uses_perform.mpr rfl) fun stops => ?_
    cases stops with
    | true => trivial
    | false => exact Uses.bind (uses_perform.mpr trivial) fun _ => trivial

theorem Step.asks (h : ph.Step s calls next) : ∀ call ∈ calls, ph.Asks call.1 := by
  cases h with
  | run h => exact (uses_run s ph).of_runs h
  | expire _ h => exact (uses_run s ph).of_breaks h

end Phase

/-! ## Rounds -/

/-- The rest is over, and the loop has not been told to stop. -/
def isTick : Call effects → Bool
  | ⟨.rest _, some false⟩ => true
  | _ => false

/-- How often the loop has gone on to another cycle. -/
def rounds (calls : List (Call effects)) : Nat := calls.countP isTick

def Mark.isStart : Mark → Bool
  | .request .start _ => true
  | _ => false

/-- How often the session has been asked to start. -/
def starts (calls : List (Call effects)) : Nat := (marks calls).countP Mark.isStart

/-- From every moment that the loop has looked at, the clock can count one interval further. -/
def InRange (s : Settings) (calls : List (Call effects)) : Prop :=
  ∀ now, ⟨.now, some now⟩ ∈ calls → (now + s.config.syncInterval).seconds < Ticker.clockRange

/-- What is seen of these calls is so many complete cycles. -/
def HasCycles (point : PublishPoint) (n : Nat) (calls : List (Call effects)) : Prop :=
  ∃ spans : List (List Mark), marks calls = spans.flatten ∧
    (∀ span ∈ spans, IsSpan point span) ∧ spans.length = n

/-- A loop that rests has looked whether it has been told to stop. -/
def looked (ticker : Ticker) (stopped : Bool) : Call effects :=
  ⟨.rest ticker.deadline, some stopped⟩

@[simp] theorem rounds_append : rounds (calls ++ more) = rounds calls + rounds more :=
  List.countP_append

@[simp] theorem starts_append : starts (calls ++ more) = starts calls + starts more := by
  simp [starts]

@[simp] theorem rounds_looked (ticker : Ticker) (stopped : Bool) :
    rounds [looked ticker stopped] = if stopped then 0 else 1 := by
  cases stopped <;> rfl

theorem HasCycles.looked {point : PublishPoint} {n : Nat} (h : HasCycles point n calls)
    (ticker : Ticker) (stopped : Bool) :
    HasCycles point n (calls ++ [looked ticker stopped]) := by
  obtain ⟨spans, hm, hs, hn⟩ := h
  have unseen : marks [Resync.looked ticker stopped] = [] := rfl
  exact ⟨spans, by rw [marks_append, unseen, List.append_nil, hm], hs, hn⟩

theorem inRange_append : InRange s (calls ++ more) ↔ InRange s calls ∧ InRange s more := by
  simp only [InRange, List.mem_append, or_imp, forall_and]

theorem inRange_of_gives {σ : Behaviour effects} {past : List (Call effects)}
    (h : ∀ past, (σ past .now + s.config.syncInterval).seconds < Ticker.clockRange)
    (hg : σ.Gives past calls) : InRange s calls := by
  intro now hm
  obtain ⟨before, rfl⟩ := hg.exists_eq hm
  exact h before

theorem countP_isStart_eq_zero {ms : List Mark} (h : ∀ m ∈ ms, m.IsInner) :
    ms.countP Mark.isStart = 0 := by
  refine List.countP_eq_zero.mpr fun m hm hs => ?_
  have inner := h m hm
  cases m with
  | publication => cases hs
  | request r x =>
    cases r with
    | start => exact inner.1 rfl
    | _ => cases hs

theorem IsClosing.countP_isStart {point : PublishPoint} {ms : List Mark}
    (h : IsClosing point ms) : ms.countP Mark.isStart = 0 := by
  cases h <;> rfl

/-- There is one start in the span of a cycle. -/
theorem IsSpan.countP_isStart {point : PublishPoint} {ms : List Mark} (h : IsSpan point ms) :
    ms.countP Mark.isStart = 1 := by
  have body {inner closing : List Mark} {p : PublishPoint} (hi : ∀ m ∈ inner, m.IsInner)
      (hc : IsClosing p closing) : (inner ++ closing).countP Mark.isStart = 0 := by
    rw [List.countP_append, countP_isStart_eq_zero hi, hc.countP_isStart]
  cases h with
  | unstarted fault => rfl
  | onStart queue hi hc =>
    rw [List.countP_cons, List.countP_cons, body hi hc]
    rfl
  | afterCycle queue hi hc =>
    rw [List.countP_cons, body hi hc]
    rfl

theorem countP_isStart_flatten {point : PublishPoint} {spans : List (List Mark)}
    (h : ∀ span ∈ spans, IsSpan point span) :
    spans.flatten.countP Mark.isStart = spans.length := by
  induction spans with
  | nil => rfl
  | cons span spans ih =>
    obtain ⟨hspan, hspans⟩ := List.forall_mem_cons.mp h
    rw [List.flatten_cons, List.countP_append, hspan.countP_isStart, ih hspans, List.length_cons,
      Nat.add_comm]

namespace Phase

theorem calls_launched (h : (Phase.run s .launched).Runs calls next) :
    ∃ now, calls = [⟨.now, some now⟩] ∧
      next = (Ticker.start? now s.config.syncInterval).map .begun := by
  obtain ⟨now, rest, rfl, hr⟩ := runs_perform_bind_iff.mp h
  refine ⟨now, ?_⟩
  split at hr
  all_goals
    rename_i hs
    obtain ⟨rfl, rfl⟩ := runs_done_iff.mp hr
    rw [hs]
    exact ⟨rfl, rfl⟩

theorem calls_resting {ticker : Ticker} (h : (Phase.run s (.resting ticker)).Runs calls next) :
    (calls = [⟨.rest ticker.deadline, some true⟩] ∧ next = none) ∨
    ∃ now, calls = [⟨.rest ticker.deadline, some false⟩, ⟨.now, some now⟩] ∧
      next = some (.begun (ticker.next now)) := by
  obtain ⟨stops, rest, rfl, hr⟩ := runs_perform_bind_iff.mp h
  cases stops with
  | true =>
    obtain ⟨rfl, rfl⟩ := runs_done_iff.mp hr
    exact .inl ⟨rfl, rfl⟩
  | false =>
    obtain ⟨now, rest, rfl, hd⟩ := runs_perform_bind_iff.mp hr
    obtain ⟨rfl, rfl⟩ := runs_done_iff.mp hd
    exact .inr ⟨now, rfl, rfl⟩

/-- The starts that are made in this phase. -/
def opens : Phase → Nat
  | .begun _ => 1
  | _ => 0

/-- The starts that are made before the next rest, once the loop has come here. -/
def due : Option Phase → Nat
  | some .launched => 1
  | some (.begun _) => 1
  | _ => 0

theorem opens_le_due (ph : Phase) : ph.opens ≤ due ph := by
  cases ph with
  | begun ticker => exact Nat.le_refl 1
  | _ => exact Nat.zero_le _

theorem opens_eq_due (hr : ¬ ph.IsResting) : ph.opens = due ph := by
  cases ph with
  | launched => exact absurd trivial hr
  | _ => rfl

/-- A phase without a deadline comes to its end. -/
theorem Step.runs (h : ph.Step s calls next) (hx : ph.expiry? = none) :
    (ph.run s).Runs calls next := by
  cases h with
  | run h => exact h
  | expire hd _ => cases hx.symm.trans hd

theorem Step.starts_eq (h : ph.Step s calls next) : starts calls = ph.opens := by
  cases ph with
  | begun ticker =>
    rcases run_begun (h.runs rfl) with ⟨fault, hm, -⟩ | ⟨queue, store, deadline, hm, -⟩
    · rw [starts, hm]
      rfl
    · rw [starts, hm]
      split <;> rfl
  | listening ticker store queue deadline c =>
    refine countP_isStart_eq_zero (isInner_of_mem_marks fun call hc => ?_)
    have asked := h.asks call hc
    obtain ⟨op, x⟩ := call
    cases op with
    | cycle st effect => exact asked.2
    | _ => trivial
  | closing ticker store => exact (run_closing (h.runs rfl)).1.countP_isStart
  | expired ticker store queue =>
    rw [starts, (run_expired (h.runs rfl)).1]
    rfl
  | launched =>
    rw [starts, (h.of_isResting trivial).1]
    rfl
  | resting ticker =>
    rw [starts, (h.of_isResting trivial).1]
    rfl

theorem rounds_eq_zero {calls : List (Call effects)} (hr : ¬ ph.IsResting)
    (h : ∀ call ∈ calls, ph.Asks call.1) : rounds calls = 0 := by
  refine List.countP_eq_zero.mpr fun call hc ht => ?_
  have asked := h call hc
  obtain ⟨op, x⟩ := call
  cases op with
  | rest deadline =>
    cases ph with
    | resting ticker => exact hr trivial
    | _ => exact asked
  | _ => cases ht

/-- No start is due any more once a cycle has come to its next phase. -/
theorem Step.due_next (h : ph.Step s calls next) (hr : ¬ ph.IsResting) : due next = 0 := by
  cases ph with
  | launched => exact absurd trivial hr
  | begun ticker =>
    rcases run_begun (h.runs rfl) with ⟨fault, -, rfl⟩ | ⟨queue, store, deadline, -, rfl⟩ <;> rfl
  | listening ticker store queue deadline c =>
    cases h with
    | run h => rcases (run_listening h).2 with rfl | ⟨c', rfl⟩ <;> rfl
    | expire hd _ =>
      obtain ⟨-, rfl⟩ := Prod.mk.inj (Option.some.inj hd)
      rfl
  | expired ticker store queue =>
    obtain ⟨-, rfl⟩ := run_expired (h.runs rfl)
    rfl
  | closing ticker store =>
    obtain ⟨-, rfl⟩ := run_closing (h.runs rfl)
    rfl
  | resting ticker => exact absurd trivial hr

/-- A loop comes to be due for a start when it goes on to another cycle, and not otherwise. -/
theorem Step.due_eq (h : ph.Step s calls next) (hr : InRange s calls) :
    ph.opens + due next = due ph + rounds calls := by
  by_cases resting : ph.IsResting
  · cases ph with
    | launched =>
      obtain ⟨now, rfl, rfl⟩ := calls_launched (h.runs rfl)
      have ticks : Ticker.start? now s.config.syncInterval ≠ none := by
        rw [Ne, Ticker.start?_eq_none_iff, Nat.not_le]
        exact hr now (List.mem_singleton_self _)
      obtain ⟨ticker, ht⟩ := Option.ne_none_iff_exists'.mp ticks
      rw [ht]
      rfl
    | resting ticker =>
      obtain ⟨rfl, rfl⟩ | ⟨now, rfl, rfl⟩ := calls_resting (h.runs rfl) <;> rfl
    | _ => exact resting.elim
  · rw [rounds_eq_zero resting h.asks, h.due_next resting, opens_eq_due resting]

/-! ## Starts and spans of a loop -/

theorem Loops.starts_eq (h : Phase.launched.Loops s calls next) (hr : InRange s calls) :
    starts calls + due next = 1 + rounds calls := by
  induction h with
  | nil => rfl
  | @snoc mid next calls more _ ht ih =>
    obtain ⟨earlier, later⟩ := inRange_append.mp hr
    have before := ih earlier
    have due_eq := ht.due_eq later
    rw [starts_append, rounds_append, ht.starts_eq]
    omega

/-- A loop that rests or has ended has been through its first cycle and through one more for each
that it has gone on to. -/
theorem Loops.hasCycles (h : Phase.launched.Loops s calls next) (hr : InRange s calls)
    (hn : ∀ ph ∈ next, ∃ ticker, ph = .resting ticker) :
    HasCycles s.config.publishPoint (rounds calls + 1) calls := by
  obtain ⟨spans, seen, hm, hs, hb⟩ := h.spans
  have complete : seen = [] ∧ due next = 0 := by
    cases next with
    | none => exact ⟨hb, rfl⟩
    | some ph =>
      obtain ⟨ticker, rfl⟩ := hn ph rfl
      exact ⟨hb.1 trivial, rfl⟩
  obtain ⟨rfl, settled⟩ := complete
  rw [List.append_nil] at hm
  have counted := h.starts_eq hr
  rw [settled, starts, hm, countP_isStart_flatten hs] at counted
  exact ⟨spans, hm, hs, by omega⟩

/-- A loop ends when it finds that it has been told to stop. -/
theorem Loops.exists_told (h : Phase.launched.Loops s calls none) (hr : InRange s calls) :
    ∃ deadline, ⟨.rest deadline, some true⟩ ∈ calls := by
  cases h with
  | @snoc mid _ calls more _ ht =>
    by_cases resting : mid.IsResting
    · cases mid with
      | launched =>
        have due_eq := ht.due_eq (inRange_append.mp hr).2
        obtain ⟨now, rfl, -⟩ := calls_launched (ht.runs rfl)
        cases due_eq
      | resting ticker =>
        obtain ⟨rfl, -⟩ | ⟨now, -, hn⟩ := calls_resting (ht.runs rfl)
        · exact ⟨ticker.deadline, by simp⟩
        · cases hn
      | _ => exact resting.elim
    · obtain ⟨ph, hn, -⟩ := ht.ahead resting
      cases hn

/-- A loop begins a cycle if the clock can count a period ahead. -/
theorem loops_launched {now : Duration}
    (hr : (now + s.config.syncInterval).seconds < Ticker.clockRange) :
    Phase.launched.Loops s [⟨.now, some now⟩]
      (some (.begun ⟨s.config.syncInterval, now + s.config.syncInterval⟩)) := by
  have started : Ticker.start? now s.config.syncInterval = some ⟨_, _⟩ := if_pos hr
  have run := runs_launched s now
  rw [started] at run
  exact .snoc .nil (.run run)

theorem Loops.ends {ticker : Ticker} (h : ph.Loops s calls (some (.resting ticker))) :
    ph.Loops s (calls ++ [looked ticker true]) none :=
  h.snoc (.run (.ask _ (.done _)))

theorem Loops.ticks {ticker : Ticker} (h : ph.Loops s calls (some (.resting ticker)))
    (now : Duration) : ph.Loops s (calls ++ [looked ticker false, ⟨.now, some now⟩])
      (some (.begun (ticker.next now))) :=
  h.snoc (.run (.ask _ (.ask _ (.done _))))

/-! ## Loops that go on -/

/-- A loop that has made these calls has ended, or it is in a phase of which this is left. -/
inductive Stands (s : Settings) (calls : List (Call effects)) : Prop
  | ended (h : Phase.launched.Loops s calls none)
  | within {done part : List (Call effects)} {ph : Phase} {left : Prog (Option Phase)}
      (hc : calls = done ++ part) (h : Phase.launched.Loops s done (some ph))
      (hl : (ph.run s).Leaves part left)

theorem Loops.stands (h : Phase.launched.Loops s (calls ++ more) next) : Stands s calls := by
  generalize hc : calls ++ more = all at h
  induction h generalizing more with
  | nil =>
    obtain ⟨rfl, -⟩ := List.append_eq_nil_iff.mp hc
    exact .within rfl .nil (.nil _)
  | @snoc mid next earlier last h ht ih =>
    rcases List.append_eq_append_iff.mp hc with ⟨between, rfl, -⟩ | ⟨part, rfl, rfl⟩
    · exact ih rfl
    · by_cases whole : more = []
      · subst whole
        rw [List.append_nil] at ht
        have all := h.snoc ht
        cases next with
        | none => exact .ended all
        | some ph => exact .within (List.append_nil _).symm all (.nil _)
      · obtain ⟨left, hl⟩ : ∃ left, (mid.run s).Leaves part left := by
          cases ht with
          | run h => exact h.exists_leaves
          | expire _ h => exact h.exists_leaves whole
        exact .within rfl h hl

theorem Loops.cycles {mid : Phase} {ticker : Ticker} (h : ph.Loops s calls (some mid))
    (hc : mid.Cycles s more ticker) : ph.Loops s (calls ++ more) (some (.resting ticker)) := by
  induction hc generalizing calls with
  | ended ticker => simpa using h
  | step _ ht _ ih =>
    rw [← List.append_assoc]
    exact ih (h.snoc ht)

theorem Cycles.rounds_eq_zero {ticker : Ticker} (h : ph.Cycles s calls ticker) :
    rounds calls = 0 := by
  induction h with
  | ended ticker => rfl
  | step hr ht _ ih => rw [rounds_append, ih, Phase.rounds_eq_zero hr ht.asks]

/-- Every phase but the first one goes on to the end of its cycle. -/
theorem completes_of_ne_launched {σ : Behaviour effects} {past : List (Call effects)} {n : Nat}
    (h : ph ≠ .launched) : ph.Completes s σ past n := by
  cases ph with
  | launched => exact absurd rfl h
  | begun ticker => exact completes_begun
  | listening ticker store queue deadline c => exact completes_listening deadline c
  | expired ticker store queue => exact completes_expired
  | closing ticker store => exact completes_closing
  | resting ticker => exact completes_resting

theorem Step.ne_launched (h : ph.Step s calls next) : ∀ ph' ∈ next, ph' ≠ .launched := by
  by_cases hr : ph.IsResting
  · intro ph' hp
    obtain ⟨ticker, rfl⟩ := (h.of_isResting hr).2 ph' hp
    exact nofun
  · rintro _ hp rfl
    obtain rfl := Option.mem_def.mp hp
    cases h.due_next hr

/-- A tick is looked for only when no start is due. -/
theorem Step.rounds_le (h : ph.Step s calls next) : rounds calls + due ph ≤ 1 := by
  by_cases resting : ph.IsResting
  · cases ph with
    | launched =>
      obtain ⟨now, rfl, -⟩ := calls_launched (h.runs rfl)
      exact Nat.le_refl 1
    | resting ticker =>
      obtain ⟨rfl, -⟩ | ⟨now, rfl, -⟩ := calls_resting (h.runs rfl)
      · exact Nat.zero_le 1
      · exact Nat.le_refl 1
    | _ => exact resting.elim
  · rw [rounds_eq_zero resting h.asks, Nat.zero_add, ← opens_eq_due resting]
    cases ph with
    | begun ticker => exact Nat.le_refl 1
    | _ => exact Nat.zero_le 1

/-- Once a phase has been begun, no tick is looked for in it. -/
theorem Step.rounds_rest {part rest : List (Call effects)} (h : ph.Step s (part ++ rest) next)
    (hp : part = [] → ∀ ticker, ph ≠ .resting ticker) : rounds rest = 0 := by
  have bound : rounds part + rounds rest + due ph ≤ 1 := rounds_append ▸ h.rounds_le
  by_cases resting : ph.IsResting
  · cases ph with
    | launched =>
      have starting : due (some .launched) = 1 := rfl
      omega
    | resting ticker =>
      cases part with
      | nil => exact absurd rfl (hp rfl ticker)
      | cons call part =>
        -- the tick is looked for in the first call of all
        rcases calls_resting (h.runs rfl) with ⟨hc, -⟩ | ⟨now, hc, -⟩
        · obtain ⟨-, hc⟩ := List.cons.inj hc
          obtain ⟨-, rfl⟩ := List.append_eq_nil_iff.mp hc
          rfl
        · obtain ⟨rfl, -⟩ := List.cons.inj hc
          have ticked : 1 ≤ rounds (⟨.rest ticker.deadline, some false⟩ :: part) :=
            List.countP_pos_iff.mpr ⟨_, List.mem_cons_self, rfl⟩
          omega
    | _ => exact resting.elim
  · have quiet := rounds_eq_zero resting h.asks
    rw [rounds_append] at quiet
    omega

/-- A phase that has been begun can be gone through with the answers of any behaviour. If it has a
deadline, that passes after so many calls. -/
theorem exists_step (σ : Behaviour effects) (past : List (Call effects)) (n : Nat)
    {part : List (Call effects)} {left : Prog (Option Phase)} (hl : (ph.run s).Leaves part left) :
    ∃ rest next, ph.Step s (part ++ rest) next ∧ σ.Gives past rest ∧
      ∀ call ∈ rest.take n, call.2.isSome := by
  cases hx : ph.expiry? with
  | none =>
    obtain ⟨rest, next, hr, hg⟩ := exists_runs σ past left
    exact ⟨rest, next, .run (hl.runs hr), hg,
      fun call hc => hr.isSome_of_mem call (List.mem_of_mem_take hc)⟩
  | some expiry =>
    rcases exists_runs_or_breaks σ past n left with ⟨rest, next, hr, hg, -⟩ | ⟨rest, hb, hg, hlen⟩
    · exact ⟨rest, next, .run (hl.runs hr), hg,
        fun call hc => hr.isSome_of_mem call (List.mem_of_mem_take hc)⟩
    · refine ⟨rest, some expiry.2, .expire hx (hl.breaks hb), hg, ?_⟩
      have early : rest.take n = rest.dropLast := by
        rw [List.dropLast_eq_take, hlen, Nat.add_sub_cancel]
      rw [early]
      exact hb.isSome_of_mem_dropLast

/-- In each round but the last one there has been a start, and in that one there is at most one. -/
theorem Stands.starts_le (h : Stands s calls) (hr : InRange s calls) :
    rounds calls ≤ starts calls ∧ starts calls ≤ rounds calls + 1 := by
  cases h with
  | ended h =>
    have counted := h.starts_eq hr
    have none_due : due none = 0 := rfl
    omega
  | @within done part ph left hc h hl =>
    subst hc
    obtain ⟨rest, next, step, -, -⟩ := exists_step quiet [] 0 hl
    have counted := h.starts_eq (inRange_append.mp hr).1
    have begun := step.starts_eq
    have ticked := step.rounds_le
    have opens := opens_le_due ph
    rw [starts_append] at begun
    rw [rounds_append] at ticked
    rw [starts_append, rounds_append]
    omega

/-- A loop that has made these calls goes on to the end of its cycle, and then it rests, if it has
not ended. Until then it looks for no other tick. -/
theorem Stands.completes (h : Stands s calls) (σ : Behaviour effects) (n : Nat) :
    ∃ more next, Phase.launched.Loops s (calls ++ more) next ∧
      (∀ ph ∈ next, ∃ ticker, ph = .resting ticker) ∧ σ.Gives calls more ∧
      (∀ call ∈ more.take n, call.2.isSome) ∧ rounds more = 0 := by
  cases h with
  | ended h => exact ⟨[], none, by simpa using h, nofun, trivial, by simp, rfl⟩
  | @within done part ph left hc h hl =>
    subst hc
    by_cases rests : part = [] ∧ ∃ ticker, ph = .resting ticker
    · obtain ⟨rfl, ticker, rfl⟩ := rests
      refine ⟨[], _, by simpa using h, ?_, trivial, by simp, rfl⟩
      exact fun ph hp => ⟨ticker, (Option.some.inj hp).symm⟩
    · obtain ⟨rest, next, step, given, answered⟩ := exists_step σ (done ++ part) n hl
      have quiet : rounds rest = 0 :=
        step.rounds_rest fun hp ticker hr => rests ⟨hp, ticker, hr⟩
      have loop : Phase.launched.Loops s (done ++ part ++ rest) next := by
        rw [List.append_assoc]
        exact h.snoc step
      cases next with
      | none => exact ⟨rest, none, loop, nofun, given, answered, quiet⟩
      | some ph' =>
        have goesOn : ph'.Completes s σ (done ++ part ++ rest) (n - rest.length) :=
          completes_of_ne_launched (step.ne_launched ph' rfl)
        obtain ⟨more, ticker, cycles, gives, answers⟩ := goesOn
        have both : σ.Gives (done ++ part) (rest ++ more) :=
          Behaviour.gives_append.mpr ⟨given, gives⟩
        refine ⟨rest ++ more, some (.resting ticker), ?_, ?_, both, ?_, ?_⟩
        · rw [← List.append_assoc]
          exact loop.cycles cycles
        · exact fun ph hp => ⟨ticker, (Option.some.inj hp).symm⟩
        · rw [List.take_append]
          exact List.forall_mem_append.mpr ⟨answered, answers⟩
        · rw [rounds_append, quiet, cycles.rounds_eq_zero]

end Phase
end GattSync.Resync
