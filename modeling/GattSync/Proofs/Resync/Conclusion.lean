import GattSync.Proofs.Cycle.Conclusion
import GattSync.Proofs.Resync.Span

/-!
# What a loop hears of its cycle

While a loop listens, it gives the events that it receives to its controller, one after the other
(`Heeds`). At every moment the controller has been run on the events received so far, whatever comes
after them and also if nothing ever does (`Heeds.runs_received`). The loop stops listening when the
controller has returned or when the deadline passes. In the first case it knows the state that the
controller was left in and whether the end of the cycle has been told, and the two agree
(`conclusions`).
-/

namespace GattSync.Resync

open Program GattSync.Cycle

/-! ## The calls of a cycle among those of its loop -/

/-- A call of a cycle that records into this store. -/
def onStore (store : Status.Store) (call : Call Cycle.effects) : Call effects :=
  ⟨.cycle store call.1, call.2⟩

/-- The call of the cycle that this is. -/
def performed? : Call effects → Option (Call Cycle.effects)
  | ⟨.cycle _ effect, x⟩ => some ⟨effect, x⟩
  | _ => none

/-- The calls of a cycle. -/
def performed (calls : List (Call effects)) : List (Call Cycle.effects) :=
  calls.filterMap performed?

/-- The event that is received with this call. -/
def received? : Call effects → Option Event
  | ⟨.receive _, event⟩ => event.join
  | _ => none

/-- The events that are received, in order. -/
def received (calls : List (Call effects)) : List Event := calls.filterMap received?

@[simp] theorem performed_append (calls more : List (Call effects)) :
    performed (calls ++ more) = performed calls ++ performed more := List.filterMap_append

@[simp] theorem received_append (calls more : List (Call effects)) :
    received (calls ++ more) = received calls ++ received more := List.filterMap_append

@[simp] theorem performed_onStore (store : Status.Store) (calls : List (Call Cycle.effects)) :
    performed (calls.map (onStore store)) = calls := by
  induction calls with
  | nil => rfl
  | cons call calls ih => exact congrArg (call :: ·) ih

@[simp] theorem received_onStore (store : Status.Store) (calls : List (Call Cycle.effects)) :
    received (calls.map (onStore store)) = [] := by
  induction calls with
  | nil => rfl
  | cons call calls ih => exact ih

/-- The calls with which a loop has its controller handle an event, and what it does then. -/
def handling (queue : Session.Queue) (store : Status.Store) (event : Event)
    (made : List (Call Cycle.effects)) (rest : List (Call effects)) : List (Call effects) :=
  ⟨.receive queue, some (some event)⟩ :: (made.map (onStore store) ++ rest)

@[simp] theorem received_handling (queue : Session.Queue) (store : Status.Store) (event : Event)
    (made : List (Call Cycle.effects)) (rest : List (Call effects)) :
    received (handling queue store event made rest) = event :: received rest := by
  show event :: received (made.map (onStore store) ++ rest) = _
  simp

@[simp] theorem performed_handling (queue : Session.Queue) (store : Status.Store) (event : Event)
    (made : List (Call Cycle.effects)) (rest : List (Call effects)) :
    performed (handling queue store event made rest) = made ++ performed rest := by
  show performed (made.map (onStore store) ++ rest) = _
  simp

section Within

variable {α : Type} {store : Status.Store} {p : Cycle.Prog α} {calls : List (Call effects)}

/-- A loop does with a store what the program of a cycle does. -/
theorem runs_within_iff {a : α} :
    (within store p).Runs calls a ↔ ∃ made, p.Runs made a ∧ calls = made.map (onStore store) := by
  induction p generalizing calls with
  | done b =>
    show (done b).Runs calls a ↔ _
    constructor
    · intro h
      obtain ⟨rfl, rfl⟩ := runs_done_iff.mp h
      exact ⟨[], .done _, rfl⟩
    · rintro ⟨_, ⟨⟩, rfl⟩
      exact .done a
  | ask op next ih =>
    show ((perform (S := effects) (.cycle store op)).bind fun x =>
      within store (next x)).Runs calls a ↔ _
    rw [runs_perform_bind_iff]
    constructor
    · rintro ⟨x, rest, rfl, h⟩
      obtain ⟨made, hm, rfl⟩ := (ih x).mp h
      exact ⟨⟨op, some x⟩ :: made, Runs.ask (S := Cycle.effects) x hm, rfl⟩
    · rintro ⟨_, h, rfl⟩
      obtain ⟨x, made, rfl, hm⟩ := runs_ask_iff.mp h
      exact ⟨x, _, rfl, (ih x).mpr ⟨made, hm, rfl⟩⟩

theorem exists_breaks_of_within (h : (within store p).Breaks calls) :
    ∃ made, p.Breaks made ∧ calls = made.map (onStore store) := by
  induction p generalizing calls with
  | done b => cases h
  | ask op next ih =>
    have asked : (Program.ask (S := effects) (.cycle store op) fun x =>
      within store (next x)).Breaks calls := h
    rcases breaks_ask_iff.mp asked with rfl | ⟨x, rest, rfl, later⟩
    · exact ⟨[⟨op, none⟩], .pending op next, rfl⟩
    · obtain ⟨made, hm, rfl⟩ := ih x later
      exact ⟨⟨op, some x⟩ :: made, Breaks.ask (S := Cycle.effects) x hm, rfl⟩

end Within

/-! ## Listening -/

section Listening

variable {s : Settings} {ticker : Ticker} {store : Status.Store} {queue : Session.Queue}
  {deadline : Duration} {c c' : Controller} {calls more : List (Call effects)} {next : Option Phase}

/-- No event is received with these calls, and the cycle does nothing. -/
def AreIdle (calls : List (Call effects)) : Prop := received calls = [] ∧ performed calls = []

/-- A listening loop that comes to the end of its phase has found the queue at its end, or it has
had its controller handle an event. -/
theorem runs_listening
    (h : (Phase.run s (.listening ticker store queue deadline c)).Runs calls next) :
    calls = [⟨.receive queue, some none⟩, ⟨.conclude queue, some ()⟩] ∧
        next = some (.closing ticker store) ∨
      ∃ event made rest c', calls = handling queue store event made rest ∧ AreIdle rest ∧
        (c.handle s.plan event).Runs made c' ∧
        next = some (if c'.connection.isDone then .closing ticker store
          else .listening ticker store queue deadline c') := by
  obtain ⟨event?, _, rfl, hr⟩ := runs_perform_bind_iff.mp h
  cases event? with
  | none =>
    obtain ⟨_, _, rfl, hd⟩ := runs_perform_bind_iff.mp hr
    obtain ⟨rfl, rfl⟩ := runs_done_iff.mp hd
    exact .inl ⟨rfl, rfl⟩
  | some event =>
    obtain ⟨_, c', rest, rfl, hw, hl⟩ := runs_bind_iff.mp hr
    obtain ⟨made, handled, rfl⟩ := runs_within_iff.mp hw
    refine .inr ⟨event, made, rest, c', rfl, ?_⟩
    split at hl
    · next hd =>
      obtain ⟨_, _, rfl, hn⟩ := runs_perform_bind_iff.mp hl
      obtain ⟨rfl, rfl⟩ := runs_done_iff.mp hn
      exact ⟨⟨rfl, rfl⟩, handled, by rw [if_pos hd]⟩
    · next hd =>
      obtain ⟨rfl, rfl⟩ := runs_done_iff.mp hl
      exact ⟨⟨rfl, rfl⟩, handled, by rw [if_neg hd]⟩

/-- A listening loop is given up while it waits for an event or has found the queue at its end, or
else while its controller handles an event or has just handled it. -/
theorem breaks_listening
    (h : (Phase.run s (.listening ticker store queue deadline c)).Breaks calls) :
    AreIdle calls ∨
      ∃ event made rest, calls = handling queue store event made rest ∧ AreIdle rest ∧
        ((c.handle s.plan event).Breaks made ∨ ∃ c', (c.handle s.plan event).Runs made c') := by
  rcases breaks_ask_iff.mp h with rfl | ⟨event?, rest, rfl, hb⟩
  · exact .inl ⟨rfl, rfl⟩
  rw [done_bind] at hb
  cases event? with
  | none =>
    rcases breaks_ask_iff.mp hb with rfl | ⟨_, _, rfl, hd⟩
    · exact .inl ⟨rfl, rfl⟩
    · cases hd
  | some event =>
    refine .inr ⟨event, ?_⟩
    rcases breaks_bind_iff.mp hb with hw | ⟨_, c', ending, rfl, hw, hl⟩
    · obtain ⟨made, broken, rfl⟩ := exists_breaks_of_within hw
      exact ⟨made, [], congrArg _ (List.append_nil _).symm, ⟨rfl, rfl⟩, .inl broken⟩
    · obtain ⟨made, handled, rfl⟩ := runs_within_iff.mp hw
      refine ⟨made, ending, rfl, ?_, .inr ⟨c', handled⟩⟩
      split at hl
      · rcases breaks_ask_iff.mp hl with rfl | ⟨_, _, rfl, hd⟩
        · exact ⟨rfl, rfl⟩
        · cases hd
      · cases hl

/-- A loop listens, and its controller comes from one state to another. -/
inductive Heeds (s : Settings) (ticker : Ticker) (store : Status.Store) (queue : Session.Queue)
    (deadline : Duration) (c : Controller) : List (Call effects) → Controller → Prop
  | nil : Heeds s ticker store queue deadline c [] c
  | snoc {calls more : List (Call effects)} {mid c' : Controller}
      (h : Heeds s ticker store queue deadline c calls mid)
      (ht : (Phase.run s (.listening ticker store queue deadline mid)).Runs more
        (some (.listening ticker store queue deadline c'))) :
    Heeds s ticker store queue deadline c (calls ++ more) c'

/-- The events received so far with one more behind them: the controller goes on. -/
theorem run_snoc (plan : Cycle.Plan) (events : List Event) (event : Event)
    {made : List (Call Cycle.effects)} (h : (Controller.run plan {} events).Runs made c)
    (hd : c.connection ≠ .disconnected) :
    (∀ {rest c'}, (c.handle plan event).Runs rest c' →
      (Controller.run plan {} (events ++ [event])).Runs (made ++ rest) c') ∧
    ∀ {rest}, (c.handle plan event).Breaks rest →
      (Controller.run plan {} (events ++ [event])).Breaks (made ++ rest) := by
  rw [Controller.run_append plan (by decide)]
  constructor
  · intro rest c' handled
    refine runs_bind_iff.mpr ⟨made, c, rest, rfl, h, ?_⟩
    rw [if_neg (mt Controller.isDone_iff.mp hd)]
    refine runs_bind_iff.mpr ⟨rest, c', [], by simp, handled, ?_⟩
    split <;> exact .done c'
  · intro rest broken
    refine breaks_bind_iff.mpr (.inr ⟨made, c, rest, rfl, h, ?_⟩)
    rw [if_neg (mt Controller.isDone_iff.mp hd)]
    exact breaks_bind_iff.mpr (.inl broken)

/-- While a loop listens, its controller has been run on the events received so far, and has not
returned. -/
theorem Heeds.runs_received (h : Heeds s ticker store queue deadline {} calls c) :
    (Controller.run s.plan {} (received calls)).Runs (performed calls) c ∧
      c.connection ≠ .disconnected := by
  induction h with
  | nil => exact ⟨.done _, by decide⟩
  | snoc _ ht ih =>
    obtain ⟨sofar, hd⟩ := ih
    rcases runs_listening ht with ⟨-, hn⟩ | ⟨event, made, rest, c', rfl, idle, handled, hn⟩
    · cases hn
    · split at hn
      · cases hn
      · next unended =>
        cases hn
        have runs := (run_snoc s.plan _ event sofar hd).1 handled
        exact ⟨by simpa [idle.1, idle.2] using runs, mt Controller.isDone_iff.mpr unended⟩

/-- When a loop stops listening before its deadline, its controller has returned: it has been run on
the events that were received, and the queue has been closed behind them unless the cycle has
ended. -/
theorem Heeds.runs_closed (h : Heeds s ticker store queue deadline {} calls c)
    (ht : (Phase.run s (.listening ticker store queue deadline c)).Runs more
      (some (.closing ticker store))) :
    ∃ c', (Controller.run s.plan {} (received (calls ++ more))).Runs
        (performed (calls ++ more)) c' ∧
      (c'.connection ≠ .disconnected → ⟨.receive queue, some none⟩ ∈ more) := by
  obtain ⟨sofar, hd⟩ := h.runs_received
  rcases runs_listening ht with ⟨rfl, -⟩ | ⟨event, made, rest, c', rfl, idle, handled, hn⟩
  · refine ⟨c, ?_, fun _ => by simp⟩
    have ending : AreIdle [⟨.receive queue, some none⟩, ⟨.conclude queue, some ()⟩] := ⟨rfl, rfl⟩
    simpa [ending.1, ending.2] using sofar
  · have runs := (run_snoc s.plan _ event sofar hd).1 handled
    refine ⟨c', by simpa [idle.1, idle.2] using runs, fun unended => ?_⟩
    rw [if_neg (mt Controller.isDone_iff.mp unended)] at hn
    cases hn

/-- When a loop is given up at its deadline, its controller may have been given up in the middle of
an event. -/
theorem Heeds.runs_or_breaks (h : Heeds s ticker store queue deadline {} calls c)
    (hb : (Phase.run s (.listening ticker store queue deadline c)).Breaks more) :
    (∃ c', (Controller.run s.plan {} (received (calls ++ more))).Runs
        (performed (calls ++ more)) c') ∨
      (Controller.run s.plan {} (received (calls ++ more))).Breaks (performed (calls ++ more)) := by
  obtain ⟨sofar, hd⟩ := h.runs_received
  rcases breaks_listening hb with idle | ⟨event, made, rest, rfl, idle, broken | ⟨c', handled⟩⟩
  · exact .inl ⟨c, by simpa [idle.1, idle.2] using sofar⟩
  · have breaks := (run_snoc s.plan _ event sofar hd).2 broken
    exact .inr (by simpa [idle.1, idle.2] using breaks)
  · have runs := (run_snoc s.plan _ event sofar hd).1 handled
    exact .inl ⟨c', by simpa [idle.1, idle.2] using runs⟩

/-- An event that does not end the cycle, or one that does, can be handled while listening. -/
theorem exists_runs_listening {event : Event} {made : List (Call Cycle.effects)}
    (h : (c.handle s.plan event).Runs made c') :
    ∃ rest, AreIdle rest ∧ (Phase.run s (.listening ticker store queue deadline c)).Runs
      (handling queue store event made rest) (some (if c'.connection.isDone then
        .closing ticker store else .listening ticker store queue deadline c')) := by
  have handled : (within store (c.handle s.plan event)).Runs (made.map (onStore store)) c' :=
    runs_within_iff.mpr ⟨made, h, rfl⟩
  by_cases hd : c'.connection.isDone
  · refine ⟨[⟨.conclude queue, some ()⟩], ⟨rfl, rfl⟩, ?_⟩
    refine runs_perform_bind_iff.mpr ⟨some event, _, rfl, ?_⟩
    refine runs_bind_iff.mpr ⟨_, c', _, rfl, handled, ?_⟩
    rw [if_pos hd, if_pos hd]
    exact runs_perform_bind_iff.mpr ⟨(), [], rfl, .done _⟩
  · refine ⟨[], ⟨rfl, rfl⟩, ?_⟩
    refine runs_perform_bind_iff.mpr ⟨some event, _, rfl, ?_⟩
    refine runs_bind_iff.mpr ⟨_, c', _, rfl, handled, ?_⟩
    rw [if_neg hd, if_neg hd]
    exact .done _

/-- A loop can listen to any history that has not come to the end of its cycle. -/
theorem exists_heeds {turns : List Controller.Turn} (h : Controller.History s.plan {} turns c)
    (hd : c.connection ≠ .disconnected) :
    ∃ calls, Heeds s ticker store queue deadline {} calls c ∧
      received calls = turns.map (·.event) := by
  induction h with
  | nil => exact ⟨[], .nil, rfl⟩
  | @snoc turns before after e made h ht ih =>
    have goesOn : Controller.History s.plan before [⟨before, e, made, after⟩] after :=
      Controller.History.nil.snoc ht
    obtain ⟨calls, heeds, hr⟩ := ih (mt (goesOn.connected_or_disconnected h.coherent).2 hd)
    obtain ⟨rest, idle, listens⟩ := exists_runs_listening ht
    rw [if_neg (mt Controller.isDone_iff.mp hd)] at listens
    exact ⟨_, heeds.snoc listens, by simp [hr, idle.1]⟩

end Listening

/-! ## What is known when a controller has returned -/

/-- Whatever events a controller is given, it works them off up to the end of its cycle, and it has
told the one who waits if and only if it has come to that end. So while a loop listens to it the
word has not been given; when the loop stops listening because the controller has returned, it has
heard whether the cycle has ended, in agreement with the state that the controller was left in, and
if it has not, the queue was closed; and when the loop gives the controller up, the word has been
given once at most. -/
theorem conclusions (plan : Cycle.Plan) :
    (∀ events, Controller.Concludes plan events) ∧
    ∀ s ticker store queue deadline calls c, s.plan = plan →
      Heeds s ticker store queue deadline {} calls c →
      (∀ isGone, heard (performed calls) isGone = if isGone then some false else none) ∧
      (∀ more, (Phase.run s (.listening ticker store queue deadline c)).Runs more
          (some (.closing ticker store)) →
        ∃ c' told,
          (Controller.run plan {} (received (calls ++ more))).Runs (performed (calls ++ more)) c' ∧
          heard (performed (calls ++ more)) true = some told ∧
          (told = true ↔ c'.connection = .disconnected) ∧
          (told = false → ⟨.receive queue, some none⟩ ∈ more)) ∧
      ∀ more, (Phase.run s (.listening ticker store queue deadline c)).Breaks more →
        words (performed (calls ++ more)) ≤ 1 := by
  refine ⟨Controller.concludes plan, ?_⟩
  rintro s ticker store queue deadline calls c rfl heeds
  refine ⟨fun isGone => ?_, fun more ht => ?_, fun more hb => ?_⟩
  · obtain ⟨sofar, hd⟩ := heeds.runs_received
    rw [Controller.heard_of_runs sofar, if_neg hd]
  · obtain ⟨c', runs, closed⟩ := heeds.runs_closed ht
    refine ⟨c', c'.connection == .disconnected, runs, (Controller.concludes _ _).told runs, ?_, ?_⟩
    · exact beq_iff_eq
    · intro untold
      exact closed (by simpa using untold)
  · have runs_or_breaks := heeds.runs_or_breaks hb
    exact (Controller.concludes _ _).once runs_or_breaks

/-- What a loop is given that looks for the lamp. -/
def Settings.lamp : Settings := ⟨{}, Cycle.Plan.lamp.spec, {}⟩

/-- The lamp has been connected to, and disconnects: the loop hears that the cycle has ended. -/
theorem conclusions_lamp :
    ∃ calls more c c', Heeds .lamp ⟨.zero, .zero⟩ 0 0 .zero {} calls c ∧
      (Phase.run .lamp (.listening ⟨.zero, .zero⟩ 0 0 .zero c)).Runs more
        (some (.closing ⟨.zero, .zero⟩ 0)) ∧
      (Controller.run Settings.lamp.plan {} (received (calls ++ more))).Runs
        (performed (calls ++ more)) c' ∧
      heard (performed (calls ++ more)) true = some true ∧ c'.connection = .disconnected := by
  obtain ⟨turns, history⟩ := Controller.exists_history_connected Settings.lamp.plan nameless
    { localName := "Lamp" } (by decide)
  obtain ⟨calls, heeds, -⟩ := exists_heeds history (by decide)
  have ends : Controller.Step Settings.lamp.plan
      { connection := .connected, target := some nameless } (.disconnected nameless none)
      [⟨.finish, some ()⟩] _ := .finished (by decide)
  obtain ⟨rest, idle, closes⟩ := exists_runs_listening ends.runs_handle
  obtain ⟨c', told, runs, hears, agree, -⟩ :=
    ((conclusions Settings.lamp.plan).2 _ _ _ _ _ _ _ rfl heeds).2.1 _ closes
  have finished : words [⟨.finish, some ()⟩] = 1 := rfl
  have word : heard (performed (calls ++ handling 0 0 (.disconnected nameless none)
      [⟨.finish, some ()⟩] rest)) true = some true := by
    simp [heard, idle.2, finished]
  obtain rfl : told = true := Option.some.inj (hears.symm.trans word)
  exact ⟨calls, _, _, c', heeds, closes, runs, word, agree.mp rfl⟩

end GattSync.Resync
