import GattSync.Proofs.Cycle.Accesses
import GattSync.Proofs.Cycle.Strangers

/-!
# How a controller concludes

A controller works off a queue up to and including the first event that ends its cycle, or to the
end of the queue if there is none (`WorksOff`). Beside it someone waits for the word that the cycle
has ended. The word is given in the turn that ends the cycle, and in no other; when the controller
is gone without having given it, the one who waits hears that none will come (`heard`).

So the state that is left and what has been heard always agree (`concludes`): the end of the cycle
has been heard exactly when the target has disconnected. One equation carries this: what a turn adds
to the words given is what it changes about the controller having given one (`Step.words_eq`).
-/

namespace GattSync.Cycle

open Program

/-! ## The word -/

/-- How often the end of the cycle is told in these calls. -/
def words (calls : List (Call effects)) : Nat := calls.countP (·.1 = .finish)

/-- What is heard by the one who waits for the end of the cycle: the word, once it has been given,
and that there is none, when the controller is gone without it. Until then nothing is heard. -/
def heard (calls : List (Call effects)) (isGone : Bool) : Option Bool :=
  if 0 < words calls then some true else if isGone then some false else none

@[simp] theorem words_nil : words [] = 0 := rfl

@[simp] theorem words_append (first rest : List (Call effects)) :
    words (first ++ rest) = words first + words rest := List.countP_append

@[simp] theorem words_asked (r : Session.Request String) (x : r.Answer)
    (rest : List (Call effects)) : words (asked r x :: rest) = words rest := by
  simp [words, asked]

theorem words_eq_zero {calls : List (Call effects)} :
    words calls = 0 ↔ ∀ call ∈ calls, call.1 ≠ .finish := by
  simp [words, List.countP_eq_zero]

/-- Processing a connected peripheral leaves the word to its disconnection. -/
theorem words_process {plan : Plan} {p : Peripheral} {walk : List (Call effects)}
    (h : (plan.process p).Runs walk ()) : words walk = 0 := by
  obtain ⟨x, y, rest, rfl, accesses⟩ := runs_process plan p h
  refine words_eq_zero.mpr ?_
  simp only [List.mem_cons, forall_eq_or_imp]
  refine ⟨nofun, nofun, fun call hc finishes => ?_⟩
  have access := accesses call hc
  rw [finishes] at access
  exact access

namespace Controller

variable {plan : Plan} {c c' : Controller} {e : Event} {calls : List (Call effects)}
  {turns : List Turn} {events : List Event}

/-- A turn gives the word exactly if it brings the controller to have given it. -/
theorem Step.words_eq (h : c.Step plan e calls c') :
    c.isFinished.toNat + words calls = c'.isFinished.toNat := by
  cases h with
  | passedOver _ => rfl
  | searched _ x => cases x <;> simp [scanned]
  | paused _ x => simp
  | selected _ x => simp
  | refused _ x fault y => cases y <;> simp [scanned]
  | failed _ x => cases x <;> simp [scanned]
  | processed _ hw x => simp [words_process hw]
  | finished _ => cases c.isFinished <;> rfl

/-- And so do all turns together. -/
theorem History.words_eq (h : History plan c turns c') :
    c.isFinished.toNat + words (turns.flatMap (·.calls)) = c'.isFinished.toNat := by
  induction h with
  | nil => rfl
  | snoc _ ht ih => simp [← (runs_handle_iff.mp ht).words_eq, ← ih, Nat.add_assoc]

/-- Whatever a controller has been told, it has given the word once if its target has disconnected,
and otherwise not at all. -/
theorem History.words_initial (h : History plan {} turns c) :
    words (turns.flatMap (·.calls)) = if c.connection = .disconnected then 1 else 0 := by
  have count := h.words_eq
  rw [show Controller.isFinished {} = false from rfl, Bool.toNat_false, Nat.zero_add] at count
  rw [count]
  split
  · next hd => rw [h.coherent.finished_iff.mpr hd, Bool.toNat_true]
  · next hd => rw [h.coherent.isFinished_eq_false hd, Bool.toNat_false]

/-- The one who waits hears of the end of the cycle if there has been one. -/
theorem History.heard_eq (h : History plan {} turns c) (isGone : Bool) :
    heard (turns.flatMap (·.calls)) isGone =
      if c.connection = .disconnected then some true else if isGone then some false else none := by
  rw [heard, h.words_initial]
  split <;> simp_all

/-! ## Working off a queue -/

/-- From one state to another, a controller works off a queue: it takes the events in order, none
after the one that has ended its cycle, and all of them if none has. -/
structure WorksOff (plan : Plan) (c : Controller) (events : List Event) (turns : List Turn)
    (c' : Controller) : Prop where
  history : History plan c turns c'
  handled : turns.map (·.event) <+: events
  open_before_last : ∀ u ∈ turns.dropLast, u.after.connection ≠ .disconnected
  all_unless_ended : c'.connection ≠ .disconnected → turns.map (·.event) = events

theorem isDone_iff : c.connection.isDone = true ↔ c.connection = .disconnected := beq_iff_eq

theorem isDone_eq_false_iff : c.connection.isDone = false ↔ c.connection ≠ .disconnected := by
  rw [← Bool.not_eq_true, isDone_iff]

theorem worksOff_nil : WorksOff plan c [] [] c where
  history := .nil
  handled := List.prefix_rfl
  open_before_last := by simp
  all_unless_ended _ := rfl

/-- The first event ends the cycle. -/
theorem worksOff_ended (ht : (c.handle plan e).Runs calls c') (hd : c'.connection = .disconnected) :
    WorksOff plan c (e :: events) [⟨c, e, calls, c'⟩] c' where
  history := History.nil.snoc ht
  handled := by simp
  open_before_last := by simp
  all_unless_ended hn := absurd hd hn

/-- The first event does not end the cycle. -/
theorem WorksOff.cons {mid : Controller} (h : WorksOff plan mid events turns c')
    (ht : (c.handle plan e).Runs calls mid) (hd : mid.connection ≠ .disconnected) :
    WorksOff plan c (e :: events) (⟨c, e, calls, mid⟩ :: turns) c' where
  history := History.cons_iff.mpr ⟨rfl, ht, h.history⟩
  handled := by simpa using h.handled
  open_before_last := by
    intro u hu
    cases turns with
    | nil => cases hu
    | cons v turns =>
      rw [List.dropLast_cons_cons] at hu
      rcases List.mem_cons.mp hu with rfl | hu
      · exact hd
      · exact h.open_before_last u hu
  all_unless_ended hn := by simp [h.all_unless_ended hn]

/-- A controller that works off a queue has a turn for its first event, and is done after it or
works off the others. -/
theorem WorksOff.cases (h : WorksOff plan c (e :: events) turns c')
    (hd : c.connection ≠ .disconnected) :
    ∃ calls mid rest, turns = ⟨c, e, calls, mid⟩ :: rest ∧ (c.handle plan e).Runs calls mid ∧
      (mid.connection = .disconnected ∧ rest = [] ∧ c' = mid ∨
        mid.connection ≠ .disconnected ∧ WorksOff plan mid events rest c') := by
  cases turns with
  | nil =>
    obtain rfl := h.history.eq_of_nil rfl
    cases h.all_unless_ended hd
  | cons u turns =>
    obtain ⟨rfl, ht, hh⟩ := History.cons_iff.mp h.history
    have handled := h.handled
    rw [List.map_cons, List.cons_prefix_cons] at handled
    obtain ⟨rfl, handled⟩ := handled
    refine ⟨u.calls, u.after, turns, rfl, ht, ?_⟩
    by_cases hu : u.after.connection = .disconnected
    · -- a turn after this one would come after the end
      obtain rfl : turns = [] := by
        cases turns with
        | nil => rfl
        | cons v turns => exact absurd hu (h.open_before_last u (by simp))
      exact .inl ⟨hu, rfl, hh.eq_of_nil rfl⟩
    · refine .inr ⟨hu, hh, handled, fun v hv => ?_, fun hn => ?_⟩
      · cases turns with
        | nil => cases hv
        | cons w turns => exact h.open_before_last v (by simp [hv])
      · simpa using h.all_unless_ended hn

/-- The program of a controller works the queue off, and there are no other ways to do so. -/
theorem runs_run_iff (hd : c.connection ≠ .disconnected) :
    (run plan c events).Runs calls c' ↔
      ∃ turns, WorksOff plan c events turns c' ∧ turns.flatMap (·.calls) = calls := by
  induction events generalizing c calls with
  | nil =>
    constructor
    · intro h
      obtain ⟨rfl, rfl⟩ := runs_done_iff.mp h
      exact ⟨[], worksOff_nil, rfl⟩
    · rintro ⟨turns, h, rfl⟩
      obtain rfl : turns = [] := by simpa using h.handled
      obtain rfl := h.history.eq_of_nil rfl
      exact .done _
  | cons e events ih =>
    constructor
    · intro h
      obtain ⟨first, mid, rest, rfl, ht, hr⟩ := runs_bind_iff.mp h
      by_cases hm : mid.connection = .disconnected
      · rw [if_pos (isDone_iff.mpr hm)] at hr
        obtain ⟨rfl, rfl⟩ := runs_done_iff.mp hr
        exact ⟨_, worksOff_ended ht hm, by simp⟩
      · rw [if_neg (mt isDone_iff.mp hm)] at hr
        obtain ⟨turns, works, rfl⟩ := (ih hm).mp hr
        exact ⟨_, works.cons ht hm, by simp⟩
    · rintro ⟨turns, h, rfl⟩
      obtain ⟨first, mid, rest, rfl, ht, ends | goesOn⟩ := h.cases hd
      · obtain ⟨hm, rfl, rfl⟩ := ends
        refine runs_bind_iff.mpr ⟨first, _, [], by simp, ht, ?_⟩
        rw [if_pos (isDone_iff.mpr hm)]
        exact .done _
      · obtain ⟨hm, works⟩ := goesOn
        refine runs_bind_iff.mpr ⟨first, mid, _, rfl, ht, ?_⟩
        rw [if_neg (mt isDone_iff.mp hm)]
        exact (ih hm).mpr ⟨rest, works, rfl⟩

/-- What a controller does with the events that are in a queue does not depend on those that come
later. Unless its cycle has ended it goes on with them. -/
theorem run_append (plan : Plan) {c : Controller} (hd : c.connection ≠ .disconnected)
    (events more : List Event) :
    run plan c (events ++ more) =
      (run plan c events).bind fun c =>
        if c.connection.isDone then done c else run plan c more := by
  induction events generalizing c with
  | nil => simp [run, isDone_eq_false_iff.mpr hd]
  | cons e events ih =>
    show (c.handle plan e).bind _ = ((c.handle plan e).bind _).bind _
    rw [bind_assoc]
    refine congrArg (c.handle plan e).bind (funext fun mid => ?_)
    by_cases hm : mid.connection = .disconnected
    · simp [isDone_iff.mpr hm]
    · simp [isDone_eq_false_iff.mpr hm, ih hm]

/-! ## What is heard of a queue that has been worked off -/

variable {plan : Plan}

theorem words_of_runs (h : (run plan {} events).Runs calls c) :
    words calls = if c.connection = .disconnected then 1 else 0 := by
  obtain ⟨turns, works, rfl⟩ := (runs_run_iff (by decide)).mp h
  exact works.history.words_initial

theorem heard_of_runs (h : (run plan {} events).Runs calls c) (isGone : Bool) :
    heard calls isGone =
      if c.connection = .disconnected then some true else if isGone then some false else none := by
  obtain ⟨turns, works, rfl⟩ := (runs_run_iff (by decide)).mp h
  exact works.history.heard_eq isGone

theorem words_le_one_of_runs (h : (run plan {} events).Runs calls c) : words calls ≤ 1 := by
  rw [words_of_runs h]
  split <;> decide

/-- Also a controller that is given up while it waits for an answer has given the word once at
most: it could have gone on. -/
theorem words_le_one_of_breaks (h : (run plan {} events).Breaks calls) : words calls ≤ 1 := by
  obtain ⟨made, op, rfl⟩ := h.eq_append
  obtain ⟨x, rest, c, whole⟩ := h.exists_runs refusing
  calc
    words (made ++ [⟨op, none⟩]) ≤ words (made ++ ⟨op, some x⟩ :: rest) := by
      simp only [words, List.countP_append, List.countP_cons, List.countP_nil]
      omega
    _ ≤ 1 := words_le_one_of_runs whole

/-- The cycle has not ended before any turn. -/
theorem WorksOff.before_open (h : WorksOff plan {} events turns c) {first rest : List Turn}
    {u : Turn} (hs : turns = first ++ u :: rest) : u.before.connection ≠ .disconnected := by
  have sofar := (h.history.split hs).1
  rcases List.eq_nil_or_concat first with rfl | ⟨init, v, rfl⟩
  · rw [sofar.eq_of_nil rfl]
    decide
  · obtain ⟨-, -, nothing⟩ := sofar.split List.concat_eq_append
    rw [nothing.eq_of_nil rfl]
    exact h.open_before_last v (by simp [hs, List.dropLast_append_of_ne_nil])

/-- The cycle ends with no turn but the last one. -/
theorem WorksOff.after_ended_iff (h : WorksOff plan {} events turns c) {first rest : List Turn}
    {u : Turn} (hs : turns = first ++ u :: rest) :
    u.after.connection = .disconnected ↔ rest = [] ∧ c.connection = .disconnected := by
  have later := (h.history.split hs).2.2
  constructor
  · intro hu
    obtain rfl : rest = [] := by
      by_contra hr
      exact h.open_before_last u (by simp [hs, List.dropLast_cons_of_ne_nil hr]) hu
    exact ⟨rfl, later.eq_of_nil rfl ▸ hu⟩
  · rintro ⟨rfl, hc⟩
    exact later.eq_of_nil rfl ▸ hc

/-- The word is given in the turn that ends the cycle. -/
theorem WorksOff.words_eq (h : WorksOff plan {} events turns c) {first rest : List Turn}
    {u : Turn} (hs : turns = first ++ u :: rest) :
    words u.calls = if rest = [] ∧ c.connection = .disconnected then 1 else 0 := by
  obtain ⟨sofar, step, -⟩ := h.history.split hs
  have before := sofar.coherent.isFinished_eq_false (h.before_open hs)
  have after := (step.coherent sofar.coherent).finished_iff
  have count := step.words_eq
  rw [before, Bool.toNat_false, Nat.zero_add] at count
  simp only [← h.after_ended_iff hs, ← after, count]
  cases u.after.isFinished <;> rfl

/-- What becomes of a controller that is given these events, and of the one who waits for the end of
its cycle. -/
structure Concludes (plan : Plan) (events : List Event) : Prop where
  /-- Once the queue is closed behind the events, the controller returns, whatever it is
  answered. -/
  returns (σ : Behaviour effects) (past : List (Call effects)) :
    ∃ calls c, (run plan {} events).Runs calls c ∧ σ.Gives past calls
  works {calls : List (Call effects)} {c : Controller} : (run plan {} events).Runs calls c ↔
    ∃ turns, WorksOff plan {} events turns c ∧ turns.flatMap (·.calls) = calls
  /-- The word is given in the turn that ends the cycle, which is the last one. -/
  word {turns : List Turn} {c : Controller} (h : WorksOff plan {} events turns c)
    {first rest : List Turn} {u : Turn} (hs : turns = first ++ u :: rest) :
    words u.calls = if rest = [] ∧ c.connection = .disconnected then 1 else 0
  /-- When the controller has returned, the one who waits hears whether the cycle has ended. -/
  told {calls : List (Call effects)} {c : Controller} (h : (run plan {} events).Runs calls c) :
    heard calls true = some (c.connection == .disconnected)
  once {calls : List (Call effects)}
    (h : (∃ c, (run plan {} events).Runs calls c) ∨ (run plan {} events).Breaks calls) :
    words calls ≤ 1
  /-- If there are more events, the controller does the same with these, and goes on with the others
  unless the cycle has ended. -/
  goesOn (more : List Event) : run plan {} (events ++ more) =
    (run plan {} events).bind fun c => if c.connection.isDone then done c else run plan c more

theorem concludes (plan : Plan) (events : List Event) : Concludes plan events where
  returns σ past := exists_runs σ past _
  works := runs_run_iff (by decide)
  word h := h.words_eq
  told h := by
    rw [heard_of_runs h]
    split <;> simp [*]
  once h := by
    rcases h with ⟨c, h⟩ | h
    · exact words_le_one_of_runs h
    · exact words_le_one_of_breaks h
  goesOn more := run_append plan (by decide) events more

end Controller
end GattSync.Cycle
