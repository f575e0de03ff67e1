import GattSync.Proofs.Device.Story
import GattSync.Proofs.Resync.Rounds
import Mathlib.Data.List.Induction

/-!
# How loops come to their end

A loop is told to stop when a call that changes the lifecycle has its turn, or when the device is
given up (`IsSignal`). It looks at that only between two cycles. So whenever it is told, it finishes
the cycle that it is in, its first one at least, and begins no other; and as long as it is not told
it goes on to one cycle after the other, whatever fails (`loops_finish`).

That the right loop is told is an invariant: a loop that has not been told is the one that the
device can tell (`IsTold`). It holds also when calls are abandoned, though then the loop that is
told may not be waited for.
-/

namespace GattSync

open Program

namespace Device

open Resync

variable {may : Device → Nat → Prop} {identity : DeviceIdentity} {config : SyncConfig}
  {hs past before after more : List Happening} {d d' : Device} {x : Happening} {k : Nat}

/-! ## Telling a loop to stop -/

/-- With this, the device tells its loop to stop. -/
def IsSignal (d : Device) (x : Happening) : Prop :=
  x = .disposed ∨ x = .granted ∧ ∃ p rest, d.line = p :: rest ∧ p.progress = .inLine

theorem isStopped_stop_eq (d : Device) (k : Nat) :
    d.stop.isStopped k = (d.isStopped k || d.signal == some k) := by
  unfold stop
  cases d.signal with
  | none => simp
  | some loop =>
    simp only [isStopped, List.getElem?_modify]
    by_cases h : loop = k <;> cases d.loops[k]? <;> simp [h]

theorem isStopped_spawn (spec : DeviceSpec) (initial : Status.Snapshot) (k : Nat) :
    (d.spawn spec initial).isStopped k = if k = d.loops.length then false else d.isStopped k := by
  simp only [spawn, isStopped, List.getElem?_append]
  rcases Nat.lt_trichotomy k d.loops.length with earlier | new | later
  · simp [earlier, Nat.ne_of_lt earlier]
  · simp [new]
  · have none_new : [({ spec, initial } : Loop)][k - d.loops.length]? = none :=
      List.getElem?_eq_none (Nat.sub_pos_of_lt later)
    simp [Nat.not_lt_of_gt later, Nat.ne_of_gt later, none_new]

theorem isStopped_endLoop (loop : Nat) : (d.endLoop loop).isStopped k = d.isStopped k := by
  simp only [endLoop, isStopped, List.getElem?_modify]
  by_cases h : loop = k <;> cases d.loops[k]? <;> simp [h]

/-- At a signal the loop that the device can tell is told to stop. -/
theorem Happens.isStopped_of_signal (hx : Happens hs d x d') (h : d.IsSignal x) (k : Nat) :
    d'.isStopped k = d.stop.isStopped k := by
  rcases h with rfl | ⟨rfl, ⟨caller, call, progress⟩, rest, hl, rfl⟩
  · cases hx
    rfl
  · cases hx
    simp only [grant, hl, isStopped]

/-- Without one, nothing changes for the loops that are there. -/
theorem Happens.isStopped_of_not_signal (hx : Happens hs d x d') (h : ¬ d.IsSignal x)
    (hk : k < d.loops.length) : d'.isStopped k = d.isStopped k := by
  cases hx with
  | entered => rfl
  | granted =>
    unfold grant
    split
    · rename_i hl
      exact absurd (.inr ⟨rfl, _, _, hl, rfl⟩) h
    · rfl
  | @returned p rest hl =>
    obtain ⟨caller, call, progress⟩ := p
    cases call with
    | shutdown => simp only [complete, hl, isStopped]
    | configure spec initial =>
      have spawned : d.complete.isStopped k = (d.spawn spec initial).isStopped k := by
        simp only [complete, hl, isStopped]
      rw [spawned, isStopped_spawn, if_neg (Nat.ne_of_lt hk)]
  | asked _ _ _ hv => simp only [isStopped, hv.unchanged.2]
  | ended => exact isStopped_endLoop _
  | disposed => exact absurd (.inl rfl) h

/-- A loop that has been told to stop stays so. -/
theorem Happens.isStopped (hx : Happens hs d x d') (hk : k < d.loops.length)
    (h : d.isStopped k) : d'.isStopped k := by
  by_cases hs : d.IsSignal x
  · rw [hx.isStopped_of_signal hs, isStopped_stop_eq, h, Bool.true_or]
  · rw [hx.isStopped_of_not_signal hs hk, h]

theorem Happens.length_loops_le (hx : Happens hs d x d') : d.loops.length ≤ d'.loops.length := by
  cases hx with
  | granted =>
    unfold grant
    split
    · exact Nat.le_of_eq length_loops_stop.symm
    · exact Nat.le_refl _
  | @returned p rest hl =>
    obtain ⟨caller, call, progress⟩ := p
    cases call <;> simp [complete, hl]
  | asked _ _ _ hv => exact Nat.le_of_eq (congrArg List.length hv.unchanged.2.symm)
  | disposed => exact Nat.le_of_eq length_loops_stop.symm
  | _ => simp [enter, endLoop]

/-- A loop that has not been told to stop is the one that the device can tell, and a call that has
had its turn has told all of them. -/
structure IsTold (d : Device) : Prop where
  untold {k : Nat} (h : d.isStopped k = false) : d.signal = some k
  turned {p : Pending} {rest : List Pending} (hl : d.line = p :: rest)
    (hp : p.progress ≠ .inLine) : d.signal = none

theorem IsTold.isStopped_stop (h : d.IsTold) (k : Nat) : d.stop.isStopped k = true := by
  rw [isStopped_stop_eq]
  cases hs : d.isStopped k with
  | true => rfl
  | false => simp [h.untold hs]

/-- Once all loops have been told, it does not matter what the device could tell. -/
theorem isTold_of_forall (h : ∀ k, d.isStopped k = true) (hs : d.signal = none) : d.IsTold :=
  ⟨fun {k} hk => absurd (hk.symm.trans (h k)) Bool.false_ne_true, fun _ _ => hs⟩

theorem IsTold.enter (h : d.IsTold) (caller : Nat) (call : Device.Call) :
    (d.enter caller call).IsTold where
  untold := h.untold
  turned {p rest} hl hp := by
    cases hd : d.line with
    | nil =>
      simp only [Device.enter, hd, List.nil_append, List.cons.injEq] at hl
      obtain ⟨rfl, -⟩ := hl
      exact absurd rfl hp
    | cons q more =>
      simp only [Device.enter, hd, List.cons_append, List.cons.injEq] at hl
      obtain ⟨rfl, -⟩ := hl
      exact h.turned hd hp

theorem IsTold.grant (h : d.IsTold) : d.grant.IsTold := by
  unfold Device.grant
  split
  · refine isTold_of_forall ?_ ?_
    · exact h.isStopped_stop
    · exact signal_stop d
  · exact h

theorem exists_head_of_canReturn (hr : d.canReturn) :
    ∃ p rest, d.line = p :: rest ∧ p.progress ≠ .inLine := by
  unfold canReturn at hr
  split at hr
  · rename_i hl
    exact ⟨_, _, hl, nofun⟩
  · rename_i hl
    exact ⟨_, _, hl, nofun⟩
  · cases hr

/-- A call that returns has told all loops to stop, so the one that it spawns is the only one that
can still be told. -/
theorem IsTold.complete (h : d.IsTold) (ho : d.IsOrdered) (hr : d.canReturn) :
    d.complete.IsTold := by
  obtain ⟨p, rest, hl, hp⟩ := exists_head_of_canReturn hr
  have unsignalled := h.turned hl hp
  have told (k : Nat) : d.isStopped k = true := by
    cases hk : d.isStopped k with
    | true => rfl
    | false => cases unsignalled.symm.trans (h.untold hk)
  have waiting {q : Pending} {more : List Pending} (hrest : rest = q :: more) :
      q.progress = .inLine := ho q (by simp [hl, hrest])
  obtain ⟨caller, call, progress⟩ := p
  unfold Device.complete
  rw [hl]
  cases call with
  | shutdown =>
    refine isTold_of_forall ?_ unsignalled
    exact told
  | configure spec initial =>
    constructor
    case untold =>
      intro k hk
      have hk : (d.spawn spec initial).isStopped k = false := hk
      rw [isStopped_spawn, told k] at hk
      by_cases new : k = d.loops.length
      · exact congrArg some new.symm
      · rw [if_neg new] at hk
        cases hk
    case turned =>
      intro q more hrest hq
      exact absurd (waiting hrest) hq

theorem Happens.isTold (hx : Happens hs d x d') (h : d.IsTold) (ho : d.IsOrdered) :
    d'.IsTold := by
  cases hx with
  | entered caller call => exact h.enter caller call
  | granted => exact h.grant
  | returned _ hr => exact h.complete ho hr
  | asked _ _ _ hv => cases hv <;> exact ⟨h.untold, h.turned⟩
  | ended => exact ⟨fun hk => h.untold ((isStopped_endLoop _).symm.trans hk), h.turned⟩
  | disposed =>
    refine isTold_of_forall ?_ ?_
    · exact h.isStopped_stop
    · exact signal_stop d

/-- An abandoned call has told its loop all the same. -/
theorem IsTold.abandon (h : d.IsTold) (ho : d.IsOrdered) (caller : Nat) :
    (d.abandon caller).IsTold where
  untold := h.untold
  turned hl hp := by
    obtain ⟨more, hd⟩ := ho.head_abandon hl hp
    exact h.turned hd hp

theorem Story.isTold (h : Story may identity config hs d) : d.IsTold := by
  induction h with
  | created h =>
    obtain rfl := eq_of_create h
    exact isTold_of_forall (fun _ => rfl) rfl
  | snoc h hx ih => exact hx.isTold ih h.isOrdered
  | abandoned h caller _ ih => exact ih.abandon h.isOrdered caller

/-! ## What a loop is told when it looks -/

theorem Serves.eq_isStopped {deadline : Duration} {b : Bool}
    (h : d.Serves k ⟨.rest deadline, some b⟩ d') : b = d.isStopped k := by
  cases h with
  | rested => rfl
  | foreign h => cases h

theorem isTick_eq_false (h : d.isStopped k) {call : Program.Call effects}
    (hv : d.Serves k call d') : isTick call = false := by
  cases hv with
  | rested deadline => rw [h]; rfl
  | @foreign op hf x =>
    cases op with
    | rest deadline => cases hf
    | _ => rfl
  | _ => rfl

/-- A loop that has been told to stop goes on to no other cycle. -/
theorem Goes.rounds_eq_zero (h : Goes may past d hs d') (hk : k < d.loops.length)
    (ht : d.isStopped k) : rounds (callsOf k hs) = 0 ∧ d'.isStopped k ∧ k < d'.loops.length := by
  induction h with
  | rest => exact ⟨rfl, ht, hk⟩
  | abandoned _ _ _ ih => exact ih
  | @snoc hs d₁ d₂ x _ hx ih =>
    obtain ⟨quiet, told, spawned⟩ := ih
    refine ⟨?_, hx.isStopped spawned told, Nat.lt_of_lt_of_le spawned hx.length_loops_le⟩
    cases hc : x.isAsked with
    | false => rw [callsOf_of_not_asked k hc, quiet]
    | true =>
      cases hx with
      | @asked j l call _ hl ha hb hv =>
        rw [callsOf_asked, rounds_append, quiet]
        by_cases same : j = k
        · subst same
          have untick := isTick_eq_false told hv
          simp [rounds, untick]
        · simp [same, rounds]
      | _ => cases hc

/-- When a loop finds that it has been told to stop, it has been. -/
theorem Story.isStopped_of_mem (h : Story may identity config hs d) {deadline : Duration}
    (hm : ⟨.rest deadline, some true⟩ ∈ callsOf k hs) : d.isStopped k := by
  induction h with
  | created => cases hm
  | abandoned _ _ _ ih => exact ih hm
  | @snoc hs d d' x h hx ih =>
    rw [callsOf_append, List.mem_append] at hm
    rcases hm with earlier | last
    · have spawned : k < d.loops.length :=
        h.length_loops ▸ h.lt_of_mem (mem_callsOf.mp earlier) rfl
      exact hx.isStopped spawned (ih earlier)
    · obtain rfl : .asked k ⟨.rest deadline, some true⟩ = x := by simpa using mem_callsOf.mp last
      cases hx with
      | asked hl ha hb hv =>
        rw [isStopped, hv.unchanged.2]
        exact hv.eq_isStopped.symm

/-- A loop has been told to stop only if the device has signalled since it was spawned. -/
theorem Story.exists_signal (h : Story may identity config hs d) (hk : k < (configured hs).length)
    (ht : d.isStopped k) : ∃ before x after, hs = before ++ x :: after ∧
      (x = .granted ∨ x = .disposed) ∧ k < (configured before).length := by
  induction h with
  | created => exact absurd hk (Nat.not_lt_zero k)
  | abandoned _ _ _ ih => exact ih hk ht
  | @snoc hs d d' x h hx ih =>
    by_cases older : k < (configured hs).length
    · by_cases told : d.isStopped k
      · obtain ⟨before, y, after, rfl, signal, spawned⟩ := ih older told
        exact ⟨before, y, after ++ [x], by simp, signal, spawned⟩
      · have signal : d.IsSignal x := by
          refine Classical.byContradiction fun absent => told ?_
          rw [← hx.isStopped_of_not_signal absent (h.length_loops ▸ older)]
          exact ht
        refine ⟨hs, x, [], rfl, ?_, older⟩
        rcases signal with rfl | ⟨rfl, -⟩
        · exact .inr rfl
        · exact .inl rfl
    · rw [configured_append, List.length_append] at hk
      cases hx with
      | @returned p rest hl =>
        obtain ⟨caller, call, progress⟩ := p
        cases call with
        | shutdown => exact absurd hk older
        | configure spec initial =>
          have new : k = d.loops.length := by
            have last : k < (configured hs).length + 1 := hk
            rw [h.length_loops]
            omega
          have spawned : d.complete.isStopped k = (d.spawn spec initial).isStopped k := by
            simp only [complete, hl, isStopped]
          rw [spawned, isStopped_spawn, if_pos new] at ht
          cases ht
      | _ => exact absurd hk older

/-! ## A loop that goes on -/

/-- A device is handed a status. -/
def isPublication : Program.Call Resync.effects → Bool
  | ⟨.cycle _ .publish, _⟩ => true
  | _ => false

/-- The answers that a loop gets while nothing else happens to the device. What the device has no
part in is answered by `σ`, and whatever is published is empty. -/
def attend (d : Device) (k : Nat) (made : List (Program.Call effects)) (σ : Behaviour effects) :
    Behaviour effects
  | past, .lastPublished =>
    if (past.drop made.length).any isPublication then some .empty else d.lastPublished
  | _, .rest _ => d.isStopped k
  | past, op => σ past op

theorem isForeign_of_none {s : Settings} {ph : Phase} {calls : List (Program.Call effects)}
    {next : Option Phase} (h : ph.Loops s calls next) :
    ∀ call ∈ calls, call.2 = none → isForeign call.1 := by
  induction h with
  | nil => simp
  | @snoc mid next calls more _ ht ih =>
    refine List.forall_mem_append.mpr ⟨ih, fun call hc hn => ?_⟩
    cases ht with
    | run h =>
      have answered := h.isSome_of_mem call hc
      rw [hn] at answered
      cases answered
    | expire hd h =>
      have asks := (Phase.Step.expire hd h).asks call hc
      cases mid with
      | listening ticker store queue deadline c =>
        obtain ⟨op, x⟩ := call
        cases op with
        | cycle st effect =>
          cases effect with
          | publish => exact asks.2.elim
          | _ => rfl
        | lastPublished => exact asks.elim
        | rest => exact asks.elim
        | _ => rfl
      | _ => cases hd

theorem callsOf_map_asked (k : Nat) (calls : List (Program.Call effects)) :
    callsOf k (calls.map (.asked k)) = calls := by
  induction calls with
  | nil => rfl
  | cons call calls ih =>
    rw [List.map_cons, ← List.singleton_append, callsOf_append, ih]
    simp [callsOf]

/-- What has become of a device with calls of its loop, while nothing else happened to it. -/
structure Attended (d₀ : Device) (calls : List (Program.Call effects)) (d : Device) : Prop where
  loops : d.loops = d₀.loops
  config : d.config = d₀.config
  lastPublished : d.lastPublished =
    if calls.any isPublication then some .empty else d₀.lastPublished

theorem Attended.exists_serves {σ : Behaviour effects} {d₀ : Device}
    {made calls : List (Program.Call effects)} {call : Program.Call effects}
    (h : Attended d₀ calls d) (hx : ∀ a ∈ call.2, a = d₀.attend k made σ (made ++ calls) call.1)
    (hf : call.2 = none → isForeign call.1) :
    ∃ d', d.Serves k call d' ∧ Attended d₀ (calls ++ [call]) d' := by
  have same (hn : isPublication call = false) : Attended d₀ (calls ++ [call]) d := by
    have quiet : (calls ++ [call]).any isPublication = calls.any isPublication := by simp [hn]
    exact ⟨h.loops, h.config, by rw [h.lastPublished, quiet]⟩
  obtain ⟨op, x⟩ := call
  cases hop : isForeign op with
  | true =>
    refine ⟨d, .foreign hop x, same ?_⟩
    cases op with
    | cycle store effect => cases effect <;> first | rfl | cases hop
    | _ => rfl
  | false =>
    cases x with
    | none => cases hop.symm.trans (hf rfl)
    | some a =>
      have answer := hx a rfl
      cases op with
      | cycle store effect =>
        cases effect with
        | publish =>
          refine ⟨_, .published store .empty, h.loops, h.config, ?_⟩
          rw [List.any_append, Bool.or_comm]
          rfl
        | _ => cases hop
      | lastPublished =>
        have last : a = d.lastPublished := by
          rw [answer, h.lastPublished, attend, List.drop_left]
        exact ⟨d, last ▸ .lastPublished, same rfl⟩
      | rest deadline =>
        have told : a = d.isStopped k := by
          rw [answer, isStopped, h.loops]
          rfl
        exact ⟨d, told ▸ .rested deadline, same rfl⟩
      | _ => cases hop

/-- A loop can make all calls that it comes to with these answers. -/
theorem exists_goes {σ : Behaviour effects} {l : Loop} {calls : List (Program.Call effects)}
    (hl : d.loops[k]? = some l) (ha : l.hasEnded = false)
    (hb : (l.settings d.config).Begins (callsOf k hs ++ calls))
    (hg : (d.attend k (callsOf k hs) σ).Gives (callsOf k hs) calls)
    (hf : ∀ call ∈ calls, call.2 = none → isForeign call.1) :
    ∃ d', Goes may hs d (calls.map (.asked k)) d' ∧ Attended d calls d' := by
  induction calls using List.reverseRecOn with
  | nil => exact ⟨d, .rest, rfl, rfl, rfl⟩
  | append_singleton calls call ih =>
    rw [← List.append_assoc] at hb
    obtain ⟨given, last, -⟩ := Behaviour.gives_append.mp hg
    obtain ⟨d₁, goes, attended⟩ := ih hb.of_append given fun c hc => hf c (by simp [hc])
    obtain ⟨d₂, serves, after⟩ := attended.exists_serves last (hf call (by simp))
    refine ⟨d₂, ?_, after⟩
    rw [List.map_append, List.map_singleton]
    refine goes.snoc (.asked (attended.loops ▸ hl) ha ?_ serves)
    rwa [attended.config, callsOf_append, callsOf_map_asked]

/-- A loop that comes to its end with these answers can make its calls and end. -/
theorem exists_goes_ended {σ : Behaviour effects} {l : Loop}
    {calls : List (Program.Call effects)} (hl : d.loops[k]? = some l) (ha : l.hasEnded = false)
    (hb : Phase.launched.Loops (l.settings d.config) (callsOf k hs ++ calls) none)
    (hg : (d.attend k (callsOf k hs) σ).Gives (callsOf k hs) calls) :
    ∃ d', Goes may hs d (calls.map (.asked k) ++ [.ended k]) d' := by
  have begins : (l.settings d.config).Begins (callsOf k hs ++ calls) :=
    ⟨[], none, by rwa [List.append_nil]⟩
  obtain ⟨d₁, goes, attended⟩ := exists_goes hl ha begins hg fun call hc =>
    isForeign_of_none hb call (List.mem_append_right _ hc)
  refine ⟨_, goes.snoc (.ended (attended.loops ▸ hl) ha ?_)⟩
  rwa [attended.config, callsOf_append, callsOf_map_asked]

/-! ## The end of a loop -/

/-- What can be said of a loop at any moment, given what its configure was called with. -/
structure Finishes (may : Device → Nat → Prop) (config : SyncConfig) (spec : DeviceSpec)
    (initial : Status.Snapshot) (k : Nat) (hs : List Happening) (d : Device) : Prop where
  /-- It makes the calls of a loop with its own spec. -/
  own : Settings.Begins ⟨config, spec, initial⟩ (callsOf k hs)
  /-- It has started the session once in each cycle that it has gone on from, and at most once in
  the last one. -/
  started : rounds (callsOf k hs) ≤ starts (callsOf k hs) ∧
    starts (callsOf k hs) ≤ rounds (callsOf k hs) + 1
  /-- A signal reaches it. -/
  reached {x : Happening} {d' : Device} (hx : Happens hs d x d') (hs : d.IsSignal x) :
    d'.isStopped k
  /-- It has been told to stop only if there has been a signal since it was spawned. -/
  signalled (h : d.isStopped k) : ∃ before x after, hs = before ++ x :: after ∧
    (x = .granted ∨ x = .disposed) ∧ k < (configured before).length
  /-- Once it has been told to stop, it goes on to no other cycle, and the session is not started
  any more but for the cycle that it is in. -/
  last {more : List Happening} {d' : Device} (h : d.isStopped k) (hg : Goes may hs d more d')
    (hr : InRange ⟨config, spec, initial⟩ (callsOf k more)) :
    d'.isStopped k ∧ rounds (callsOf k more) = 0 ∧
      starts (callsOf k (hs ++ more)) ≤ rounds (callsOf k hs) + 1
  /-- It does not end before it has been told to stop, nor before it has been through its first
  cycle and all that it has gone on to. -/
  ended (h : .ended k ∈ hs) : d.isStopped k ∧
    HasCycles config.publishPoint (rounds (callsOf k hs) + 1) (callsOf k hs)
  /-- Whatever the answers are, it can go on by itself to the end of the cycle that it is in. Then
  it ends if it has been told to stop, and else it goes on to the next cycle. -/
  goesOn {σ : Behaviour effects} (n : Nat) (ha : d.hasEnded k = false)
    (hσ : ∀ past, (σ past .now + config.syncInterval).seconds < Ticker.clockRange) :
    ∃ calls d', (d.attend k (callsOf k hs) σ).Gives (callsOf k hs) calls ∧
      (∀ call ∈ calls.take n, call.2.isSome) ∧
      Goes may hs d (calls.map (.asked k) ++ if d.isStopped k then [.ended k] else []) d' ∧
      rounds calls = (if d.isStopped k then 0 else 1) ∧
      HasCycles config.publishPoint (rounds (callsOf k hs) + 1) (callsOf k hs ++ calls)

section Loop

variable {spec : DeviceSpec} {initial : Status.Snapshot}

theorem Story.ended (h : Story may identity config hs d)
    (hk : (configured hs)[k]? = some (spec, initial))
    (hr : InRange ⟨config, spec, initial⟩ (callsOf k hs)) (he : .ended k ∈ hs) :
    d.isStopped k ∧ HasCycles config.publishPoint (rounds (callsOf k hs) + 1) (callsOf k hs) := by
  have whole := h.loops_of_ended hk he
  obtain ⟨deadline, told⟩ := whole.exists_told hr
  exact ⟨h.isStopped_of_mem told, whole.hasCycles hr nofun⟩

/-- A loop can go on to the end of its cycle, and then it looks whether it has been told to stop. -/
theorem Story.exists_calls (h : Story may identity config hs d)
    (hk : (configured hs)[k]? = some (spec, initial))
    (hr : InRange ⟨config, spec, initial⟩ (callsOf k hs)) {σ : Behaviour effects} (n : Nat)
    (hσ : ∀ past, (σ past .now + config.syncInterval).seconds < Ticker.clockRange) :
    ∃ calls next, Phase.launched.Loops ⟨config, spec, initial⟩ (callsOf k hs ++ calls) next ∧
      (d.attend k (callsOf k hs) σ).Gives (callsOf k hs) calls ∧
      (∀ call ∈ calls.take n, call.2.isSome) ∧ rounds calls = 0 ∧
      HasCycles config.publishPoint (rounds (callsOf k hs) + 1) (callsOf k hs ++ calls) ∧
      (∀ ph ∈ next, ∃ ticker, ph = .resting ticker) ∧ (next = none → d.isStopped k) := by
  obtain ⟨_, _, begun⟩ := h.begins hk
  obtain ⟨calls, next, loop, resting, given, answered, quiet⟩ :=
    begun.stands.completes (d.attend k (callsOf k hs) σ) n
  have clock (past : List (Program.Call effects)) :
      (d.attend k (callsOf k hs) σ past .now + config.syncInterval).seconds < Ticker.clockRange :=
    hσ past
  have range : InRange ⟨config, spec, initial⟩ (callsOf k hs ++ calls) :=
    inRange_append.mpr ⟨hr, inRange_of_gives clock given⟩
  have cycles := loop.hasCycles range resting
  rw [rounds_append, quiet, Nat.add_zero] at cycles
  refine ⟨calls, next, loop, given, answered, quiet, cycles, resting, ?_⟩
  rintro rfl
  obtain ⟨deadline, told⟩ := loop.exists_told range
  rcases List.mem_append.mp told with earlier | now
  · exact h.isStopped_of_mem earlier
  · obtain ⟨before, answer⟩ := given.exists_eq now
    exact answer.symm

theorem Story.goesOn (h : Story may identity config hs d)
    (hk : (configured hs)[k]? = some (spec, initial))
    (hr : InRange ⟨config, spec, initial⟩ (callsOf k hs)) {σ : Behaviour effects} (n : Nat)
    (ha : d.hasEnded k = false)
    (hσ : ∀ past, (σ past .now + config.syncInterval).seconds < Ticker.clockRange) :
    ∃ calls d', (d.attend k (callsOf k hs) σ).Gives (callsOf k hs) calls ∧
      (∀ call ∈ calls.take n, call.2.isSome) ∧
      Goes may hs d (calls.map (.asked k) ++ if d.isStopped k then [.ended k] else []) d' ∧
      rounds calls = (if d.isStopped k then 0 else 1) ∧
      HasCycles config.publishPoint (rounds (callsOf k hs) + 1) (callsOf k hs ++ calls) := by
  obtain ⟨l, hl, alive⟩ := hasEnded_eq_false_iff.mp ha
  have own := h.settings_eq hl hk
  obtain ⟨calls, next, loop, given, answered, quiet, cycles, resting, told⟩ :=
    h.exists_calls hk hr n hσ
  cases next with
  | none =>
    have stopped := told rfl
    obtain ⟨d', goes⟩ := exists_goes_ended hl alive (own ▸ loop) given
    refine ⟨calls, d', given, answered, ?_, ?_, cycles⟩
    · rwa [if_pos stopped]
    · rwa [if_pos stopped]
  | some ph =>
    obtain ⟨ticker, rfl⟩ := resting ph rfl
    -- the loop looks whether it has been told to stop
    have looks : (d.attend k (callsOf k hs) σ).Gives (callsOf k hs)
        (calls ++ [looked ticker (d.isStopped k)]) :=
      Behaviour.gives_append.mpr ⟨given, fun x hx => (Option.some.inj hx).symm, trivial⟩
    have all : ∀ call ∈ (calls ++ [looked ticker (d.isStopped k)]).take n, call.2.isSome := by
      rw [List.take_append]
      refine List.forall_mem_append.mpr ⟨answered, fun call hc => ?_⟩
      obtain rfl := List.mem_singleton.mp (List.mem_of_mem_take hc)
      rfl
    have complete := cycles.looked ticker (d.isStopped k)
    rw [List.append_assoc] at complete
    refine ⟨calls ++ [looked ticker (d.isStopped k)], ?_⟩
    have goes : ∃ d', Goes may hs d ((calls ++ [looked ticker (d.isStopped k)]).map (.asked k) ++
        if d.isStopped k then [.ended k] else []) d' := by
      cases stopped : d.isStopped k with
      | true =>
        rw [stopped] at looks
        have whole := loop.ends
        rw [List.append_assoc] at whole
        exact exists_goes_ended hl alive (own ▸ whole) looks
      | false =>
        rw [stopped] at looks
        have begins : Settings.Begins ⟨config, spec, initial⟩
            (callsOf k hs ++ (calls ++ [looked ticker false])) :=
          ⟨[⟨.now, some .zero⟩], _, by simpa using loop.ticks .zero⟩
        have foreign : ∀ call ∈ calls ++ [looked ticker false],
            call.2 = none → isForeign call.1 := by
          refine List.forall_mem_append.mpr ⟨fun call hc => ?_, by simp [looked]⟩
          exact isForeign_of_none loop call (List.mem_append_right _ hc)
        obtain ⟨d', goes, -⟩ := exists_goes hl alive (own ▸ begins) looks foreign
        exact ⟨d', by simpa using goes⟩
    obtain ⟨d', goes⟩ := goes
    have round : rounds (calls ++ [looked ticker (d.isStopped k)]) =
        if d.isStopped k then 0 else 1 := by
      rw [rounds_append, quiet, rounds_looked, Nat.zero_add]
    exact ⟨d', looks, all, goes, round, complete⟩

/-- Whenever a loop is told to stop, it finishes the cycle that it is in, its first one at least,
and begins no other; and it does not end before. -/
theorem loops_finish (h : Story may identity config hs d)
    (hk : (configured hs)[k]? = some (spec, initial))
    (hr : InRange ⟨config, spec, initial⟩ (callsOf k hs)) :
    Finishes may config spec initial k hs d := by
  have given : k < (configured hs).length := (List.getElem?_eq_some_iff.mp hk).1
  have spawned : k < d.loops.length := h.length_loops ▸ given
  have counted {hs : List Happening} {d : Device} (h : Story may identity config hs d)
      (hk : (configured hs)[k]? = some (spec, initial))
      (hr : InRange ⟨config, spec, initial⟩ (callsOf k hs)) :
      rounds (callsOf k hs) ≤ starts (callsOf k hs) ∧
        starts (callsOf k hs) ≤ rounds (callsOf k hs) + 1 := by
    obtain ⟨_, _, begun⟩ := h.begins hk
    exact begun.stands.starts_le hr
  constructor
  case own => exact h.begins hk
  case started => exact counted h hk hr
  case reached =>
    intro x d' hx signal
    rw [hx.isStopped_of_signal signal]
    exact h.isTold.isStopped_stop k
  case signalled => exact h.exists_signal given
  case last =>
    intro more d' told goes range
    obtain ⟨quiet, stays, -⟩ := goes.rounds_eq_zero spawned told
    have kept : (configured (hs ++ more))[k]? = some (spec, initial) := by
      rw [configured_append, List.getElem?_append_left given, hk]
    have all : InRange ⟨config, spec, initial⟩ (callsOf k (hs ++ more)) :=
      callsOf_append k ▸ inRange_append.mpr ⟨hr, range⟩
    have bound := (counted (h.append goes) kept all).2
    rw [callsOf_append, rounds_append, quiet, ← callsOf_append] at bound
    exact ⟨stays, quiet, bound⟩
  case ended => exact h.ended hk hr
  case goesOn =>
    intro σ n alive clock
    exact h.goesOn hk hr n alive clock

end Loop

/-- A device is given up as soon as it has been configured. Its loop still goes through one cycle
before it ends. -/
theorem loops_finish_disposed :
    ∃ hs d, Story (fun _ _ => True) ⟨"default", "dev"⟩ {} hs d ∧ callsOf 0 hs = [] ∧
      Finishes (fun _ _ => True) {} {} .empty 0 hs d ∧
      ∃ calls d', Goes (fun _ _ => True) hs d (calls.map (.asked 0) ++ [.ended 0]) d' ∧
        HasCycles .afterCycle 1 calls := by
  have disposed := (story_spawned fun _ _ => True).snoc .disposed
  have given : (configured [.entered 0 (.configure {} .empty), .granted,
      .returned (.configure {} .empty), .disposed])[0]? = some (DeviceSpec.mk {} [], .empty) := rfl
  have finishes := loops_finish disposed given nofun
  have early : (Duration.zero + SyncConfig.syncInterval {}).seconds < Ticker.clockRange := by decide
  have clock (past : List (Program.Call effects)) :
      (quiet past .now + SyncConfig.syncInterval {}).seconds < Ticker.clockRange := early
  obtain ⟨calls, d', -, -, goes, -, cycles⟩ := finishes.goesOn 0 rfl clock
  exact ⟨_, _, disposed, rfl, finishes, calls, d', goes, cycles⟩

end Device
end GattSync
