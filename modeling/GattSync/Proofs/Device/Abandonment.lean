import GattSync.Proofs.Device.Story

/-!
# Abandoned calls

What a call has taken of the running loop, the right to stop it and the handle to wait for it, is
lost when the call is abandoned. That does no harm if the call has not had its turn, or if it waits
for nothing that goes on (`IsHarmless`). As long as nothing else is abandoned, the device knows of
its loops (`Story.isTended`), and no call returns before all of them have ended.

After any other abandonment nobody knows of the loop that goes on (`HasLost`): the next call has its
turn and returns at once, and if it is a configure, two loops share the session. So an abandonment
is safe if and only if it is harmless (`keepsWaiting_abandon_iff`).

What a call has taken is also out of sight while the call waits: whether a device looks as if it ran
tells whether a loop goes on if and only if no call waits for one (`isRunning_tells_iff`).
-/

namespace GattSync

open Program

namespace Device

variable {may : Device → Nat → Prop} {identity : DeviceIdentity} {config : SyncConfig}
  {hs past : List Happening} {d d' : Device} {caller k : Nat} {p : Pending}
  {rest : List Pending}

/-- The calls of this caller are in line or wait for nothing that goes on. -/
def IsHarmless (d : Device) (caller : Nat) : Prop :=
  ∀ p ∈ d.line, p.caller = caller → p.progress = .inLine ∨
    ∃ loop, p.progress = .stopping loop ∧ ∀ k ∈ loop, d.hasEnded k = true

theorem IsTended.isOrdered (h : d.IsTended) : d.IsOrdered := by
  intro q hq
  cases hl : d.line with
  | nil => simp [hl] at hq
  | cons p rest => exact h.inLine hl q (by simpa [hl] using hq)

/-- A call whose turn it is stays first in line when others are abandoned. -/
theorem line_abandon_of_ne (hl : d.line = p :: rest) (hc : p.caller ≠ caller) :
    (d.abandon caller).line = p :: rest.filter fun q => q.caller != caller := by
  rw [line_abandon, hl]
  exact List.filter_cons_of_pos (by simpa using hc)

theorem IsTended.abandon (h : d.IsTended) (hh : d.IsHarmless caller) :
    (d.abandon caller).IsTended where
  isLast := h.isLast
  isKnown {k} alive := by
    have alive : d.hasEnded k = false := alive
    rcases h.isKnown alive with held | ⟨p, rest, hl, waits⟩
    · exact .inl held
    · refine .inr ⟨p, _, line_abandon_of_ne hl ?_, waits⟩
      intro own
      rcases hh p (by simp [hl]) own with inLine | ⟨loop, taken, ended⟩
      · cases inLine.symm.trans waits
      · obtain rfl := Progress.stopping.inj (taken.symm.trans waits)
        cases alive.symm.trans (ended k rfl)
  isTaken {p rest loop} hl hp := by
    obtain ⟨more, hd⟩ := h.isOrdered.head_abandon hl (by simp [hp])
    exact h.isTaken hd hp
  inLine {p rest} hl q hq := h.isOrdered.abandon caller q (by simpa [hl] using hq)

/-- Nobody knows of a loop that goes on. -/
structure HasLost (d : Device) (k : Nat) : Prop where
  alive : d.hasEnded k = false
  unheld : d.handle = none
  inLine : ∀ q ∈ d.line, q.progress = .inLine

theorem HasLost.enter (h : d.HasLost k) (caller : Nat) (call : Device.Call) :
    (d.enter caller call).HasLost k where
  alive := h.alive
  unheld := h.unheld
  inLine := List.forall_mem_append.mpr ⟨h.inLine, List.forall_mem_singleton.mpr rfl⟩

/-- When a loop is lost, the next call that has its turn can return while the loop goes on. -/
theorem HasLost.returned (h : d.HasLost k) (hl : d.line = p :: rest) :
    Happens hs d.grant (.returned p.call) d.grant.complete ∧ d.grant.hasEnded k = false := by
  have waiting : p.progress = .inLine := h.inLine p (by simp [hl])
  obtain ⟨caller, call, progress⟩ := p
  obtain rfl := waiting
  have granted : d.grant.line = ⟨caller, call, .stopping none⟩ :: rest := by
    simp [grant, hl, h.unheld]
  have canReturn : d.grant.canReturn := by simp [canReturn, granted]
  have returned : Happens hs d.grant (.returned call) d.grant.complete :=
    .returned granted canReturn
  exact ⟨returned, (hasEnded_grant d k).trans h.alive⟩

/-- When a call is abandoned that waits for a loop, the loop is lost. -/
theorem IsTended.lost_of_not_harmless (h : d.IsTended) (hh : ¬ d.IsHarmless caller) :
    ∃ k, (d.abandon caller).HasLost k := by
  obtain ⟨p, hp, own, taken⟩ : ∃ p ∈ d.line, p.caller = caller ∧ ¬ (p.progress = .inLine ∨
      ∃ loop, p.progress = .stopping loop ∧ ∀ k ∈ loop, d.hasEnded k = true) := by
    simpa [IsHarmless, and_assoc] using hh
  cases hl : d.line with
  | nil => simp [hl] at hp
  | cons first more =>
    obtain rfl := h.isOrdered.eq_head hl hp fun inLine => taken (.inl inLine)
    cases progress : p.progress with
    | inLine => exact absurd (.inl progress) taken
    | stopping loop =>
      obtain ⟨k, -, hk⟩ : ∃ k ∈ loop, d.hasEnded k = false := by
        refine Classical.byContradiction fun busy => taken (.inr ⟨loop, progress, fun k hk => ?_⟩)
        exact Bool.of_not_eq_false fun alive => busy ⟨k, hk, alive⟩
      refine ⟨k, hk, h.isTaken hl progress, fun q hq => ?_⟩
      obtain ⟨kept, other⟩ := List.mem_filter.mp hq
      have behind : q ∈ more := by
        rcases List.mem_cons.mp (hl ▸ kept) with rfl | behind
        · simp [own] at other
        · exact behind
      exact h.inLine hl q behind

theorem Story.isTended (h : Story (fun d caller => d.IsHarmless caller) identity config hs d) :
    d.IsTended := by
  induction h with
  | created h => exact isTended_create h
  | snoc _ hx ih => exact hx.isTended ih
  | abandoned _ caller hm ih => exact ih.abandon hm

/-! ## Whether later calls wait -/

/-- Whatever happens from here on, as long as only harmless abandonments happen: a call returns, and
a configure spawns its loop, when all loops that have been spawned have ended. -/
def KeepsWaiting (hs : List Happening) (d : Device) : Prop :=
  ∀ {more : List Happening} {d₁ d₂ : Device} {call : Device.Call},
    Goes (fun d caller => d.IsHarmless caller) hs d more d₁ →
    Happens (hs ++ more) d₁ (.returned call) d₂ → ∀ k, d₁.hasEnded k = true

theorem Story.keepsWaiting (h : Story (fun d caller => d.IsHarmless caller) identity config hs d) :
    KeepsWaiting hs d :=
  fun goes returned => (h.append goes).isTended.hasEnded_of_canReturn returned.canReturn

/-- Later calls wait for the loops when one is abandoned if and only if it has not had its turn, or
waits for nothing that goes on. -/
theorem keepsWaiting_abandon_iff
    (h : Story (fun d caller => d.IsHarmless caller) identity config hs d) (caller : Nat) :
    KeepsWaiting hs (d.abandon caller) ↔ d.IsHarmless caller := by
  refine ⟨fun waits => Classical.byContradiction fun harm => ?_,
    fun harmless => (h.abandoned caller harmless).keepsWaiting⟩
  obtain ⟨k, lost⟩ := h.isTended.lost_of_not_harmless harm
  have entered : Goes (fun d caller => d.IsHarmless caller) hs (d.abandon caller)
      [.entered 0 .shutdown] _ := Goes.rest.snoc (.entered 0 .shutdown)
  obtain ⟨p, rest, line⟩ := List.exists_cons_of_ne_nil
    (List.append_ne_nil_of_right_ne_nil (d.abandon caller).line
      (List.cons_ne_nil (⟨0, .shutdown, .inLine⟩ : Pending) []))
  obtain ⟨returned, alive⟩ := (lost.enter 0 .shutdown).returned line
  cases alive.symm.trans (waits (entered.snoc .granted) returned k)

/-- A caller that gives up while the call is in line does no harm; one that does so while the call
waits for a loop does. -/
theorem keepsWaiting_abandon_turn :
    ∃ hs d, Story (fun d caller => d.IsHarmless caller) ⟨"default", "dev"⟩ {} hs d ∧
      d.hasEnded 0 = false ∧ KeepsWaiting hs (d.abandon 1) ∧
      ¬ KeepsWaiting (hs ++ [.granted]) (d.grant.abandon 1) := by
  have entered := (story_spawned fun d caller => d.IsHarmless caller).snoc (.entered 1 .shutdown)
  have granted := entered.snoc .granted
  refine ⟨_, _, entered, rfl, (keepsWaiting_abandon_iff entered 1).mpr ?_, fun waits => ?_⟩
  · exact List.forall_mem_singleton.mpr fun _ => .inl rfl
  · have harmless := (keepsWaiting_abandon_iff granted 1).mp waits
    rcases harmless _ (List.mem_singleton_self _) rfl with inLine | ⟨loop, taken, ended⟩
    · cases inLine
    · cases taken
      cases ended 0 rfl

/-- A caller gives up waiting for a loop that has just been spawned. The next shutdown returns while
that loop goes on, and the next configure spawns another one beside it. -/
theorem exists_story_two_loops :
    ∃ hs d, Story (fun _ _ => True) ⟨"default", "dev"⟩ {} hs d ∧
      hs = [.entered 0 (.configure {} .empty), .granted, .returned (.configure {} .empty),
        .entered 1 .shutdown, .granted,
        .entered 2 .shutdown, .granted, .returned .shutdown,
        .entered 3 (.configure {} .empty), .granted, .returned (.configure {} .empty)] ∧
      d.hasEnded 0 = false ∧ d.hasEnded 1 = false := by
  have waiting := ((story_spawned fun _ _ => True).snoc (.entered 1 .shutdown)).snoc .granted
  have abandoned := waiting.abandoned 1 trivial
  have shut := ((abandoned.snoc (.entered 2 .shutdown)).snoc .granted).snoc (.returned rfl rfl)
  have replaced := ((shut.snoc (.entered 3 (.configure {} .empty))).snoc .granted).snoc
    (.returned rfl rfl)
  exact ⟨_, _, replaced, rfl, rfl, rfl⟩

/-! ## Who can see that a loop goes on -/

/-- A device looks as if it ran when a loop goes on and no call in the line has had its turn. The
call whose turn it is has taken the handle, so until it returns nobody sees the loop that it waits
for. -/
theorem IsTended.isRunning_iff (h : d.IsTended) :
    d.isRunning = true ↔ (∃ k, d.hasEnded k = false) ∧ ∀ p ∈ d.line, p.progress = .inLine := by
  constructor
  · intro running
    unfold isRunning at running
    split at running
    case h_1 loop held =>
      refine ⟨⟨loop, by simpa using running⟩, fun p hp => ?_⟩
      cases hl : d.line with
      | nil => simp [hl] at hp
      | cons first rest =>
        rcases List.mem_cons.mp (hl ▸ hp) with rfl | behind
        · cases waits : p.progress with
          | inLine => rfl
          | stopping taken => cases held.symm.trans (h.isTaken hl waits)
        · exact h.inLine hl p behind
    case h_2 => cases running
  · rintro ⟨⟨k, alive⟩, waiting⟩
    rcases h.isKnown alive with held | ⟨p, rest, hl, taken⟩
    · simp [isRunning, held, alive]
    · cases (waiting p (by simp [hl])).symm.trans taken

/-- Whether a device looks as if it ran tells whether a loop goes on if and only if no call waits
for a loop that goes on. -/
theorem isRunning_tells_iff
    (h : Story (fun d caller => d.IsHarmless caller) identity config hs d) :
    (d.isRunning = true ↔ ∃ k, d.hasEnded k = false) ↔
      ∀ p ∈ d.line, ∀ k, p.progress = .stopping (some k) → d.hasEnded k = true := by
  rw [h.isTended.isRunning_iff]
  constructor
  · intro tells p hp k waits
    refine Bool.of_not_eq_false fun alive => ?_
    cases waits.symm.trans ((tells.mpr ⟨k, alive⟩).2 p hp)
  · intro idle
    refine ⟨And.left, fun ⟨k, alive⟩ => ⟨⟨k, alive⟩, fun p hp => ?_⟩⟩
    rcases h.isTended.isKnown alive with held | ⟨q, rest, hl, waits⟩
    · have looks : d.isRunning = true := by simp [isRunning, held, alive]
      exact (h.isTended.isRunning_iff.mp looks).2 p hp
    · cases alive.symm.trans (idle q (by simp [hl]) k waits)

/-- A device that has been configured looks as if it ran, also with a call to shut it down in line,
and its loop goes on. -/
theorem isRunning_tells_entered :
    ∃ hs d, Story (fun d caller => d.IsHarmless caller) ⟨"default", "dev"⟩ {} hs d ∧
      d.line.length = 1 ∧ d.hasEnded 0 = false ∧
      (d.isRunning = true ↔ ∃ k, d.hasEnded k = false) := by
  have entered := (story_spawned fun d caller => d.IsHarmless caller).snoc (.entered 1 .shutdown)
  refine ⟨_, _, entered, rfl, rfl, (isRunning_tells_iff entered).mpr ?_⟩
  exact List.forall_mem_singleton.mpr nofun

/-- A device that is shut down does not look as if it ran, while its loop is still to finish its
cycle. -/
theorem exists_life_unseen : ∃ hs d, Life ⟨"default", "dev"⟩ {} hs d ∧ d.hasEnded 0 = false ∧
    d.isRunning = false := by
  have waiting := (life_spawned.snoc (.entered 1 .shutdown)).snoc .granted
  exact ⟨_, _, waiting, rfl, rfl⟩

end Device
end GattSync
