import GattSync.Resync.Phase
import GattSync.Proofs.Program.Runs
import GattSync.Proofs.Resync.Span

/-!
# The life of a device

What happens to a device: callers join its line, the call at the head has its turn and returns, and
meanwhile its loops make their calls and end (`Happens`). Nothing is said of when. A loop makes the
calls that its phases make; it gets no answer of its own from the device but what was published last
and whether it has been told to stop. A call, once made, is waited for.

A loop that has not ended is always known to the device: the device holds its handle, or the call
whose turn it is waits for it (`IsTended`). So no call returns, and none spawns a loop, before the
loop that was running has ended.
-/

namespace GattSync

open Program

namespace Device

/-! ## What can happen -/

/-- What a loop of a device is given. -/
def Loop.settings (l : Loop) (config : SyncConfig) : Resync.Settings := ⟨config, l.spec, l.initial⟩

/-- The device has no part in the operation. -/
def isForeign : Resync.Effect → Bool
  | .cycle _ .publish => false
  | .lastPublished => false
  | .rest _ => false
  | _ => true

/-- What becomes of a device with a call of one of its loops. -/
inductive Serves (d : Device) (loop : Nat) : Program.Call Resync.effects → Device → Prop
  | published (store : Status.Store) (status : Status.Snapshot) :
    Serves d loop ⟨.cycle store .publish, some ()⟩ (d.remember status)
  | lastPublished : Serves d loop ⟨.lastPublished, some d.lastPublished⟩ d
  | rested (deadline : Duration) : Serves d loop ⟨.rest deadline, some (d.isStopped loop)⟩ d
  | foreign {op : Resync.Effect} (h : isForeign op) (x : Option op.Answer) :
    Serves d loop ⟨op, x⟩ d

/-- Something that happens to a device. -/
inductive Happening where
  /-- A call joins the line. -/
  | entered (caller : Nat) (call : Device.Call)
  /-- The call at the head of the line has its turn. -/
  | granted
  /-- The call at the head of the line returns. -/
  | returned (call : Device.Call)
  /-- A loop makes a call. -/
  | asked (loop : Nat) (call : Program.Call Resync.effects)
  | ended (loop : Nat)
  /-- The device is given up. -/
  | disposed

/-- The calls that a loop has made. -/
def callsOf (loop : Nat) (hs : List Happening) : List (Program.Call Resync.effects) :=
  hs.filterMap fun
    | .asked k call => if k = loop then some call else none
    | _ => none

/-- The specs that the device has been configured with, each with the status given along with it. -/
def configured (hs : List Happening) : List (DeviceSpec × Status.Snapshot) :=
  hs.filterMap fun
    | .returned (.configure spec initial) => some (spec, initial)
    | _ => none

end Device

/-- A loop can begin with these calls. -/
def Resync.Settings.Begins (s : Resync.Settings) (calls : List (Call Resync.effects)) : Prop :=
  ∃ more next, Resync.Phase.launched.Loops s (calls ++ more) next

theorem Resync.Settings.Begins.of_append {s : Resync.Settings}
    {calls more : List (Call Resync.effects)} (h : s.Begins (calls ++ more)) : s.Begins calls := by
  obtain ⟨rest, next, hl⟩ := h
  exact ⟨more ++ rest, next, by rwa [← List.append_assoc]⟩

namespace Device

/-- What can happen next. A loop that has not ended goes on, and it ends when its last phase
does. -/
inductive Happens (hs : List Happening) (d : Device) : Happening → Device → Prop
  | entered (caller : Nat) (call : Device.Call) :
    Happens hs d (.entered caller call) (d.enter caller call)
  | granted : Happens hs d .granted d.grant
  | returned {p : Pending} {rest : List Pending} (hl : d.line = p :: rest) (hr : d.canReturn) :
    Happens hs d (.returned p.call) d.complete
  | asked {k : Nat} {l : Loop} {call : Program.Call Resync.effects} {d' : Device}
      (hl : d.loops[k]? = some l) (ha : l.hasEnded = false)
      (hb : (l.settings d.config).Begins (callsOf k hs ++ [call])) (hv : d.Serves k call d') :
    Happens hs d (.asked k call) d'
  | ended {k : Nat} {l : Loop} (hl : d.loops[k]? = some l) (ha : l.hasEnded = false)
      (hb : Resync.Phase.launched.Loops (l.settings d.config) (callsOf k hs) none) :
    Happens hs d (.ended k) (d.endLoop k)
  | disposed : Happens hs d .disposed d.dispose

/-- What has happened to a device since it was made. -/
inductive Life (identity : DeviceIdentity) (config : SyncConfig) : List Happening → Device → Prop
  | created {d : Device} (h : Device.create identity config = .ok d) : Life identity config [] d
  | snoc {hs : List Happening} {d d' : Device} {x : Happening} (h : Life identity config hs d)
      (hx : Happens hs d x d') : Life identity config (hs ++ [x]) d'

variable {identity : DeviceIdentity} {config : SyncConfig} {hs before after : List Happening}
  {d d' : Device} {x : Happening}

/-- A life up to anything that happens is a life. -/
theorem Life.split (h : Life identity config hs d) (hx : hs = before ++ x :: after) :
    ∃ d₀ d₁, Life identity config before d₀ ∧ Happens before d₀ x d₁ := by
  induction h generalizing after with
  | created => exact absurd hx (by simp)
  | @snoc hs d d' y h hy ih =>
    rcases List.eq_nil_or_concat after with rfl | ⟨after, last, rfl⟩
    · obtain ⟨rfl, hlast⟩ := List.append_inj' hx rfl
      cases hlast
      exact ⟨d, d', h, hy⟩
    · have early : hs ++ [y] = (before ++ x :: after) ++ [last] := by simpa using hx
      exact ih (List.append_inj' early rfl).1

/-! ## What changes do to the loops -/

theorem eq_of_create (h : Device.create identity config = .ok d) : d = { identity, config } := by
  unfold Device.create at h
  cases hv : config.validate with
  | error e =>
    rw [hv] at h
    cases h
  | ok valid =>
    rw [hv] at h
    exact (Except.ok.inj h).symm

theorem hasEnded_eq_false_iff {k : Nat} :
    d.hasEnded k = false ↔ ∃ l, d.loops[k]? = some l ∧ l.hasEnded = false := by
  unfold hasEnded
  cases d.loops[k]? <;> simp

theorem lt_of_hasEnded_eq_false {k : Nat} (h : d.hasEnded k = false) : k < d.loops.length := by
  obtain ⟨l, hl, -⟩ := hasEnded_eq_false_iff.mp h
  exact (List.getElem?_eq_some_iff.mp hl).1

@[simp] theorem hasEnded_stop (k : Nat) : d.stop.hasEnded k = d.hasEnded k := by
  unfold stop
  cases d.signal with
  | none => rfl
  | some loop =>
    simp only [hasEnded, List.getElem?_modify]
    by_cases h : loop = k <;> cases d.loops[k]? <;> simp [h]

@[simp] theorem length_loops_stop : d.stop.loops.length = d.loops.length := by
  unfold stop
  cases d.signal <;> simp

@[simp] theorem line_stop : d.stop.line = d.line := by
  unfold stop
  cases d.signal <;> rfl

@[simp] theorem length_loops_spawn (spec : DeviceSpec) (initial : Status.Snapshot) :
    (d.spawn spec initial).loops.length = d.loops.length + 1 := by
  simp [spawn]

/-- The loop that is spawned has not ended, and nothing has changed for the others. -/
theorem hasEnded_spawn (spec : DeviceSpec) (initial : Status.Snapshot) (k : Nat) :
    (d.spawn spec initial).hasEnded k = if k = d.loops.length then false else d.hasEnded k := by
  simp only [spawn, hasEnded, List.getElem?_append]
  rcases Nat.lt_trichotomy k d.loops.length with earlier | new | later
  · simp [earlier, Nat.ne_of_lt earlier]
  · simp [new]
  · have none_new : [({ spec, initial } : Loop)][k - d.loops.length]? = none :=
      List.getElem?_eq_none (Nat.sub_pos_of_lt later)
    simp [Nat.not_lt_of_gt later, Nat.ne_of_gt later, none_new]

theorem hasEnded_endLoop {loop k : Nat} (h : (d.endLoop loop).hasEnded k = false) :
    k ≠ loop ∧ d.hasEnded k = false := by
  by_cases same : k = loop
  · subst same
    rw [hasEnded_endLoop_self] at h
    cases h
  · rw [hasEnded_endLoop_of_ne d same] at h
    exact ⟨same, h⟩

/-! ## Who knows of a loop -/

/-- Every loop that has not ended is the last one, and the device holds its handle or has a call
that waits for it; and only the call at the head of the line has had its turn. -/
structure IsTended (d : Device) : Prop where
  isLast {k : Nat} (h : d.hasEnded k = false) : k + 1 = d.loops.length
  isKnown {k : Nat} (h : d.hasEnded k = false) : d.handle = some k ∨
    ∃ p rest, d.line = p :: rest ∧ p.progress = .stopping (some k)
  isTaken {p : Pending} {rest : List Pending} {loop : Option Nat} (h : d.line = p :: rest)
    (hp : p.progress = .stopping loop) : d.handle = none
  inLine {p : Pending} {rest : List Pending} (h : d.line = p :: rest) :
    ∀ q ∈ rest, q.progress = .inLine

theorem isTended_create (h : Device.create identity config = .ok d) : d.IsTended := by
  obtain rfl := eq_of_create h
  exact ⟨nofun, nofun, nofun, nofun⟩

theorem IsTended.enter (h : d.IsTended) (caller : Nat) (call : Device.Call) :
    (d.enter caller call).IsTended where
  isLast := h.isLast
  isKnown {k} hk := by
    rcases h.isKnown hk with held | ⟨p, rest, hl, hp⟩
    · exact .inl held
    · exact .inr ⟨p, rest ++ [({ caller, call } : Pending)], by simp [Device.enter, hl], hp⟩
  isTaken {p rest loop} hl hp := by
    cases hd : d.line with
    | nil =>
      simp only [Device.enter, hd, List.nil_append, List.cons.injEq] at hl
      obtain ⟨rfl, -⟩ := hl
      cases hp
    | cons q more =>
      simp only [Device.enter, hd, List.cons_append, List.cons.injEq] at hl
      obtain ⟨rfl, -⟩ := hl
      exact h.isTaken hd hp
  inLine {p rest} hl := by
    cases hd : d.line with
    | nil =>
      simp only [Device.enter, hd, List.nil_append, List.cons.injEq] at hl
      obtain ⟨-, rfl⟩ := hl
      nofun
    | cons q more =>
      simp only [Device.enter, hd, List.cons_append, List.cons.injEq] at hl
      obtain ⟨-, rfl⟩ := hl
      exact List.forall_mem_append.mpr ⟨h.inLine hd, List.forall_mem_singleton.mpr rfl⟩

theorem IsTended.stop (h : d.IsTended) : d.stop.IsTended where
  isLast hk := by
    rw [hasEnded_stop] at hk
    rw [length_loops_stop]
    exact h.isLast hk
  isKnown hk := by
    rw [hasEnded_stop] at hk
    rw [handle_stop, line_stop]
    exact h.isKnown hk
  isTaken hl hp := by
    rw [line_stop] at hl
    rw [handle_stop]
    exact h.isTaken hl hp
  inLine hl := by
    rw [line_stop] at hl
    exact h.inLine hl

/-- The call at the head takes the handle, and so goes on to know what the device has known. -/
theorem IsTended.grant (h : d.IsTended) : d.grant.IsTended := by
  unfold Device.grant
  cases hl : d.line with
  | nil => exact h
  | cons p rest =>
    obtain ⟨caller, call, progress⟩ := p
    cases progress with
    | stopping loop => exact h
    | inLine =>
      refine ⟨fun hk => h.stop.isLast hk, fun {k} hk => ?_, fun _ _ => rfl, fun hl' => ?_⟩
      · rcases h.stop.isKnown hk with held | ⟨p, _, hp, waits⟩
        · rw [handle_stop] at held
          exact .inr ⟨_, rest, rfl, congrArg Progress.stopping held⟩
        · rw [line_stop, hl] at hp
          obtain ⟨rfl, -⟩ := List.cons.inj hp
          cases waits
      · obtain ⟨-, rfl⟩ := List.cons.inj hl'
        exact h.inLine hl

/-- When a call returns, all loops have ended. -/
theorem IsTended.hasEnded_of_canReturn (h : d.IsTended) (hr : d.canReturn) (k : Nat) :
    d.hasEnded k = true := by
  cases alive : d.hasEnded k with
  | true => rfl
  | false =>
    unfold canReturn at hr
    rcases h.isKnown alive with held | ⟨p, rest, hl, hp⟩
    · split at hr
      · rename_i hl
        cases held.symm.trans (h.isTaken hl rfl)
      · rename_i hl
        cases held.symm.trans (h.isTaken hl rfl)
      · cases hr
    · obtain ⟨caller, call, _⟩ := p
      obtain rfl := hp
      rw [hl] at hr
      exact absurd (alive.symm.trans hr) Bool.false_ne_true

/-- A call that returns leaves the line, and the one behind it has not had its turn. -/
theorem IsTended.complete (h : d.IsTended) (hr : d.canReturn) : d.complete.IsTended := by
  have ended := h.hasEnded_of_canReturn hr
  unfold Device.complete
  cases hl : d.line with
  | nil => exact h
  | cons p rest =>
    have waiting : ∀ q more, rest = q :: more → q.progress = .inLine ∧
        ∀ r ∈ more, r.progress = .inLine := fun q more hrest =>
      List.forall_mem_cons.mp (hrest ▸ h.inLine hl)
    obtain ⟨caller, call, progress⟩ := p
    cases call with
    | shutdown =>
      refine ⟨fun {k} hk => ?_, fun {k} hk => ?_, fun hl' hp => ?_, fun hl' => ?_⟩
      · cases hk.symm.trans (ended k)
      · cases hk.symm.trans (ended k)
      · cases (waiting _ _ hl').1.symm.trans hp
      · exact (waiting _ _ hl').2
    | configure spec initial =>
      have only : ∀ {k}, (d.spawn spec initial).hasEnded k = false → k = d.loops.length := by
        intro k hk
        rw [hasEnded_spawn, ended k] at hk
        by_cases new : k = d.loops.length
        · exact new
        · rw [if_neg new] at hk
          cases hk
      refine ⟨fun hk => ?_, fun hk => ?_, fun hl' hp => ?_, fun hl' => ?_⟩
      · obtain rfl := only hk
        exact (length_loops_spawn spec initial).symm
      · obtain rfl := only hk
        exact .inl rfl
      · cases (waiting _ _ hl').1.symm.trans hp
      · exact (waiting _ _ hl').2

theorem IsTended.endLoop (h : d.IsTended) (loop : Nat) : (d.endLoop loop).IsTended where
  isLast hk := by
    obtain ⟨-, alive⟩ := hasEnded_endLoop hk
    rw [h.isLast alive, Device.endLoop, List.length_modify]
  isKnown hk := h.isKnown (hasEnded_endLoop hk).2
  isTaken := h.isTaken
  inLine := h.inLine

theorem IsTended.serves {loop : Nat} {call : Program.Call Resync.effects} (h : d.IsTended)
    (hs : d.Serves loop call d') : d'.IsTended := by
  cases hs with
  | published store status => exact ⟨h.isLast, h.isKnown, h.isTaken, h.inLine⟩
  | _ => exact h

/-- Whatever happens, the device goes on to know of its loops. -/
theorem Happens.isTended (hx : Happens hs d x d') (h : d.IsTended) : d'.IsTended := by
  cases hx with
  | entered caller call => exact h.enter caller call
  | granted => exact h.grant
  | returned _ hr => exact h.complete hr
  | asked _ _ _ hs => exact h.serves hs
  | ended => exact h.endLoop _
  | disposed => exact h.stop

theorem Life.isTended (h : Life identity config hs d) : d.IsTended := by
  induction h with
  | created h => exact isTended_create h
  | snoc _ hx ih => exact hx.isTended ih

/-- A device whose first loop has been spawned. -/
def spawned : Device where
  identity := ⟨"default", "dev"⟩
  config := {}
  loops := [{ spec := {}, initial := .empty }]
  signal := some 0
  handle := some 0

theorem life_spawned :
    Life ⟨"default", "dev"⟩ {} [.entered 0 (.configure {} .empty), .granted,
      .returned (.configure {} .empty)] spawned := by
  have made : Life ⟨"default", "dev"⟩ {} [] _ := .created rfl
  have returned := ((made.snoc (.entered 0 (.configure {} .empty))).snoc .granted).snoc
    (.returned rfl rfl)
  exact returned

end Device
end GattSync
