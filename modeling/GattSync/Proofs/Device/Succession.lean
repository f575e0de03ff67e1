import GattSync.Proofs.Device.Story

/-!
# The succession of loops

The loops of a device come one after the other: each is spawned by a call to configure as it
returns, when all loops before it have ended, so every call is made by the loop of the last
configure that has returned (`loops_succeed`).

The session of a device is started and stopped in turn. In the calls of one loop every start that
succeeds is followed by a stop before the next one (`Paired`), and no loop ends in between; so it is
also in the calls of all loops together.
-/

namespace GattSync

open Program

namespace Resync

/-! ## Starts and stops of one loop -/

/-- The session has been started, or it has been asked to stop. -/
inductive Toggle where
  | start
  | stop
  deriving DecidableEq, Repr

/-- What a mark does to the session. A start that fails does nothing. -/
def toggle? : Mark → Option Toggle
  | .request .start (some (.ok _)) => some .start
  | .request .stop _ => some .stop
  | _ => none

/-- The starts that have succeeded and the stops, in order. -/
def togglesOf (calls : List (Call effects)) : List Toggle := (marks calls).filterMap toggle?

/-- Start and stop in turn, so many times. -/
def pairs (n : Nat) : List Toggle := (List.replicate n [.start, .stop]).flatten

/-- Every start is followed by a stop. -/
def Paired (ts : List Toggle) : Prop := ∃ n, ts = pairs n

theorem paired_nil : Paired [] := ⟨0, rfl⟩

theorem Paired.append {first rest : List Toggle} (h : Paired first) (hr : Paired rest) :
    Paired (first ++ rest) := by
  obtain ⟨n, rfl⟩ := h
  obtain ⟨m, rfl⟩ := hr
  exact ⟨n + m, by rw [pairs, pairs, pairs, ← List.replicate_append_replicate, List.flatten_append]⟩

theorem togglesOf_append (first rest : List (Call effects)) :
    togglesOf (first ++ rest) = togglesOf first ++ togglesOf rest := by
  rw [togglesOf, marks_append, List.filterMap_append, togglesOf, togglesOf]

theorem Mark.IsInner.toggle? {m : Mark} (h : m.IsInner) : toggle? m = none := by
  cases m with
  | publication => rfl
  | request r x =>
    cases r with
    | start => exact absurd rfl h.1
    | stop => exact absurd rfl h.2
    | _ => rfl

theorem IsClosing.toggles {point : PublishPoint} {ms : List Mark} (h : IsClosing point ms) :
    ms.filterMap toggle? = [.stop] := by
  cases h <;> rfl

theorem IsSpan.paired {point : PublishPoint} {ms : List Mark} (h : IsSpan point ms) :
    Paired (ms.filterMap toggle?) := by
  have body {inner closing : List Mark} {p : PublishPoint} (hi : ∀ m ∈ inner, m.IsInner)
      (hc : IsClosing p closing) : (inner ++ closing).filterMap toggle? = [.stop] := by
    have silent : inner.filterMap toggle? = [] :=
      List.filterMap_eq_nil_iff.mpr fun m hm => (hi m hm).toggle?
    rw [List.filterMap_append, silent, hc.toggles, List.nil_append]
  cases h with
  | unstarted fault => exact paired_nil
  | onStart queue hi hc => exact ⟨1, congrArg (Toggle.start :: ·) (body hi hc)⟩
  | afterCycle queue hi hc => exact ⟨1, congrArg (Toggle.start :: ·) (body hi hc)⟩

theorem paired_flatten {point : PublishPoint} {spans : List (List Mark)}
    (h : ∀ span ∈ spans, IsSpan point span) : Paired (spans.flatten.filterMap toggle?) := by
  induction spans with
  | nil => exact paired_nil
  | cons span spans ih =>
    obtain ⟨hspan, hspans⟩ := List.forall_mem_cons.mp h
    rw [List.flatten_cons, List.filterMap_append]
    exact hspan.paired.append (ih hspans)

/-- A loop that has ended has stopped the session as often as it has started it. -/
theorem paired_of_loops {s : Settings} {calls : List (Call effects)}
    (h : Phase.launched.Loops s calls none) : Paired (togglesOf calls) := by
  obtain ⟨spans, seen, hm, hs, hb⟩ := h.spans
  obtain rfl : seen = [] := hb
  rw [togglesOf, hm, List.append_nil]
  exact paired_flatten hs

/-- Whatever a loop begins with, its starts and stops are the beginning of start and stop in
turn. -/
theorem Settings.Begins.paired {s : Settings} {calls : List (Call effects)} (h : s.Begins calls) :
    ∃ more, Paired (togglesOf calls ++ more) := by
  obtain ⟨rest, next, hl⟩ := h
  obtain ⟨spans, seen, hm, hs, hb⟩ := hl.spans
  obtain ⟨more, hmore⟩ := hb.isSpan_append
  refine ⟨togglesOf rest ++ more.filterMap toggle?, ?_⟩
  have whole : togglesOf calls ++ (togglesOf rest ++ more.filterMap toggle?) =
      (spans.flatten ++ (seen ++ more)).filterMap toggle? := by
    rw [← List.append_assoc, ← togglesOf_append, togglesOf, hm]
    simp only [List.filterMap_append, List.append_assoc]
  rw [whole, List.filterMap_append]
  exact (paired_flatten hs).append hmore.paired

end Resync

namespace Device

open Resync

variable {identity : DeviceIdentity} {config : SyncConfig} {hs before after : List Happening}
  {d d' : Device} {x : Happening}

/-! ## What the device holds and what has happened -/

theorem Life.specs_eq (h : Life identity config hs d) : d.specs = configured hs :=
  h.story.specs_eq

theorem Life.length_loops (h : Life identity config hs d) :
    d.loops.length = (configured hs).length :=
  h.story.length_loops

/-- The starts of the session that have succeeded and its stops, in order. -/
def toggles (hs : List Happening) : List Toggle :=
  hs.filterMap fun
    | .asked _ call => (mark? call).bind toggle?
    | _ => none

/-- What a loop does, it does while it is the last one. -/
theorem Life.current {k : Nat} (h : Life identity config hs d) (hs' : hs = before ++ x :: after)
    (hk : x.loop? = some k) : (configured before).length = k + 1 := by
  obtain ⟨d₀, d₁, life, hx⟩ := h.split hs'
  have alive : d₀.hasEnded k = false := by
    cases hx with
    | asked hl ha =>
      obtain rfl := Option.some.inj hk
      exact hasEnded_eq_false_iff.mpr ⟨_, hl, ha⟩
    | ended hl ha =>
      obtain rfl := Option.some.inj hk
      exact hasEnded_eq_false_iff.mpr ⟨_, hl, ha⟩
    | _ => cases hk
  rw [← life.length_loops, life.isTended.isLast alive]

/-- The loops that have ended are those of which this has happened. -/
theorem Life.hasEnded_iff (h : Life identity config hs d) {k : Nat}
    (hk : k < (configured hs).length) : d.hasEnded k = true ↔ .ended k ∈ hs :=
  h.story.hasEnded_iff hk

/-! ## The calls of the loops -/

/-- Every loop makes the calls of a loop with its own spec. -/
theorem Life.begins (h : Life identity config hs d) {k : Nat} {spec : DeviceSpec}
    {initial : Status.Snapshot} (hk : (configured hs)[k]? = some (spec, initial)) :
    Settings.Begins ⟨config, spec, initial⟩ (callsOf k hs) :=
  h.story.begins hk

theorem toggles_append : toggles (before ++ after) = toggles before ++ toggles after :=
  List.filterMap_append

theorem toggles_asked (k : Nat) (call : Program.Call Resync.effects) :
    toggles [.asked k call] = togglesOf [call] := by
  simp only [toggles, togglesOf, marks, List.filterMap_cons, List.filterMap_nil]
  cases mark? call with
  | none => rfl
  | some m => cases h : toggle? m <;> simp [h]

theorem toggles_of_not_asked (hx : x.isAsked = false) :
    toggles (hs ++ [x]) = toggles hs := by
  rw [toggles_append]
  cases x with
  | asked j call => cases hx
  | _ => exact List.append_nil _

/-- The session has been stopped as often as it has been started, but for what the loop that has not
ended has done to it. -/
structure IsBalanced (hs : List Happening) (d : Device) : Prop where
  going {k : Nat} (h : d.hasEnded k = false) :
    ∃ done, Paired done ∧ toggles hs = done ++ togglesOf (callsOf k hs)
  idle (h : ∀ k, d.hasEnded k = true) : Paired (toggles hs)

theorem IsTended.eq_of_hasEnded (h : d.IsTended) {j k : Nat} (hj : d.hasEnded j = false)
    (hk : d.hasEnded k = false) : j = k :=
  Nat.succ.inj ((h.isLast hj).trans (h.isLast hk).symm)

theorem IsBalanced.asked {j : Nat} {call : Program.Call Resync.effects} (h : IsBalanced hs d)
    (ht : d.IsTended) (hx : Happens hs d (.asked j call) d') :
    IsBalanced (hs ++ [.asked j call]) d' := by
  cases hx with
  | asked hl ha hb hv =>
    have alive : d.hasEnded j = false := hasEnded_eq_false_iff.mpr ⟨_, hl, ha⟩
    have same (k : Nat) : d'.hasEnded k = d.hasEnded k := by simp only [hasEnded, hv.unchanged.2]
    constructor
    case going =>
      intro k hk
      obtain rfl := ht.eq_of_hasEnded alive ((same k).symm.trans hk)
      obtain ⟨done, hd, htoggles⟩ := h.going alive
      refine ⟨done, hd, ?_⟩
      rw [toggles_append, toggles_asked, callsOf_asked, if_pos rfl, togglesOf_append, htoggles,
        List.append_assoc]
    case idle =>
      intro hk
      cases ((same j).trans alive).symm.trans (hk j)

theorem IsBalanced.ended {j : Nat} (h : IsBalanced hs d) (ht : d.IsTended)
    (hx : Happens hs d (.ended j) d') : IsBalanced (hs ++ [.ended j]) d' := by
  cases hx with
  | ended hl ha hb =>
    have alive : d.hasEnded j = false := hasEnded_eq_false_iff.mpr ⟨_, hl, ha⟩
    constructor
    case going =>
      intro k hk
      obtain ⟨other, hk⟩ := hasEnded_endLoop hk
      exact absurd (ht.eq_of_hasEnded hk alive) other
    case idle =>
      intro _
      obtain ⟨done, hd, htoggles⟩ := h.going alive
      rw [toggles_of_not_asked rfl, htoggles]
      exact hd.append (paired_of_loops hb)

theorem IsBalanced.returned {call : Device.Call} (h : IsBalanced hs d)
    (hd : Life identity config hs d) (hx : Happens hs d (.returned call) d') :
    IsBalanced (hs ++ [.returned call]) d' := by
  have toggled : toggles (hs ++ [.returned call]) = toggles hs := toggles_of_not_asked rfl
  cases hx with
  | @returned p rest hl hr =>
    have ended := hd.isTended.hasEnded_of_canReturn hr
    refine ⟨fun {k} hk => ?_, fun _ => toggled ▸ h.idle ended⟩
    -- no other loop than a new one is there, and that one has made no calls
    have new : callsOf k hs = [] := by
      cases hc : p.call with
      | configure spec initial =>
        rw [hd.story.hasEnded_of_configure hl hc, ended k] at hk
        by_cases hn : k = (configured hs).length
        · exact hd.story.callsOf_eq_nil (Nat.le_of_eq hn.symm)
        · rw [if_neg hn] at hk
          cases hk
      | shutdown =>
        obtain ⟨caller, call, progress⟩ := p
        obtain rfl := hc
        simp only [complete, hl, hasEnded] at hk
        cases hk.symm.trans (ended k)
    refine ⟨toggles hs, h.idle ended, ?_⟩
    rw [toggled, callsOf_of_not_asked k rfl, new]
    exact (List.append_nil _).symm

theorem Life.isBalanced (h : Life identity config hs d) : IsBalanced hs d := by
  induction h with
  | created h =>
    obtain rfl := eq_of_create h
    exact ⟨nofun, fun _ => paired_nil⟩
  | @snoc hs d d' x h hx ih =>
    cases x with
    | asked j call => exact ih.asked h.isTended hx
    | ended j => exact ih.ended h.isTended hx
    | returned call => exact ih.returned h hx
    | _ =>
      have same := hx.hasEnded_eq rfl nofun
      refine ⟨fun {k} hk => ?_, fun hk => ?_⟩
      · rw [toggles_of_not_asked rfl, callsOf_of_not_asked k rfl]
        exact ih.going ((same k).symm.trans hk)
      · rw [toggles_of_not_asked rfl]
        exact ih.idle fun k => (same k).symm.trans (hk k)

/-! ## One loop after the other -/

/-- The loops of a device come one after the other. -/
structure Succeeds (config : SyncConfig) (hs : List Happening) (d : Device) : Prop where
  /-- At most one loop has not ended. -/
  alone {j k : Nat} (hj : d.hasEnded j = false) (hk : d.hasEnded k = false) : j = k
  /-- There is a loop for each configure that has returned, and it has been given what the configure
  was called with. -/
  spawned : d.specs = configured hs
  /-- A loop makes the calls of a loop with its own spec. -/
  own {k : Nat} {spec : DeviceSpec} {initial : Status.Snapshot}
    (h : (configured hs)[k]? = some (spec, initial)) :
    Settings.Begins ⟨config, spec, initial⟩ (callsOf k hs)
  /-- When a loop is spawned, all loops before it have ended. -/
  replaced {before after : List Happening} {spec : DeviceSpec} {initial : Status.Snapshot}
    (h : hs = before ++ .returned (.configure spec initial) :: after) :
    ∀ k < (configured before).length, .ended k ∈ before
  /-- Every call is made by the loop of the last configure that has returned. -/
  latest {before after : List Happening} {k : Nat} {call : Program.Call Resync.effects}
    (h : hs = before ++ .asked k call :: after) : (configured before).length = k + 1
  /-- Once a configure has returned, only its own loop and later ones make calls. -/
  silent {before after : List Happening} {spec : DeviceSpec} {initial : Status.Snapshot} {k : Nat}
    {call : Program.Call Resync.effects}
    (h : hs = before ++ .returned (.configure spec initial) :: after)
    (hc : .asked k call ∈ after) : (configured before).length ≤ k
  /-- The starts that succeed and the stops are start and stop in turn. -/
  alternating : ∃ n, toggles hs <+: pairs n

/-- However the calls of any number of callers and those of the loops fall, as long as every call is
waited for, and also after the device has been given up: there is one loop after the other. -/
theorem loops_succeed (identity : DeviceIdentity) (config : SyncConfig) {hs : List Happening}
    {d : Device} (h : Life identity config hs d) : Succeeds config hs d := by
  constructor
  case alone =>
    intro j k hj hk
    exact h.isTended.eq_of_hasEnded hj hk
  case spawned => exact h.specs_eq
  case own =>
    intro k spec initial hk
    exact h.begins hk
  case replaced =>
    intro before after spec initial hs k hk
    obtain ⟨d₀, d₁, life, hx⟩ := h.split hs
    exact (life.hasEnded_iff hk).mp (life.isTended.hasEnded_of_canReturn hx.canReturn k)
  case latest =>
    intro before after k call hs
    exact h.current hs rfl
  case silent =>
    intro before after spec initial k call hr hc
    obtain ⟨middle, last, rfl⟩ := List.append_of_mem hc
    have split : hs = (before ++ .returned (.configure spec initial) :: middle) ++
        .asked k call :: last := by
      rw [hr, List.append_assoc, List.cons_append]
    have later := h.current split rfl
    rw [configured_append, List.length_append] at later
    have own : 0 < (configured (.returned (.configure spec initial) :: middle)).length :=
      Nat.succ_pos _
    omega
  case alternating =>
    have balanced := h.isBalanced
    by_cases idle : ∀ k, d.hasEnded k = true
    · obtain ⟨n, hn⟩ := balanced.idle idle
      exact ⟨n, hn ▸ List.prefix_rfl⟩
    · obtain ⟨k, hk⟩ := Classical.not_forall.mp idle
      obtain ⟨done, hd, htoggles⟩ := balanced.going (Bool.eq_false_iff.mpr hk)
      have given : k < (configured hs).length :=
        h.length_loops ▸ lt_of_hasEnded_eq_false (Bool.eq_false_iff.mpr hk)
      obtain ⟨more, hmore⟩ := (h.begins (List.getElem?_eq_getElem given)).paired
      obtain ⟨n, hn⟩ := hd.append hmore
      exact ⟨n, more, by rw [htoggles, List.append_assoc, hn]⟩

/-- The ticker of a loop that begins with the clock, at the default interval. -/
def startTicker : Ticker := ⟨.ofSeconds 15, .ofSeconds 15⟩

/-- A loop at the default interval begins a cycle. -/
theorem step_launched {s : Settings} (h : s.config.syncInterval = .ofSeconds 15) :
    Phase.Step s .launched [⟨.now, some .zero⟩] (some (.begun startTicker)) := by
  have clock : Ticker.start? .zero s.config.syncInterval = some startTicker := by
    rw [h]
    decide
  have run := Phase.runs_launched s .zero
  rw [clock] at run
  exact .run run

/-- The calls of a cycle from the opening of its store to the stop of its session. The events of the
session end at once. -/
def briefCycle (store : Status.Store) : List (Program.Call Resync.effects) :=
  [⟨.openStore .empty, some store⟩, ⟨.cycle store (.session .start), some (.ok 0)⟩,
    ⟨.now, some .zero⟩, ⟨.receive 0, some none⟩, ⟨.conclude 0, some ()⟩,
    ⟨.cycle store (.session .stop), some (.ok ())⟩]

/-- A loop goes through such a cycle and is told to stop. -/
theorem loops_brief (store : Status.Store) (last : Option Status.Snapshot) :
    Phase.launched.Loops ⟨{}, {}, .empty⟩
      (⟨.now, some .zero⟩ :: ⟨.lastPublished, some last⟩ :: (briefCycle store ++
        [⟨.cycle store .publish, some ()⟩, ⟨.rest startTicker.deadline, some true⟩])) none := by
  have begin : Phase.Step ⟨{}, {}, .empty⟩ (.begun startTicker)
      (⟨.lastPublished, some last⟩ :: (briefCycle store).take 3)
      (some (.listening startTicker store 0 (.zero + (SyncConfig.timeout {}).capped) {})) :=
    .run (.ask _ (.ask _ (.ask _ (.ask _ (.done _)))))
  have conclude : Phase.Step ⟨{}, {}, .empty⟩
      (.listening startTicker store 0 (.zero + (SyncConfig.timeout {}).capped) {})
      ((briefCycle store).drop 3 |>.take 2) (some (.closing startTicker store)) :=
    .run (.ask _ (.ask _ (.done _)))
  have close : Phase.Step ⟨{}, {}, .empty⟩ (.closing startTicker store)
      [⟨.cycle store (.session .stop), some (.ok ())⟩, ⟨.cycle store .publish, some ()⟩]
      (some (.resting startTicker)) := .run (.ask _ (.ask _ (.done _)))
  have stop : Phase.Step ⟨{}, {}, .empty⟩ (.resting startTicker)
      [⟨.rest startTicker.deadline, some true⟩] none := .run (.ask _ (.done _))
  have cycle := ((Phase.Loops.nil.snoc (step_launched rfl)).snoc begin).snoc conclude
  exact (cycle.snoc close).snoc stop

section Calls

variable (k : Nat) {l : Loop} {s : Settings} {made more : List (Program.Call Resync.effects)}
  {next : Option Phase}

/-- A loop that has made these calls goes on with another one. -/
theorem Life.asked (call : Program.Call Resync.effects) (h : Life identity config hs d)
    (hl : d.loops[k]? = some l) (ha : l.hasEnded = false) (hg : l.settings d.config = s)
    (hc : callsOf k hs = made) (hb : Phase.launched.Loops s (made ++ call :: more) next)
    (hv : d.Serves k call d') : Life identity config (hs ++ [.asked k call]) d' := by
  rw [← hc, ← hg, List.append_cons] at hb
  exact h.snoc (.asked hl ha ⟨more, next, hb⟩ hv)

/-- It goes on with calls in which the device has no part. -/
theorem Life.attended (calls : List (Program.Call Resync.effects)) (h : Life identity config hs d)
    (hl : d.loops[k]? = some l) (ha : l.hasEnded = false) (hg : l.settings d.config = s)
    (hc : callsOf k hs = made) (hb : Phase.launched.Loops s (made ++ (calls ++ more)) next)
    (hf : ∀ call ∈ calls, isForeign call.1) :
    Life identity config (hs ++ calls.map (.asked k)) d := by
  induction calls generalizing hs made with
  | nil => simpa using h
  | cons call calls ih =>
    obtain ⟨foreign, rest⟩ := List.forall_mem_cons.mp hf
    have first := h.asked k call hl ha hg hc hb (.foreign foreign call.2)
    rw [List.cons_append, List.append_cons] at hb
    rw [List.map_cons, List.append_cons]
    exact ih first (by rw [callsOf_asked, if_pos rfl, hc]) hb rest

end Calls

/-- A device is configured anew in the middle of a cycle: its session is started and stopped by the
first loop, and then by the second one. -/
theorem loops_succeed_reconfigured :
    ∃ hs d, Life ⟨"default", "dev"⟩ {} hs d ∧ (configured hs).length = 2 ∧
      (callsOf 0 hs).length = 10 ∧ (callsOf 1 hs).length = 9 ∧
      toggles hs = [.start, .stop, .start, .stop] ∧ Succeeds {} hs d := by
  have loop := loops_brief 0 none
  have launched := life_spawned.attended 0 [⟨.now, some .zero⟩] rfl rfl rfl rfl loop (by decide)
  have looked := launched.asked 0 ⟨.lastPublished, some none⟩ rfl rfl rfl rfl loop .lastPublished
  have started := looked.attended 0 ((briefCycle 0).take 2) rfl rfl rfl rfl loop (by decide)
  -- the second configure has its turn while the session is started
  have waiting := (started.snoc (.entered 1 (.configure {} .empty))).snoc .granted
  have closed := waiting.attended 0 ((briefCycle 0).drop 2) rfl rfl rfl rfl loop (by decide)
  have published := closed.asked 0 ⟨.cycle 0 .publish, some ()⟩ rfl rfl rfl rfl loop
    (.published 0 .empty)
  have stopped := published.asked 0 ⟨.rest startTicker.deadline, some true⟩ rfl rfl rfl rfl loop
    (.rested _)
  have ended := stopped.snoc (show Happens _ _ (.ended 0) _ from .ended rfl rfl loop)
  have replaced := ended.snoc (.returned rfl rfl)
  have second := loops_brief 1 (some .empty)
  have relaunched := replaced.attended 1 [⟨.now, some .zero⟩] rfl rfl rfl rfl second (by decide)
  have relooked := relaunched.asked 1 ⟨.lastPublished, some (some .empty)⟩ rfl rfl rfl rfl second
    .lastPublished
  have reclosed := relooked.attended 1 (briefCycle 1) rfl rfl rfl rfl second (by decide)
  have republished := reclosed.asked 1 ⟨.cycle 1 .publish, some ()⟩ rfl rfl rfl rfl second
    (.published 1 .empty)
  exact ⟨_, _, republished, rfl, rfl, rfl, rfl, loops_succeed _ _ republished⟩

end Device
end GattSync
