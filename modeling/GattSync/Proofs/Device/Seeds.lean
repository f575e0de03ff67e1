import GattSync.Proofs.Device.Abandonment
import GattSync.Proofs.Device.Contents
import GattSync.Proofs.Device.Isolation
import GattSync.Proofs.Resync.Overture

/-!
# What is published at the start of a cycle

A device that publishes on start hands to its publisher what its cycles have started from. When a
store is published, nothing has been done with it but to start the session of its cycle
(`Journal.isUntouched`): nothing has been recorded in it, and no listener has been registered for
it. So every publication is the seed of its cycle (`Journal.seeds`).

If the seed of a cycle is what was published last, every publication goes back to the status of a
configure whose loop has found that nothing had been published (`Journal.inherited_of_published`).
While one loop at a time goes on, that is the first configure (`Journal.first_of_published`). A
caller that abandons a call while it waits for a loop breaks this: the next loop starts beside the
one before it and can publish first (`exists_overtaken`).
-/

namespace GattSync

open Program

namespace Resync.Settings.Begins

variable {s : Settings} {calls : List (Call effects)}

theorem isPrompt (h : s.Begins calls) (hp : s.config.publishPoint = .onStart) :
    IsPrompt s calls := by
  obtain ⟨more, next, loop⟩ := h
  exact (loop.isPrompt hp).of_append

/-- The clock can count up to the first tick of a loop that has done more than look at it. -/
theorem exists_now {call : Call effects} (h : s.Begins (calls ++ [call])) (hc : call.1 ≠ .now) :
    ∃ now, ⟨.now, some now⟩ ∈ calls ∧
      (now + s.config.syncInterval).seconds < Ticker.clockRange := by
  obtain ⟨more, next, loop⟩ := h
  rw [List.append_assoc, List.singleton_append] at loop
  rcases loop.launches with ⟨none_made, -⟩ | ⟨now, rest, made, ended⟩
  · simp at none_made
  · cases calls with
    | nil =>
      obtain ⟨rfl, -⟩ := List.cons.inj made
      exact absurd rfl hc
    | cons first calls =>
      obtain ⟨rfl, rfl⟩ := List.cons.inj made
      refine ⟨now, List.mem_cons_self, ended.resolve_left fun stopped => ?_⟩
      simp at stopped

end Resync.Settings.Begins

namespace Device

open Resync

variable {may : Device → Nat → Prop} {identity : DeviceIdentity} {config : SyncConfig}
  {es : List Entry} {hs past rest : List Happening} {d d' : Device} {x : Happening} {j k : Nat}
  {store : Status.Store} {seed status : Status.Snapshot}

/-! ## Stores before their publication -/

/-- Nothing has been done with the store but to start a session. -/
def IsUntouched (hs : List Happening) (store : Status.Store) : Prop :=
  ∀ (k : Nat) (effect : Cycle.Effect) (y : Option effect.Answer),
    .asked k ⟨.cycle store effect, y⟩ ∈ hs → effect = .session .start

/-- When a cycle has done no more than to begin, its store is untouched. -/
theorem Journal.isUntouched {s : Settings} {earlier : List (Program.Call effects)}
    {last : Option Status.Snapshot} {y : Except Error Session.Queue}
    (h : Journal may identity config es d) (hs : happenings es = past ++ rest)
    (hc : callsOf k past = earlier ++ overture s last store y) : IsUntouched past store := by
  intro j effect z hm
  obtain ⟨before, after, rfl⟩ := List.append_of_mem hm
  have split : happenings es =
      before ++ .asked j ⟨.cycle store effect, z⟩ :: (after ++ rest) := by simp [hs]
  have openedBefore := h.mem_opened split
  -- the loop that uses the store and the loop of the cycle have both opened it
  have theirs : store ∈ opened (callsOf j (happenings es)) := by
    rw [split, callsOf_append, opened_append]
    exact List.mem_append_left _ openedBefore
  have mine : store ∈ opened (callsOf k (happenings es)) := by
    rw [hs, callsOf_append, hc, opened_append, opened_append]
    exact List.mem_append_left _ (List.mem_append_right _ store_mem_overture)
  obtain rfl := h.eq_of_mem_opened theirs mine
  have once : (opened (earlier ++ overture s last store y)).Nodup := by
    have all := h.nodup_opened j
    rw [hs, callsOf_append, hc, opened_append] at all
    exact all.of_append_left
  have own : callsOf j (before ++ .asked j ⟨.cycle store effect, z⟩ :: after) =
      callsOf j before ++ ⟨.cycle store effect, z⟩ :: callsOf j after := by simp [callsOf]
  rw [own] at hc
  rcases append_eq_append_cons_iff.mp hc.symm with ⟨between, rfl, -⟩ | ⟨between, -, within⟩
  · rw [opened_append, opened_append] at once
    have twice := (List.nodup_append.mp once).2.2 store (List.mem_append_left _ openedBefore)
    exact absurd rfl (twice store store_mem_overture)
  · exact eq_start_of_mem_overture (within ▸ List.mem_append_right _ List.mem_cons_self)

/-- An untouched store holds what it has been opened with. -/
theorem Journal.snapshot_of_isUntouched (h : Journal may identity config es d)
    (ho : .asked k ⟨.openStore seed, some store⟩ ∈ happenings es)
    (hu : IsUntouched (happenings es) store) : (ledger es).stores.snapshot store = seed := by
  have unchanged : updatesOf store es = [] := by
    refine Classical.byContradiction fun updated => ?_
    obtain ⟨j, effect, y, worked, hm⟩ := h.exists_of_updatesOf_ne_nil updated
    exact worked (hu j effect y hm)
  rw [h.snapshot_eq_updated ho, unchanged]
  rfl

/-! ## Publications and seeds -/

/-- The stores that have been published, each with the loop that has published it. -/
def publications (hs : List Happening) : List (Nat × Status.Store) :=
  hs.filterMap fun
    | .asked k call => (handed? call).map (k, ·)
    | _ => none

theorem publications_append :
    publications (past ++ rest) = publications past ++ publications rest := List.filterMap_append

/-- The cycle in which this loop has opened this store has begun with this seed. -/
def HasSeed (config : SyncConfig) (hs : List Happening) (k : Nat) (store : Status.Store)
    (seed : Status.Snapshot) : Prop :=
  ∃ spec initial earlier last y later, (configured hs)[k]? = some (spec, initial) ∧
    callsOf k hs = earlier ++ overture ⟨config, spec, initial⟩ last store y ++ later ∧
    seed = config.seed initial last

theorem getElem?_configured {given : DeviceSpec × Status.Snapshot}
    (h : (configured past)[k]? = some given) (rest : List Happening) :
    (configured (past ++ rest))[k]? = some given := by
  rwa [configured_append, List.getElem?_append_left (List.getElem?_eq_some_iff.mp h).1]

theorem HasSeed.append (h : HasSeed config past k store seed) (rest : List Happening) :
    HasSeed config (past ++ rest) k store seed := by
  obtain ⟨spec, initial, earlier, last, y, later, given, calls, hs⟩ := h
  refine ⟨spec, initial, earlier, last, y, later ++ callsOf k rest, getElem?_configured given rest,
    ?_, hs⟩
  rw [callsOf_append, calls, List.append_assoc _ later]

/-- A store is published when its cycle has done no more than to begin. -/
theorem Journal.overture_of_published {y : Option Unit} (h : Journal may identity config es d)
    (hp : config.publishPoint = .onStart)
    (hs : happenings es = past ++ .asked k ⟨.cycle store .publish, y⟩ :: rest) :
    ∃ spec initial earlier last z, (configured (happenings es))[k]? = some (spec, initial) ∧
      callsOf k past = earlier ++ overture ⟨config, spec, initial⟩ last store z := by
  have spawned : k < (configured (happenings es)).length := by
    refine h.story.lt_of_mem (x := .asked k ⟨.cycle store .publish, y⟩) ?_ rfl
    simp [hs]
  have begins := h.story.begins (List.getElem?_eq_getElem spawned)
  have own : callsOf k (happenings es) =
      callsOf k past ++ ⟨.cycle store .publish, y⟩ :: callsOf k rest := by
    simp [hs, callsOf]
  obtain ⟨earlier, last, z, calls⟩ := begins.isPrompt hp _ store y _ own
  exact ⟨_, _, earlier, last, z, List.getElem?_eq_getElem spawned, calls⟩

/-- What is handed to the publisher is what the cycle has begun with. -/
theorem Journal.hasSeed_of_published {y : Option Unit} (h : Journal may identity config es d)
    (hp : config.publishPoint = .onStart)
    (hx : Happens (happenings es) d (.asked k ⟨.cycle store .publish, y⟩) d')
    (hf : (ledger es).Fits (.asked k ⟨.cycle store .publish, y⟩) d') :
    HasSeed config (happenings es) k store ((ledger es).stores.snapshot store) := by
  have journal := h.happened hx hf default
  have last : happenings (es ++ [.happened (.asked k ⟨.cycle store .publish, y⟩) default]) =
      happenings es ++ [.asked k ⟨.cycle store .publish, y⟩] := by
    rw [happenings_append, happenings_happened]
  obtain ⟨spec, initial, earlier, last?, z, given, calls⟩ := journal.overture_of_published hp last
  rw [last, configured_append] at given
  have opening : .asked k ⟨.openStore (config.seed initial last?), some store⟩ ∈
      happenings es := by
    refine mem_callsOf.mp ?_
    simp [calls, overture]
  have whole : happenings es = happenings es ++ [] := (List.append_nil _).symm
  have held := h.snapshot_of_isUntouched opening (h.isUntouched whole calls)
  exact ⟨spec, initial, earlier, last?, z, [], by simpa [configured] using given,
    by simpa using calls, held⟩

/-- The publications of a device, in order, are the seeds of its cycles. -/
theorem Journal.seeds (h : Journal may identity config es d)
    (hp : config.publishPoint = .onStart) :
    List.Forall₂ (fun p status => HasSeed config (happenings es) p.1 p.2 status)
      (publications (happenings es)) (ledger es).published := by
  induction h with
  | created => exact .nil
  | abandoned _ _ _ ih => exact ih
  | delivered _ _ payload now ih =>
    rw [happenings_append, happenings_delivered, List.append_nil, ledger_append]
    exact ih
  | @happened es d d' x h hx hf now ih =>
    rw [happenings_append, happenings_happened, publications_append, ledger_append]
    have before := ih.imp fun _ _ seeded => seeded.append [x]
    cases x with
    | asked k call =>
      show List.Forall₂ _ _ ((ledger es).ask now call).published
      rw [Ledger.published_ask]
      refine List.rel_append before ?_
      cases handing : handed? call with
      | none => simp [publications, handed, handing]
      | some store =>
        obtain ⟨y, rfl⟩ := eq_of_handed? handing
        exact .cons ((h.hasSeed_of_published hp hx hf).append _) .nil
    | _ => simpa [publications, Ledger.note] using before

/-! ## What was published first -/

/-- The moments that the loops have been told when they looked at the clock. -/
def moments (hs : List Happening) : List Duration :=
  hs.filterMap fun
    | .asked _ ⟨.now, now⟩ => now
    | _ => none

theorem moments_append : moments (past ++ rest) = moments past ++ moments rest :=
  List.filterMap_append

theorem mem_moments {now : Duration} (h : .asked k ⟨.now, some now⟩ ∈ hs) : now ∈ moments hs :=
  List.mem_filterMap.mpr ⟨_, h, rfl⟩

theorem Journal.mono {more : Device → Nat → Prop} (hm : ∀ d caller, may d caller → more d caller)
    (h : Journal may identity config es d) : Journal more identity config es d := by
  induction h with
  | created h => exact .created h
  | happened _ hx hf now ih => exact ih.happened hx hf now
  | delivered _ hl payload now ih => exact ih.delivered hl payload now
  | abandoned _ caller harmless ih => exact ih.abandoned caller (hm _ caller harmless)

/-- On a clock that does not go back, an earlier loop looks at it earlier. -/
theorem Story.moment_le {now later : Duration}
    (h : Story (fun d caller => d.IsHarmless caller) identity config hs d)
    (hc : (moments hs).Pairwise (· ≤ ·)) (hjk : j < k) (hj : .asked j ⟨.now, some now⟩ ∈ hs)
    (hk : .asked k ⟨.now, some later⟩ ∈ hs) : now ≤ later := by
  induction h with
  | created => cases hj
  | abandoned _ _ _ ih => exact ih hc hj hk
  | @snoc hs d d' x h hx ih =>
    rw [moments_append] at hc
    obtain ⟨before, -, ordered⟩ := List.pairwise_append.mp hc
    rcases List.mem_append.mp hj with hj | hj
    · rcases List.mem_append.mp hk with hk | hk
      · exact ih before hj hk
      · exact ordered now (mem_moments hj) later (mem_moments hk)
    · -- the loop that makes the call is the last one
      obtain rfl := List.mem_singleton.mp hj
      have alive : d.hasEnded j = false := by
        cases hx with
        | asked hl ha => exact hasEnded_eq_false_iff.mpr ⟨_, hl, ha⟩
      have newest := h.isTended.isLast alive
      rw [h.length_loops] at newest
      rcases List.mem_append.mp hk with hk | hk
      · have spawned := h.lt_of_mem hk rfl
        omega
      · cases List.mem_singleton.mp hk
        omega

theorem Serves.eq_lastPublished {last : Option Status.Snapshot}
    (h : d.Serves k ⟨.lastPublished, some last⟩ d') : last = d.lastPublished := by
  generalize found : (⟨.lastPublished, some last⟩ : Program.Call effects) = call at h
  cases h with
  | lastPublished =>
    obtain ⟨-, same⟩ := Sigma.mk.inj found
    exact Option.some.inj (eq_of_heq same)
  | foreign foreign =>
    cases found
    cases foreign
  | _ => cases found

/-- What a loop finds to have been published last has been published. -/
theorem Journal.mem_published (h : Journal may identity config es d)
    (hl : .asked k ⟨.lastPublished, some (some status)⟩ ∈ happenings es) :
    status ∈ (ledger es).published := by
  induction h with
  | created => cases hl
  | abandoned _ _ _ ih => exact ih hl
  | delivered _ _ payload now ih =>
    rw [happenings_append, happenings_delivered, List.append_nil] at hl
    rw [ledger_append]
    exact ih hl
  | @happened es d d' x h hx hf now ih =>
    rw [happenings_append, happenings_happened] at hl
    rw [ledger_append]
    have kept := (Ledger.published_prefix (ledger es) [.happened x now]).subset
    rcases List.mem_append.mp hl with earlier | looked
    · exact kept (ih earlier)
    · obtain rfl := List.mem_singleton.mp looked
      refine kept (List.mem_of_getLast? ?_)
      cases hx with
      | asked _ _ _ hv => rw [← h.lastPublished_eq, ← hv.eq_lastPublished]

/-- When a loop other than the first one goes on from its launch, something has been published. -/
theorem Journal.published_ne_nil {call : Program.Call effects}
    (h : Journal (fun d caller => d.IsHarmless caller) identity config es d)
    (hp : config.publishPoint = .onStart)
    (hx : Happens (happenings es) d (.asked k call) d') (ho : call.1 ≠ .now) (hk : 0 < k)
    (hc : (moments (happenings es)).Pairwise (· ≤ ·)) : (ledger es).published ≠ [] := by
  cases hx with
  | @asked _ l _ _ hl ha hb hv =>
    have spawned : k < d.loops.length := (List.getElem?_eq_some_iff.mp hl).1
    have alive : d.hasEnded k = false := hasEnded_eq_false_iff.mpr ⟨l, hl, ha⟩
    have first : 0 < (configured (happenings es)).length := by
      rw [← h.story.length_loops]
      omega
    have ended : .ended 0 ∈ happenings es := by
      refine (h.story.hasEnded_iff first).mp (Bool.of_not_eq_false fun goesOn => ?_)
      have newest := h.story.isTended.isLast alive
      have only := h.story.isTended.isLast goesOn
      omega
    -- the clock of this loop is in range, and so is that of the first one
    obtain ⟨later, looked, inRange⟩ := hb.exists_now ho
    have loop := h.story.loops_of_ended (List.getElem?_eq_getElem first) ended
    have clock (now : Duration) (hn : ⟨.now, some now⟩ ∈ callsOf 0 (happenings es)) :
        (now + config.syncInterval).seconds < Ticker.clockRange := by
      have earlier := h.story.moment_le hc hk (mem_callsOf.mp hn) (mem_callsOf.mp looked)
      rw [Loop.settings, h.story.config_eq] at inRange
      refine Nat.lt_of_le_of_lt (Nat.div_le_div_right ?_) inRange
      exact Nat.add_le_add_right earlier _
    obtain ⟨store, published⟩ := loop.exists_handed clock
    obtain ⟨y, handing⟩ := mem_handed.mp published
    have listed : (0, store) ∈ publications (happenings es) :=
      List.mem_filterMap.mpr ⟨_, mem_callsOf.mp handing, rfl⟩
    intro unpublished
    have count := (h.seeds hp).length_eq
    rw [unpublished] at count
    exact absurd (List.length_eq_zero_iff.mp count) (List.ne_nil_of_mem listed)

/-- Only the first loop finds that nothing has been published. -/
theorem Journal.eq_zero_of_unpublished
    (h : Journal (fun d caller => d.IsHarmless caller) identity config es d)
    (hp : config.publishPoint = .onStart) (hc : (moments (happenings es)).Pairwise (· ≤ ·))
    (hl : .asked k ⟨.lastPublished, some none⟩ ∈ happenings es) : k = 0 := by
  induction h with
  | created => cases hl
  | abandoned _ _ _ ih => exact ih hc hl
  | delivered _ _ payload now ih =>
    rw [happenings_append, happenings_delivered, List.append_nil] at hc hl
    exact ih hc hl
  | @happened es d d' x h hx hf now ih =>
    rw [happenings_append, happenings_happened] at hl hc
    rw [moments_append] at hc
    have ordered := (List.pairwise_append.mp hc).1
    rcases List.mem_append.mp hl with earlier | looked
    · exact ih ordered earlier
    · obtain rfl := List.mem_singleton.mp looked
      refine Nat.eq_zero_of_not_pos fun later => ?_
      refine h.published_ne_nil hp hx nofun later ordered (List.getLast?_eq_none_iff.mp ?_)
      cases hx with
      | asked _ _ _ hv => rw [← h.lastPublished_eq, ← hv.eq_lastPublished]

/-- Seeds that are what was published last go back to the status of a configure whose loop has found
that nothing was. -/
theorem Journal.inherited_of_published (h : Journal may identity config es d)
    (hp : config.publishPoint = .onStart) (hs : config.statusSeed = .previous)
    (hm : status ∈ (ledger es).published) :
    ∃ k spec, (configured (happenings es))[k]? = some (spec, status) ∧
      .asked k ⟨.lastPublished, some none⟩ ∈ happenings es := by
  induction h generalizing status with
  | created => cases hm
  | abandoned _ _ _ ih => exact ih hm
  | delivered _ _ payload now ih =>
    rw [happenings_append, happenings_delivered, List.append_nil]
    rw [ledger_append] at hm
    exact ih hm
  | @happened es d d' x h hx hf now ih =>
    rw [happenings_append, happenings_happened]
    have before {status : Status.Snapshot} (hm : status ∈ (ledger es).published) :
        ∃ k spec, (configured (happenings es ++ [x]))[k]? = some (spec, status) ∧
          .asked k ⟨.lastPublished, some none⟩ ∈ happenings es ++ [x] := by
      obtain ⟨k, spec, given, looked⟩ := ih hm
      exact ⟨k, spec, getElem?_configured given [x], List.mem_append_left _ looked⟩
    rw [ledger_append] at hm
    cases x with
    | asked k call =>
      have hm : status ∈ ((ledger es).ask now call).published := hm
      rw [Ledger.published_ask, List.mem_append] at hm
      rcases hm with earlier | new
      · exact before earlier
      · obtain ⟨store, handing, rfl⟩ := List.mem_map.mp new
        obtain ⟨y, only⟩ := mem_handed.mp handing
        obtain rfl := List.mem_singleton.mp only
        obtain ⟨spec, initial, earlier, last, z, later, given, calls, seed⟩ :=
          h.hasSeed_of_published hp hx hf
        have looked : .asked k ⟨.lastPublished, some last⟩ ∈ happenings es := by
          refine mem_callsOf.mp ?_
          simp [calls, overture]
        rw [seed]
        simp only [SyncConfig.seed, hs]
        cases last with
        | some status => exact before (h.mem_published looked)
        | none =>
          exact ⟨k, spec, getElem?_configured given _, List.mem_append_left _ looked⟩
    | _ => exact before hm

/-- If no loop begins before the one before it has ended, that is the status that the device was
first configured with. -/
theorem Journal.first_of_published
    (h : Journal (fun d caller => d.IsHarmless caller) identity config es d)
    (hp : config.publishPoint = .onStart) (hs : config.statusSeed = .previous)
    (hc : (moments (happenings es)).Pairwise (· ≤ ·)) (hm : status ∈ (ledger es).published) :
    ∃ spec, (configured (happenings es))[0]? = some (spec, status) := by
  obtain ⟨k, spec, given, looked⟩ := h.inherited_of_published hp hs hm
  obtain rfl := h.eq_zero_of_unpublished hp hc looked
  exact ⟨spec, given⟩

/-! ## Publications on start -/

/-- The publications of a device are the seeds of its cycles. -/
structure PublishesSeeds (may : Device → Nat → Prop) (config : SyncConfig) (es : List Entry) :
    Prop where
  /-- Before its publication, nothing is done with a store but to start the session of its cycle:
  nothing is recorded in it, and no listener is registered for it. -/
  untouched {before after : List Happening} {k : Nat} {store : Status.Store} {y : Option Unit}
    (h : happenings es = before ++ .asked k ⟨.cycle store .publish, y⟩ :: after) :
    IsUntouched before store
  /-- What has been published, in order, is what the cycles of the publications have begun with. -/
  seeds : List.Forall₂ (fun p status => HasSeed config (happenings es) p.1 p.2 status)
    (publications (happenings es)) (ledger es).published
  /-- Each loop publishes the status that its configure was called with. -/
  initial (hs : config.statusSeed = .initial) :
    List.Forall₂ (fun p status => ∃ spec, (configured (happenings es))[p.1]? = some (spec, status))
      (publications (happenings es)) (ledger es).published
  empty (hs : config.statusSeed = .empty) : ∀ status ∈ (ledger es).published, status = .empty
  /-- Every publication is the status of a configure whose loop has found that nothing had been
  published. -/
  inherited (hs : config.statusSeed = .previous) : ∀ status ∈ (ledger es).published,
    ∃ k spec, (configured (happenings es))[k]? = some (spec, status) ∧
      .asked k ⟨.lastPublished, some none⟩ ∈ happenings es
  /-- That is the first configure, if nobody abandons a call that waits for a loop that goes on, and
  the clock does not go back. A loop that nobody waits for can be overtaken by the next one. -/
  previous (hs : config.statusSeed = .previous)
    (hm : ∀ d caller, may d caller → d.IsHarmless caller)
    (hc : (moments (happenings es)).Pairwise (· ≤ ·)) : ∀ status ∈ (ledger es).published,
      ∃ spec, (configured (happenings es))[0]? = some (spec, status)

/-- However the calls of any number of callers, those of the loops and what listeners are told at
any time fall: a device that publishes on start publishes nothing but seeds. No value that is read,
written back or notified ever comes into a publication. -/
theorem seeds_published (h : Journal may identity config es d)
    (hp : config.publishPoint = .onStart) : PublishesSeeds may config es := by
  constructor
  case untouched =>
    intro before after k store y hs
    obtain ⟨spec, initial, earlier, last, z, -, calls⟩ := h.overture_of_published hp hs
    exact h.isUntouched hs calls
  case seeds => exact h.seeds hp
  case initial =>
    intro hs
    refine (h.seeds hp).imp fun p status seeded => ?_
    obtain ⟨spec, initial, _, _, _, _, given, -, rfl⟩ := seeded
    exact ⟨spec, by simpa [SyncConfig.seed, hs] using given⟩
  case empty =>
    intro hs
    have emptied : List.Forall₂ (fun status p => status = .empty ∧
        HasSeed config (happenings es) p.1 p.2 status) (ledger es).published
        (publications (happenings es)) := by
      refine ((h.seeds hp).imp fun p status seeded => ⟨?_, seeded⟩).flip
      obtain ⟨_, _, _, _, _, _, -, -, rfl⟩ := seeded
      simp [SyncConfig.seed, hs]
    exact ((List.forall₂_and_left _ _).mp emptied).1
  case inherited =>
    intro hs status published
    exact h.inherited_of_published hp hs published
  case previous =>
    intro hs hm hc status published
    exact (h.mono hm).first_of_published hp hs hc published

/-- The calls of a cycle whose session cannot be started, up to its publication. -/
def refused (last : Option Status.Snapshot) (seed : Status.Snapshot) (store : Status.Store) :
    List (Program.Call effects) :=
  [⟨.lastPublished, some last⟩, ⟨.openStore seed, some store⟩,
    ⟨.cycle store (.session .start), some (.error .notConnected)⟩, ⟨.cycle store .publish, some ()⟩]

/-- Starts each cycle from what was published last. -/
def resuming (point : PublishPoint) : SyncConfig :=
  { publishPoint := point, statusSeed := .previous }

theorem loops_refused (point : PublishPoint) (spec : DeviceSpec) (initial : Status.Snapshot)
    (last : Option Status.Snapshot) (store : Status.Store) :
    Phase.launched.Loops ⟨resuming point, spec, initial⟩
      (⟨.now, some .zero⟩ :: refused last (last.getD initial) store)
      (some (.resting startTicker)) := by
  have fail : Phase.Step ⟨resuming point, spec, initial⟩ (.begun startTicker)
      (refused last (last.getD initial) store) (some (.resting startTicker)) :=
    .run (.ask _ (.ask _ (.ask _ (.ask _ (.done _)))))
  exact (Phase.Loops.nil.snoc (step_launched rfl)).snoc fail

/-- A loop begins its first cycle. -/
theorem Makes.begun {l : Ledger} {j : Loop} {point : PublishPoint} {spec : DeviceSpec}
    {initial : Status.Snapshot} (h : Makes may identity config k [] l es d)
    (hl : d.loops[k]? = some j) (ha : j.hasEnded = false)
    (hs : j.settings d.config = ⟨resuming point, spec, initial⟩)
    (ho : store = l.stores.snapshots.length) (now : Timestamp) :
    Makes may identity config k
      [⟨.now, some .zero⟩, ⟨.lastPublished, some d.lastPublished⟩,
        ⟨.openStore (d.lastPublished.getD initial), some store⟩]
      { l with stores := (l.stores.create (d.lastPublished.getD initial)).2 }
      (es ++ [.happened (.asked k ⟨.now, some .zero⟩) now] ++
        [.happened (.asked k ⟨.lastPublished, some d.lastPublished⟩) now] ++
        [.happened (.asked k ⟨.openStore (d.lastPublished.getD initial), some store⟩) now]) d := by
  have loop := loops_refused point spec initial d.lastPublished store
  have launched := h.attended [⟨.now, some .zero⟩] hl ha hs loop
    (by simp [isForeign, Ledger.isIdle]) now
  have looked := launched.asked ⟨.lastPublished, some d.lastPublished⟩ hl ha hs loop .lastPublished
    trivial now
  exact looked.asked ⟨.openStore _, some store⟩ hl ha hs loop (.foreign rfl _) ho now

/-- Its session cannot be started, and it publishes what the cycle has begun with. -/
theorem Makes.refused {l : Ledger} {j : Loop} {point : PublishPoint} {spec : DeviceSpec}
    {initial : Status.Snapshot} {last : Option Status.Snapshot}
    (h : Makes may identity config k
      [⟨.now, some .zero⟩, ⟨.lastPublished, some last⟩,
        ⟨.openStore (last.getD initial), some store⟩] l es d)
    (hl : d.loops[k]? = some j) (ha : j.hasEnded = false)
    (hs : j.settings d.config = ⟨resuming point, spec, initial⟩) (now : Timestamp) :
    Makes may identity config k
      (⟨.now, some .zero⟩ :: Device.refused last (last.getD initial) store)
      { l with published := l.published ++ [l.stores.snapshot store] }
      (es ++ [.happened (.asked k ⟨.cycle store (.session .start), some (.error .notConnected)⟩)
        now] ++ [.happened (.asked k ⟨.cycle store .publish, some ()⟩) now])
      (d.remember (l.stores.snapshot store)) := by
  have loop := loops_refused point spec initial last store
  have failed := h.attended [⟨.cycle store (.session .start), some (.error .notConnected)⟩] hl ha hs
    loop (by simp [isForeign, Ledger.isIdle]) now
  exact failed.asked ⟨.cycle store .publish, some ()⟩ hl ha hs loop (.published store _) rfl now

/-- A device whose first loop has published is configured again. The session cannot be started, and
the new loop publishes the same, whatever its own spec and status are. -/
theorem exists_republished {point : PublishPoint} {spec : DeviceSpec} {initial : Status.Snapshot}
    {made : List (Program.Call effects)}
    (h : Makes may identity (resuming point) 0 made ⟨⟨[status]⟩, [status]⟩ es d)
    (hd : d = { identity, config := resuming point, lastPublished := some status
                loops := [{ spec, initial }], signal := some 0, handle := some 0 })
    (loop : Phase.launched.Loops ⟨resuming point, spec, initial⟩
      (made ++ [looked startTicker true]) none)
    (respec : DeviceSpec) (second : Status.Snapshot) :
    ∃ es' d', Journal may identity (resuming point) es' d' ∧
      configured (happenings es') = configured (happenings es) ++ [(respec, second)] ∧
      moments (happenings es') = moments (happenings es) ++ [.zero] ∧
      (ledger es').published = [status, status] := by
  subst hd
  have epoch : Timestamp := default
  have stopping := (h.happened (.entered 1 (.configure respec second)) rfl epoch).happened .granted
    rfl epoch
  have stopped := stopping.asked ⟨.rest startTicker.deadline, some true⟩ rfl rfl rfl loop
    (.rested _) trivial epoch
  have finished := stopped.calls.symm ▸ loop
  have ended := stopped.happened (show Happens _ _ (.ended 0) _ from .ended rfl rfl finished) rfl
    epoch
  have going : Makes may identity (resuming point) 1 [] ⟨⟨[status]⟩, [status]⟩ _ _ :=
    (ended.unspawned (Nat.le_refl 1)).happened (.returned rfl rfl) rfl epoch
  have published := (going.begun rfl rfl rfl rfl epoch).refused rfl rfl rfl epoch
  exact ⟨_, _, published.journal, by simp [happenings, configured], by simp [happenings, moments],
    congrArg (·.published) published.ledger⟩

/-- A device is configured, and its loop begins a cycle. -/
theorem exists_begun (may : Device → Nat → Prop) (point : PublishPoint) (first : Status.Snapshot) :
    ∃ es, Makes may ⟨"default", "dev"⟩ (resuming point) 0
        [⟨.now, some .zero⟩, ⟨.lastPublished, some none⟩, ⟨.openStore first, some 0⟩]
        ⟨⟨[first]⟩, []⟩ es
        { identity := ⟨"default", "dev"⟩, config := resuming point
          loops := [{ spec := {}, initial := first }], signal := some 0, handle := some 0 } ∧
      configured (happenings es) = [({}, first)] ∧ moments (happenings es) = [.zero] := by
  have epoch : Timestamp := default
  have made : Journal may ⟨"default", "dev"⟩ (resuming point) [] _ := .created rfl
  have spawned := ((made.happened (.entered 0 (.configure {} first)) trivial
    epoch).happened .granted trivial epoch).happened (.returned rfl rfl) trivial epoch
  have going : Makes _ _ _ 0 [] {} _ _ := ⟨spawned, rfl, rfl⟩
  exact ⟨_, going.begun rfl rfl rfl rfl epoch, by simp [happenings, configured],
    by simp [happenings, moments]⟩

/-- A device whose session cannot be started is configured, and configured again with another
status: it publishes the first one both times. -/
theorem exists_reconfigured (first second : Status.Snapshot) :
    ∃ es d, Journal (fun _ _ => False) ⟨"default", "dev"⟩ (resuming .onStart) es d ∧
      configured (happenings es) = [({}, first), ({}, second)] ∧
      moments (happenings es) = [.zero, .zero] ∧ (ledger es).published = [first, first] := by
  obtain ⟨es, begun, given, clock⟩ := exists_begun (fun _ _ => False) .onStart first
  have loop := (loops_refused .onStart {} first none 0).ends
  obtain ⟨es', d, journal, given', clock', handed⟩ :=
    exists_republished (begun.refused rfl rfl rfl default) rfl loop {} second
  simp only [happenings_append, happenings_happened, configured_append, given] at given'
  simp only [happenings_append, happenings_happened, moments_append, clock] at clock'
  exact ⟨es', d, journal, given', clock', handed⟩

/-- A caller gives up waiting for a loop that is in its first cycle, and another one configures the
device anew: the new loop publishes its own status, and the one before it publishes after it. -/
theorem exists_overtaken (point : PublishPoint) (first second : Status.Snapshot) :
    ∃ es d, Journal (fun _ _ => True) ⟨"default", "dev"⟩ (resuming point) es d ∧
      configured (happenings es) = [({}, first), ({}, second)] ∧
      moments (happenings es) = [.zero, .zero] ∧ (ledger es).published = [second, first] := by
  have epoch : Timestamp := default
  obtain ⟨es, begun, given, clock⟩ := exists_begun (fun _ _ => True) point first
  -- a call takes the handle and is abandoned
  have waiting := (begun.happened (.entered 1 (.configure {} second)) rfl epoch).happened .granted
    rfl epoch
  have lost := waiting.abandoned 1 trivial
  have granted := (lost.happened (.entered 2 (.configure {} second)) rfl epoch).happened .granted
    rfl epoch
  have beside := (granted.unspawned (Nat.le_refl 1)).happened (.returned rfl rfl) rfl epoch
  have overtook := (beside.begun rfl rfl rfl rfl epoch).refused rfl rfl rfl epoch
  -- the loop that nobody waits for goes on with its cycle
  have late := overtook.turned 0
    [⟨.now, some .zero⟩, ⟨.lastPublished, some none⟩, ⟨.openStore first, some 0⟩] (by
      simp only [happenings_append, happenings_happened, callsOf_append, begun.calls]
      rfl)
  have published := late.refused rfl rfl rfl epoch
  refine ⟨_, _, published.journal, ?_, ?_, congrArg (·.published) published.ledger⟩
  · simp only [happenings_append, happenings_happened, configured_append, given]
    rfl
  · simp only [happenings_append, happenings_happened, moments_append, clock]
    rfl

/-- Both publications are the status that the device was first configured with. -/
theorem seeds_published_reconfigured :
    ∃ es d, Journal (fun _ _ => False) ⟨"default", "dev"⟩ (resuming .onStart) es d ∧
      (ledger es).published = [⟨[⟨"level", "", "5", default⟩]⟩, ⟨[⟨"level", "", "5", default⟩]⟩] ∧
      PublishesSeeds (fun _ _ => False) (resuming .onStart) es ∧
      ∀ status ∈ (ledger es).published,
        ∃ spec, (configured (happenings es))[0]? = some (spec, status) := by
  obtain ⟨es, d, journal, -, clock, published⟩ :=
    exists_reconfigured ⟨[⟨"level", "", "5", default⟩]⟩ .empty
  have seeds := seeds_published journal rfl
  have ordered : (moments (happenings es)).Pairwise (· ≤ ·) := by
    rw [clock]
    decide
  exact ⟨es, d, journal, published, seeds, seeds.previous rfl nofun ordered⟩

/-- When nobody waits for the first loop any more, it is overtaken: what is published first is the
status that the device was configured with the second time. -/
theorem not_seeds_published_overtaken :
    ∃ es d, Journal (fun _ _ => True) ⟨"default", "dev"⟩ (resuming .onStart) es d ∧
      (moments (happenings es)).Pairwise (· ≤ ·) ∧
      configured (happenings es) = [({}, ⟨[⟨"level", "", "5", default⟩]⟩), ({}, .empty)] ∧
      (ledger es).published = [.empty, ⟨[⟨"level", "", "5", default⟩]⟩] ∧
      ¬ ∀ status ∈ (ledger es).published,
        ∃ spec, (configured (happenings es))[0]? = some (spec, status) := by
  obtain ⟨es, d, journal, given, clock, published⟩ :=
    exists_overtaken .onStart ⟨[⟨"level", "", "5", default⟩]⟩ .empty
  refine ⟨es, d, journal, by rw [clock]; decide, given, published, fun all => ?_⟩
  obtain ⟨spec, same⟩ := all .empty (by simp [published])
  rw [given] at same
  cases same

end Device
end GattSync
