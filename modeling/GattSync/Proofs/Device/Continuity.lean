import GattSync.Proofs.Device.Seeds

/-!
# Publications that continue each other

A device that starts each cycle from what was published last opens its stores with that. What it
publishes of a store is what it opened it with, along with the updates of the cycle. While one loop
at a time goes on, nothing else is published between the two (`Journal.last_eq`). So each
publication is the one before it with the updates of one cycle, whatever has become of the cycle and
of the spec (`publications_continue`).

When a caller abandons a call that waits for a loop, the next loop starts beside it. Each of the two
goes on from what it has found, and what they publish need have nothing in common
(`not_publications_continue_overtaken`).
-/

namespace GattSync

open Program

theorem Resync.Settings.Begins.isSeeded {s : Resync.Settings}
    {calls : List (Call Resync.effects)} (h : s.Begins calls) : Resync.IsSeeded s calls := by
  obtain ⟨more, next, loop⟩ := h
  exact loop.isSeeded.of_append

namespace Device

open Resync

variable {may : Device → Nat → Prop} {identity : DeviceIdentity} {config : SyncConfig}
  {es before after : List Entry} {d d' : Device} {x : Happening} {l : Ledger} {k n : Nat}
  {store : Status.Store} {seed status : Status.Snapshot}
  {earlier rest : List (Program.Call effects)} {last : Option Status.Snapshot}

/-! ## From the beginning of a cycle to its publication -/

/-- As long as a loop goes on, no other one makes calls. -/
theorem Journal.eq_of_asked {j : Nat} {call : Program.Call effects}
    (h : Journal (fun d caller => d.IsHarmless caller) identity config es d)
    (hx : Happens (happenings es) d (.asked j call) d')
    (hk : k < (configured (happenings es)).length) (he : .ended k ∉ happenings es) : j = k := by
  have other : d.hasEnded k = false :=
    Bool.of_not_eq_true fun ended => he ((h.story.hasEnded_iff hk).mp ended)
  cases hx with
  | asked hl ha =>
    have own : d.hasEnded j = false := hasEnded_eq_false_iff.mpr ⟨_, hl, ha⟩
    have last := h.story.isTended.isLast own
    have alsoLast := h.story.isTended.isLast other
    omega

theorem Ledger.getLast?_published {call : Program.Call effects} (h : handed [call] = [])
    (now : Timestamp) : (l.ask now call).published.getLast? = l.published.getLast? := by
  rw [published_ask, h, List.map_nil, List.append_nil]

/-- While a loop has published nothing since it looked for what was published last, nothing has been
published. -/
theorem Journal.last_eq (h : Journal (fun d caller => d.IsHarmless caller) identity config es d)
    (he : .ended k ∉ happenings es)
    (hc : callsOf k (happenings es) = earlier ++ ⟨.lastPublished, some last⟩ :: rest)
    (hr : handed rest = []) : last = (ledger es).published.getLast? := by
  induction h generalizing rest with
  | created => simp [happenings, callsOf] at hc
  | abandoned _ _ _ ih => exact ih he hc hr
  | delivered _ _ payload now ih =>
    rw [happenings_append, happenings_delivered, List.append_nil] at he hc
    rw [ledger_append]
    exact ih he hc hr
  | @happened es d d' x h hx hf now ih =>
    rw [happenings_append, happenings_happened] at he hc
    have looked : .asked k ⟨.lastPublished, some last⟩ ∈ happenings es ++ [x] :=
      mem_callsOf.mp (by simp [hc])
    have goesOn : .ended k ∉ happenings es := fun ended => he (List.mem_append_left _ ended)
    rw [ledger_append]
    cases x with
    | asked j call =>
      have same : j = k := by
        rcases List.mem_append.mp looked with early | new
        · exact h.eq_of_asked hx (h.story.lt_of_mem early rfl) goesOn
        · cases List.mem_singleton.mp new
          rfl
      subst same
      rw [callsOf_asked, if_pos rfl] at hc
      show last = ((ledger es).ask now call).published.getLast?
      rcases List.eq_nil_or_concat rest with rfl | ⟨init, latest, rfl⟩
      · obtain ⟨-, hlast⟩ := List.append_inj' hc rfl
        obtain rfl := List.singleton_inj.mp hlast
        rw [Ledger.getLast?_published rfl, ← h.lastPublished_eq]
        cases hx with
        | asked _ _ _ hv => exact hv.eq_lastPublished
      · rw [List.concat_eq_append] at hr hc
        rw [← List.cons_append, ← List.append_assoc] at hc
        obtain ⟨before, hlast⟩ := List.append_inj' hc rfl
        obtain rfl := List.singleton_inj.mp hlast
        rw [handed_append, List.append_eq_nil_iff] at hr
        rw [Ledger.getLast?_published hr.2]
        exact ih goesOn before hr.1
    | _ =>
      rw [callsOf_of_not_asked k rfl] at hc
      exact ih goesOn hc hr

/-- When a cycle publishes, its loop has looked for what had been published last, opened the store
with the seed that follows, and published nothing since. -/
theorem Journal.opening_of_published {y : Option Unit} (h : Journal may identity config es d)
    (hx : Happens (happenings es) d (.asked k ⟨.cycle store .publish, y⟩) d')
    (hf : (ledger es).Fits (.asked k ⟨.cycle store .publish, y⟩) d') :
    ∃ spec initial earlier last rest,
      (configured (happenings es))[k]? = some (spec, initial) ∧
      callsOf k (happenings es) = earlier ++ ⟨.lastPublished, some last⟩ ::
        ⟨.openStore (config.seed initial last), some store⟩ :: rest ∧ handed rest = [] := by
  have journal := h.happened hx hf default
  have whole : happenings (es ++ [.happened (.asked k ⟨.cycle store .publish, y⟩) default]) =
      happenings es ++ [.asked k ⟨.cycle store .publish, y⟩] := by
    rw [happenings_append, happenings_happened]
  have spawned : k < (configured (happenings es)).length := by
    rw [← h.story.length_loops]
    exact hx.lt_of_loop? rfl
  have given := List.getElem?_eq_getElem spawned
  obtain ⟨seed, opening⟩ := Resync.mem_opened.mp (journal.mem_opened whole)
  obtain ⟨first, rest, calls⟩ := List.append_of_mem opening
  obtain ⟨earlier, last, rfl, rfl⟩ := (h.story.begins given).isSeeded first seed store rest calls
  refine ⟨_, _, earlier, last, rest, given, by simpa using calls, ?_⟩
  obtain ⟨desk, follows, -⟩ := journal.story.follows k
  rw [whole, callsOf_asked, if_pos rfl, calls, List.append_assoc, List.cons_append] at follows
  refine follows.handed_eq_nil fun again => ?_
  have once := h.nodup_opened k
  rw [calls, opened_append, opened_cons] at once
  exact (List.nodup_cons.mp (List.nodup_append.mp once).2.1).1 again

/-! ## Publications -/

/-- After these entries of a journal, a loop publishes a store, as publication number `n`. -/
structure Publishes (es : List Entry) (n : Nat) (before : List Entry) (k : Nat)
    (store : Status.Store) : Prop where
  eq_append : ∃ y now after,
    es = before ++ .happened (.asked k ⟨.cycle store .publish, y⟩) now :: after
  length_eq : (ledger before).published.length = n

theorem Publishes.append (h : Publishes es n before k store) (more : List Entry) :
    Publishes (es ++ more) n before k store := by
  obtain ⟨⟨y, now, after, rfl⟩, length⟩ := h
  exact ⟨⟨y, now, after ++ more, by simp⟩, length⟩

/-- The publication before is the last one there is. -/
theorem Publishes.getLast?_eq (h : Publishes es (n + 1) before k store)
    (hp : (ledger es).published[n]? = some status) :
    (ledger before).published.getLast? = some status := by
  obtain ⟨⟨y, now, after, rfl⟩, length⟩ := h
  obtain ⟨more, published⟩ := Ledger.published_prefix (ledger before)
    (.happened (.asked k ⟨.cycle store .publish, y⟩) now :: after)
  rw [ledger_append, ← published, List.getElem?_append_left (by omega)] at hp
  rw [List.getLast?_eq_getElem?, length]
  exact hp

/-- Whatever has been published is what a store held when a loop published it. -/
theorem exists_publishes (h : (ledger es).published[n]? = some status) :
    ∃ before k store, Publishes es n before k store ∧
      status = (ledger before).stores.snapshot store := by
  induction es using List.reverseRecOn with
  | nil => simp [ledger] at h
  | append_singleton es e ih =>
    have early (h : (ledger es).published[n]? = some status) : ∃ before k store,
        Publishes (es ++ [e]) n before k store ∧
          status = (ledger before).stores.snapshot store := by
      obtain ⟨before, k, store, publishes, held⟩ := ih h
      exact ⟨before, k, store, publishes.append [e], held⟩
    rw [ledger_append] at h
    cases e with
    | delivered => exact early h
    | happened x now =>
      cases x with
      | asked k call =>
        have h : ((ledger es).ask now call).published[n]? = some status := h
        rw [Ledger.published_ask] at h
        rcases Nat.lt_or_ge n (ledger es).published.length with old | new
        · rw [List.getElem?_append_left old] at h
          exact early h
        · rw [List.getElem?_append_right new] at h
          cases handing : handed? call with
          | none => simp [handed, handing] at h
          | some store =>
            obtain ⟨y, rfl⟩ := eq_of_handed? handing
            have last : n - (ledger es).published.length = 0 := by
              have := (List.getElem?_eq_some_iff.mp h).1
              simpa [handed, handing] using this
            rw [last] at h
            exact ⟨es, k, store, ⟨⟨y, now, [], rfl⟩, by omega⟩, (Option.some.inj h).symm⟩
      | _ => exact early h

/-- A journal up to anything that happens is a journal. -/
theorem Journal.split {now : Timestamp} (h : Journal may identity config es d)
    (hs : es = before ++ .happened x now :: after) :
    ∃ d₀ d₁, Journal may identity config before d₀ ∧ Happens (happenings before) d₀ x d₁ ∧
      (ledger before).Fits x d₁ := by
  induction h generalizing after with
  | created => simp at hs
  | abandoned _ _ _ ih => exact ih hs
  | delivered _ _ payload _ ih =>
    rcases append_eq_append_cons_iff.mp hs with ⟨more, rfl, -⟩ | ⟨more, -, hlast⟩
    · exact ih rfl
    · cases more <;> simp at hlast
  | happened h hx hf _ ih =>
    rcases append_eq_append_cons_iff.mp hs with ⟨more, rfl, -⟩ | ⟨more, rfl, hlast⟩
    · exact ih rfl
    · cases more with
      | cons => simp at hlast
      | nil =>
        rw [List.append_nil]
        cases hlast
        exact ⟨_, _, h, hx, hf⟩

/-! ## What is published next -/

/-- A snapshot goes on from another one by updates. -/
structure GoesOn (p : Status.Snapshot) (us : List Status.Entry) (q : Status.Snapshot) : Prop where
  eq_updated : q = p.updated us
  names_prefix : p.names <+: q.names
  /-- What is not updated is where and as it was, also an entry whose name another entry before it
  bears. -/
  kept {i : Nat} {e : Status.Entry} (h : p.entries[i]? = some e)
    (hk : e.name ∉ us.map (·.name) ∨ e.name ∈ p.names.take i) : q.entries[i]? = some e

theorem goesOn_updated (p : Status.Snapshot) (us : List Status.Entry) :
    GoesOn p us (p.updated us) :=
  ⟨rfl, p.names_prefix_names_updated us, Status.Snapshot.getElem?_updated⟩

/-- The cycle in which this loop has opened this store has found this to be published last, and
begun with it, or else with the status that its configure was called with. -/
structure BeginsFrom (hs : List Happening) (k : Nat) (store : Status.Store)
    (initial : Status.Snapshot) (last : Option Status.Snapshot) : Prop where
  given : ∃ spec, (configured hs)[k]? = some (spec, initial)
  calls : ∃ earlier rest, callsOf k hs = earlier ++ ⟨.lastPublished, some last⟩ ::
    ⟨.openStore (last.getD initial), some store⟩ :: rest

/-- How the publications of a device that starts from what was published last go on from each
other. -/
structure Continuity (may : Device → Nat → Prop) (es : List Entry) : Prop where
  /-- Every publication goes on from what its cycle has begun with. The updates are those in the
  store of the cycle, up to the publication. -/
  grows {n : Nat} {q : Status.Snapshot} (hq : (ledger es).published[n]? = some q) :
    ∃ before k store initial last, Publishes es n before k store ∧
      BeginsFrom (happenings before) k store initial last ∧
      GoesOn (last.getD initial) (updatesOf store before) q
  /-- The cycle of the first publication has found nothing, if nobody abandons a call that waits for
  a loop that goes on. -/
  first (hm : ∀ d caller, may d caller → d.IsHarmless caller) {q : Status.Snapshot}
    (hq : (ledger es).published[0]? = some q) : ∃ before k store initial,
      Publishes es 0 before k store ∧ BeginsFrom (happenings before) k store initial none ∧
      GoesOn initial (updatesOf store before) q
  /-- Then every other one has found the publication before it, and goes on from there. -/
  next (hm : ∀ d caller, may d caller → d.IsHarmless caller) {n : Nat} {p q : Status.Snapshot}
    (hp : (ledger es).published[n]? = some p) (hq : (ledger es).published[n + 1]? = some q) :
    ∃ before k store initial, Publishes es (n + 1) before k store ∧
      BeginsFrom (happenings before) k store initial (some p) ∧
      GoesOn p (updatesOf store before) q

/-- What a store holds when it is published. -/
theorem Journal.goesOn_of_publishes (h : Journal may identity config es d)
    (hs : config.statusSeed = .previous) (hp : Publishes es n before k store) :
    ∃ initial last, BeginsFrom (happenings before) k store initial last ∧
      GoesOn (last.getD initial) (updatesOf store before)
        ((ledger before).stores.snapshot store) ∧
      ((∀ d caller, may d caller → d.IsHarmless caller) →
        last = (ledger before).published.getLast?) := by
  obtain ⟨⟨y, now, after, split⟩, -⟩ := hp
  obtain ⟨d₀, d₁, journal, hx, hf⟩ := h.split split
  obtain ⟨spec, initial, earlier, last, rest, given, calls, unhanded⟩ :=
    journal.opening_of_published hx hf
  have seeded : config.seed initial last = last.getD initial := by rw [SyncConfig.seed, hs]
  rw [seeded] at calls
  refine ⟨initial, last, ⟨⟨spec, given⟩, earlier, rest, calls⟩, ?_, fun hm => ?_⟩
  · have opening : .asked k ⟨.openStore (last.getD initial), some store⟩ ∈ happenings before :=
      mem_callsOf.mp (by simp [calls])
    rw [journal.snapshot_eq_updated opening]
    exact goesOn_updated _ _
  · have going : .ended k ∉ happenings before := by
      intro ended
      cases hx with
      | asked hl ha =>
        have alive := hasEnded_eq_false_iff.mpr ⟨_, hl, ha⟩
        have spawned := journal.story.lt_of_mem ended rfl
        cases alive.symm.trans ((journal.story.hasEnded_iff spawned).mpr ended)
    exact (journal.mono hm).last_eq going calls unhanded

/-- Whatever becomes of the cycles, and however often the device is configured with whatever specs
and statuses: a device that starts its cycles from what was published last publishes what goes on
from there, wherever in the cycle it publishes. -/
theorem publications_continue (h : Journal may identity config es d)
    (hs : config.statusSeed = .previous) : Continuity may es := by
  constructor
  case grows =>
    intro n q hq
    obtain ⟨before, k, store, publishes, rfl⟩ := exists_publishes hq
    obtain ⟨initial, last, begins, goesOn, -⟩ := h.goesOn_of_publishes hs publishes
    exact ⟨before, k, store, initial, last, publishes, begins, goesOn⟩
  case first =>
    intro hm q hq
    obtain ⟨before, k, store, publishes, rfl⟩ := exists_publishes hq
    obtain ⟨initial, last, begins, goesOn, found⟩ := h.goesOn_of_publishes hs publishes
    obtain rfl : last = none := by
      rw [found hm, List.length_eq_zero_iff.mp publishes.length_eq, List.getLast?_nil]
    exact ⟨before, k, store, initial, publishes, begins, goesOn⟩
  case next =>
    intro hm n p q hp hq
    obtain ⟨before, k, store, publishes, rfl⟩ := exists_publishes hq
    obtain ⟨initial, last, begins, goesOn, found⟩ := h.goesOn_of_publishes hs publishes
    obtain rfl : last = some p := (found hm).trans (publishes.getLast?_eq hp)
    exact ⟨before, k, store, initial, publishes, begins, goesOn⟩

/-- A status that a device is configured with. -/
def dimmed : Status.Snapshot := ⟨[⟨"mode", "dim", "1", default⟩]⟩

/-- The same with a level that a listener has been told. -/
def dimmedLevel : Status.Snapshot :=
  ⟨[⟨"mode", "dim", "1", default⟩, ⟨"level", "", "\"\"", default⟩]⟩

/-- A device publishes the status that it is configured with along with what a listener is told in
its first cycle. It is configured anew, with another spec and without a status, and publishes the
same when the session cannot be started any more. -/
theorem exists_resumed :
    ∃ es d, Journal (fun _ _ => False) ⟨"default", "dev"⟩ (resuming .afterCycle) es d ∧
      configured (happenings es) = [(follower.spec, dimmed), ({}, .empty)] ∧
      (ledger es).published = [dimmedLevel, dimmedLevel] := by
  have epoch : Timestamp := default
  have made : Journal (fun _ _ => False) ⟨"default", "dev"⟩ (resuming .afterCycle) [] _ :=
    .created rfl
  have spawned := ((made.happened (.entered 0 (.configure follower.spec dimmed)) trivial
    epoch).happened .granted trivial epoch).happened (.returned rfl rfl) trivial epoch
  have loop := (loops_hearer .previous dimmed).ends
  have going : Makes _ _ _ 0 [] {} _ _ := ⟨spawned, rfl, rfl⟩
  have launched := going.attended [⟨.now, some .zero⟩] rfl rfl rfl loop (by decide) epoch
  have looked := launched.asked ⟨.lastPublished, some none⟩ rfl rfl rfl loop .lastPublished trivial
    epoch
  have opened : Makes _ _ _ _ _ ⟨⟨[dimmed]⟩, []⟩ _ _ :=
    looked.asked ⟨.openStore dimmed, some 0⟩ rfl rfl rfl loop (.foreign rfl _) rfl epoch
  have registered := opened.attended registering rfl rfl rfl loop (by decide) epoch
  have heard : Makes _ _ _ _ _ ⟨⟨[dimmedLevel]⟩, []⟩ _ _ :=
    registered.delivered (List.mem_of_getElem? (i := 15) rfl) [] default
  have published : Makes _ _ _ _ _ ⟨⟨[dimmedLevel]⟩, [dimmedLevel]⟩ _ _ :=
    heard.asked ⟨.cycle 0 .publish, some ()⟩ rfl rfl rfl loop (.published 0 dimmedLevel) rfl epoch
  obtain ⟨es, d, journal, given, -, handed⟩ :=
    exists_republished published rfl loop {} .empty
  exact ⟨es, d, journal, by simpa [happenings, configured] using given, handed⟩

/-- What the listener has been told is carried over into the publication of the other loop. -/
theorem publications_continue_resumed :
    ∃ es d, Journal (fun _ _ => False) ⟨"default", "dev"⟩ (resuming .afterCycle) es d ∧
      Continuity (fun _ _ => False) es ∧ (ledger es).published = [dimmedLevel, dimmedLevel] ∧
      ∃ before k store initial, Publishes es 1 before k store ∧
        BeginsFrom (happenings before) k store initial (some dimmedLevel) ∧
        GoesOn dimmedLevel (updatesOf store before) dimmedLevel := by
  obtain ⟨es, d, journal, -, published⟩ := exists_resumed
  have continuity := publications_continue journal rfl
  refine ⟨es, d, journal, continuity, published, continuity.next nofun ?_ ?_⟩
  · exact congrArg (·[0]?) published
  · exact congrArg (·[1]?) published

/-- When nobody waits for the first loop any more, the next one publishes before it, and what the
first one publishes does not go on from that. -/
theorem not_publications_continue_overtaken :
    ∃ es d, Journal (fun _ _ => True) ⟨"default", "dev"⟩ (resuming .afterCycle) es d ∧
      configured (happenings es) = [({}, dimmed), ({}, ⟨[⟨"level", "", "5", default⟩]⟩)] ∧
      (ledger es).published = [⟨[⟨"level", "", "5", default⟩]⟩, dimmed] ∧
      ¬ ∀ p q, (ledger es).published[0]? = some p → (ledger es).published[1]? = some q →
        p.names <+: q.names := by
  obtain ⟨es, d, journal, given, -, published⟩ :=
    exists_overtaken .afterCycle dimmed ⟨[⟨"level", "", "5", default⟩]⟩
  refine ⟨es, d, journal, given, published, fun all => ?_⟩
  rw [published] at all
  exact absurd (all _ _ rfl rfl) (by decide)

end Device
end GattSync
