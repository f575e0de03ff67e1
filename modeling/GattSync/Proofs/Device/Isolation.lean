import GattSync.Proofs.Cycle.Turn
import GattSync.Proofs.Device.Journal
import GattSync.Proofs.Device.Succession

/-!
# Isolation of cycles

Listeners outlive their cycles: at any later time they may be told anything, and what they are told
is recorded in the store of the cycle in which they were registered. That store has been published
by then, no other cycle has it, and what has been published is a copy. So a journal without any of
what listeners have been told too late is a journal of the same device, with the same publications
(`cycles_isolated`).
-/

namespace GattSync

open Program

namespace Device

open Resync

/-- The second journal is the first one without some of what listeners of published stores were
told. -/
inductive Thins : List Entry → List Entry → Prop
  | nil : Thins [] []
  | kept {es es' : List Entry} (h : Thins es es') (e : Entry) : Thins (es ++ [e]) (es' ++ [e])
  | dropped {es es' : List Entry} {store : Status.Store} (h : Thins es es')
      (hp : IsPublished (happenings es) store) (property : String) (payload : Bytes)
      (now : Timestamp) : Thins (es ++ [.delivered store property payload now]) es'

variable {may : Device → Nat → Prop} {identity : DeviceIdentity} {config : SyncConfig}
  {es es' : List Entry} {d d' : Device} {x : Happening} {l l' : Ledger} {store : Status.Store}
  {call : Program.Call effects} {k : Nat}

theorem Thins.happenings_eq (h : Thins es es') : happenings es' = happenings es := by
  induction h with
  | nil => rfl
  | kept _ e ih => rw [happenings_append, happenings_append, ih]
  | dropped _ _ property payload now ih => simpa using ih

theorem Thins.append (h : Thins es es') (more : List Entry) :
    Thins (es ++ more) (es' ++ more) := by
  induction more generalizing es es' with
  | nil => simpa using h
  | cons e more ih =>
    rw [List.append_cons, List.append_cons es']
    exact ih (h.kept e)

theorem Thins.refl (es : List Entry) : Thins es es := Thins.nil.append es

theorem thins_concat {e : Entry} (h : Thins (es ++ [e]) es') :
    (∃ es₀, es' = es₀ ++ [e] ∧ Thins es es₀) ∨
      (∃ store property payload now, e = .delivered store property payload now ∧
        IsPublished (happenings es) store) ∧ Thins es es' := by
  generalize hes : es ++ [e] = all at h
  cases h with
  | nil => simp at hes
  | kept h e' =>
    obtain ⟨rfl, hlast⟩ := List.append_inj' hes rfl
    obtain rfl := List.singleton_inj.mp hlast
    exact .inl ⟨_, rfl, h⟩
  | dropped h hp property payload now =>
    obtain ⟨rfl, hlast⟩ := List.append_inj' hes rfl
    obtain rfl := List.singleton_inj.mp hlast
    exact .inr ⟨⟨_, _, _, _, rfl, hp⟩, h⟩

/-! ## Two ledgers -/

/-- The ledgers agree but for what these stores hold. -/
structure Ledger.Agrees (apart : Status.Store → Prop) (l l' : Ledger) : Prop where
  published : l'.published = l.published
  count : l'.stores.snapshots.length = l.stores.snapshots.length
  same {store : Status.Store} (h : ¬ apart store) :
    l'.stores.snapshots[store]? = l.stores.snapshots[store]?

namespace Ledger.Agrees

variable {apart more : Status.Store → Prop}

theorem snapshot_eq (h : Agrees apart l l') (hs : ¬ apart store) :
    l'.stores.snapshot store = l.stores.snapshot store := by
  rw [Status.Stores.snapshot, h.same hs, Status.Stores.snapshot]

theorem mono (h : Agrees apart l l') (hm : ∀ store, apart store → more store) :
    Agrees more l l' :=
  ⟨h.published, h.count, fun hs => h.same fun ha => hs (hm _ ha)⟩

theorem create (h : Agrees apart l l') (seed : Status.Snapshot) :
    Agrees apart { l with stores := (l.stores.create seed).2 }
      { l' with stores := (l'.stores.create seed).2 } where
  published := h.published
  count := by simp [Status.Stores.create, h.count]
  same {st} hs := by
    simp only [Status.Stores.create, List.getElem?_append, h.count, h.same hs]

theorem upsert (h : Agrees apart l l') (store : Status.Store) (now : Timestamp)
    (name desired reported : String) :
    Agrees apart { l with stores := l.stores.upsert store now name desired reported }
      { l' with stores := l'.stores.upsert store now name desired reported } where
  published := h.published
  count := by simp [Status.Stores.upsert, h.count]
  same {st} hs := by
    simp only [Status.Stores.upsert, List.getElem?_modify, h.same hs]

/-- What only one of the stores apart is told makes no difference. -/
theorem upsert_apart (h : Agrees apart l l') (ha : apart store) (now : Timestamp)
    (name desired reported : String) :
    Agrees apart { l with stores := l.stores.upsert store now name desired reported } l' where
  published := h.published
  count := by simp [Status.Stores.upsert, h.count]
  same {st} hs := by
    have other : store ≠ st := by
      rintro rfl
      exact hs ha
    simp [Status.Stores.upsert, h.same hs, other]

/-- A call keeps them so, but what is published has to be the same. -/
theorem ask (h : Agrees apart l l') (now : Timestamp)
    (hp : ∀ store ∈ handed? call, ¬ apart store) :
    Agrees apart (l.ask now call) (l'.ask now call) := by
  obtain ⟨seed, store, rfl⟩ | ⟨store, property, desired, reported, x, rfl⟩ | ⟨store, x, rfl⟩ |
    idle := call_cases call
  · exact h.create seed
  · exact h.upsert store now property desired reported
  · refine ⟨?_, h.count, h.same⟩
    have held := h.snapshot_eq (hp store rfl)
    simp only [Ledger.ask, h.published, held]
  · rwa [idle.ask, idle.ask]

theorem note (h : Agrees apart l l') (hp : ∀ store, IsPublished [x] store → ¬ apart store)
    (now : Timestamp) : Agrees apart (l.note (.happened x now)) (l'.note (.happened x now)) := by
  cases x with
  | asked k call => exact h.ask now fun store hs => hp store (isPublished_asked.mpr hs)
  | _ => exact h

/-- What fits the one ledger fits the other. -/
theorem fits (h : Agrees apart l l') (hp : ∀ store, IsPublished [x] store → ¬ apart store)
    (hf : l.Fits x d) : l'.Fits x d := by
  cases x with
  | asked k call =>
    obtain ⟨seed, store, rfl⟩ | ⟨store, property, desired, reported, x, rfl⟩ | ⟨store, x, rfl⟩ |
      idle := call_cases call
    · exact hf.trans h.count.symm
    · trivial
    · have held := h.snapshot_eq (hp store (isPublished_asked.mpr rfl))
      exact hf.trans (congrArg some held.symm)
    · exact idle.fits l' k d
  | _ => trivial

end Ledger.Agrees

/-- What is told to listeners of published stores changes nothing but these stores. -/
theorem Journal.thin (h : Journal may identity config es d) (ht : Thins es es') :
    Journal may identity config es' d ∧
      (ledger es).Agrees (IsPublished (happenings es)) (ledger es') := by
  induction h generalizing es' with
  | created h =>
    generalize hes : [] = all at ht
    cases ht with
    | nil => exact ⟨.created h, rfl, rfl, fun _ => rfl⟩
    | kept => simp at hes
    | dropped => simp at hes
  | abandoned _ caller hm ih =>
    obtain ⟨journal, agrees⟩ := ih ht
    exact ⟨journal.abandoned caller hm, agrees⟩
  | @happened es d d' x h hx hf now ih =>
    rcases thins_concat ht with ⟨es₀, rfl, thins⟩ | ⟨⟨_, _, _, _, ⟨⟩, _⟩, _⟩
    obtain ⟨journal, agrees⟩ := ih thins
    have fresh : ∀ store, IsPublished [x] store → ¬ IsPublished (happenings es) store := by
      rintro store ⟨k, y, hm⟩
      obtain rfl := List.mem_singleton.mp hm
      exact (h.happened hx hf now).not_isPublished (happenings_append)
    refine ⟨journal.happened (thins.happenings_eq ▸ hx) (agrees.fits fresh hf) now, ?_⟩
    rw [ledger_append, ledger_append, happenings_append]
    exact (agrees.note fresh now).mono fun store hp => isPublished_append.mpr (.inl hp)
  | @delivered es d store property h hl payload now ih =>
    rw [happenings_append, happenings_delivered, List.append_nil, ledger_append]
    rcases thins_concat ht with ⟨es₀, rfl, thins⟩ | ⟨⟨_, _, _, _, ⟨⟩, late⟩, thins⟩
    · obtain ⟨journal, agrees⟩ := ih thins
      refine ⟨journal.delivered (thins.happenings_eq ▸ hl) payload now, ?_⟩
      rw [ledger_append]
      exact agrees.upsert store now property "" (Text.Payload.quote payload)
    · obtain ⟨journal, agrees⟩ := ih thins
      exact ⟨journal, agrees.upsert_apart late now property "" (Text.Payload.quote payload)⟩

/-! ## Isolation -/

/-- The cycles of a device do not get in each other's way. -/
structure Isolated (may : Device → Nat → Prop) (identity : DeviceIdentity) (config : SyncConfig)
    (es : List Entry) (d : Device) : Prop where
  /-- No store is opened twice. -/
  fresh : ((opens (happenings es)).map (·.2)).Nodup
  /-- What a loop does in a cycle, registering listeners included, it does with the store that it
  has opened last. -/
  own {before after : List Happening} {k : Nat} {store : Status.Store} {effect : Cycle.Effect}
    {x : Option effect.Answer}
    (h : happenings es = before ++ .asked k ⟨.cycle store effect, x⟩ :: after) :
    (opened (callsOf k before)).getLast? = some store
  /-- No store is published twice. -/
  once {before after : List Happening} {k : Nat} {store : Status.Store} {x : Option Unit}
    (h : happenings es = before ++ .asked k ⟨.cycle store .publish, x⟩ :: after) :
    ¬ IsPublished before store
  /-- When its loop goes on to another store or ends, the store of a cycle has been published. So
  whatever listeners of earlier cycles are told comes after the publication of their store. -/
  outlived {before after : List Happening} {k : Nat} {store : Status.Store} {effect : Cycle.Effect}
    {x : Option effect.Answer}
    (h : happenings es = before ++ .asked k ⟨.cycle store effect, x⟩ :: after)
    (hl : opened (callsOf k after) ≠ [] ∨ .ended k ∈ happenings es) :
    IsPublished (happenings es) store
  /-- Without what listeners are told once their store has been published, all is the same: what
  happens and what is answered, the device, the publications, and what the stores hold that are
  still to be published. -/
  same {es' : List Entry} (h : Thins es es') : Journal may identity config es' d ∧
    (ledger es').published = (ledger es).published ∧
    ∀ store, ¬ IsPublished (happenings es) store →
      (ledger es').stores.snapshot store = (ledger es).stores.snapshot store
  /-- The device holds what it has published last. -/
  last : d.lastPublished = (ledger es).published.getLast?
  /-- What has been published stays as it is. -/
  lasting {before after : List Entry} (h : es = before ++ after) :
    (ledger before).published <+: (ledger es).published

/-- However the calls of any number of callers, those of the loops and what listeners are told at
any time fall: what a listener is told once its store has been published changes no publication, and
nothing of the device. -/
theorem cycles_isolated (h : Journal may identity config es d) :
    Isolated may identity config es d := by
  constructor
  case fresh => exact h.nodup_opens
  case own => exact h.getLast?_opened
  case once => exact h.not_isPublished
  case outlived =>
    intro before after k store effect x hs hl
    obtain ⟨desk, follows, ended⟩ := h.story.follows k
    obtain ⟨earlier, last⟩ := List.getLast?_eq_some_iff.mp (h.getLast?_opened hs)
    have all : opened (callsOf k (happenings es)) =
        earlier ++ store :: opened (callsOf k after) := by
      rw [hs, List.append_cons, callsOf_append, callsOf_asked, opened_append, opened_append, last,
        if_pos rfl]
      simp [opened, opened?]
    exact isPublished_iff.mpr ⟨k, follows.mem_handed all (hl.imp_right ended)⟩
  case same =>
    intro es' ht
    obtain ⟨journal, agrees⟩ := h.thin ht
    exact ⟨journal, agrees.published, fun store hs => agrees.snapshot_eq hs⟩
  case last => exact h.lastPublished_eq
  case lasting =>
    rintro before after rfl
    rw [ledger_append]
    exact Ledger.published_prefix _ after

/-! ## A late notification -/

/-- A journal of a device whose loop has made these calls. -/
structure Makes (may : Device → Nat → Prop) (identity : DeviceIdentity) (config : SyncConfig)
    (k : Nat) (made : List (Program.Call effects)) (l : Ledger) (es : List Entry) (d : Device) :
    Prop where
  journal : Journal may identity config es d
  calls : callsOf k (happenings es) = made
  ledger : ledger es = l

section Makes

variable {j : Loop} {s : Settings} {next : Option Phase} {made more : List (Program.Call effects)}

/-- A loop goes on with a call. -/
theorem Makes.asked (call : Program.Call effects) (h : Makes may identity config k made l es d)
    (hl : d.loops[k]? = some j) (ha : j.hasEnded = false) (hs : j.settings d.config = s)
    (hb : Phase.launched.Loops s (made ++ call :: more) next) (hv : d.Serves k call d')
    (hf : l.Fits (.asked k call) d') (now : Timestamp) :
    Makes may identity config k (made ++ [call]) (l.ask now call)
      (es ++ [.happened (.asked k call) now]) d' where
  journal := by
    rw [List.append_cons, ← h.calls, ← hs] at hb
    exact h.journal.happened (.asked hl ha ⟨more, next, hb⟩ hv) (h.ledger ▸ hf) now
  calls := by rw [happenings_append, happenings_happened, callsOf_asked, if_pos rfl, h.calls]
  ledger := by rw [ledger_append, h.ledger]; rfl

/-- Something happens that is no call of a loop. -/
theorem Makes.happened (h : Makes may identity config k made l es d)
    (hx : Happens (happenings es) d x d') (hn : x.isAsked = false) (now : Timestamp) :
    Makes may identity config k made l (es ++ [.happened x now]) d' where
  journal := by
    refine h.journal.happened hx ?_ now
    cases x with
    | asked => cases hn
    | _ => trivial
  calls := by rw [happenings_append, happenings_happened, callsOf_of_not_asked k hn, h.calls]
  ledger := by
    rw [ledger_append, h.ledger]
    cases x with
    | asked => cases hn
    | _ => rfl

/-- The same journal with a view to another loop. -/
theorem Makes.turned (h : Makes may identity config k made l es d) (j : Nat)
    (calls : List (Program.Call effects)) (hc : callsOf j (happenings es) = calls) :
    Makes may identity config j calls l es d where
  journal := h.journal
  calls := hc
  ledger := h.ledger

/-- A loop that is still to be spawned has made no calls. -/
theorem Makes.unspawned (h : Makes may identity config k made l es d) {j : Nat}
    (hj : d.loops.length ≤ j) : Makes may identity config j [] l es d :=
  h.turned j [] (h.journal.story.callsOf_eq_nil (h.journal.story.length_loops ▸ hj))

theorem Makes.abandoned (h : Makes may identity config k made l es d) (caller : Nat)
    (hm : may d caller) : Makes may identity config k made l es (d.abandon caller) where
  journal := h.journal.abandoned caller hm
  calls := h.calls
  ledger := h.ledger

/-- A loop goes on with calls in which the device has no part, and its ledger neither. -/
theorem Makes.attended (calls : List (Program.Call effects))
    (h : Makes may identity config k made l es d) (hl : d.loops[k]? = some j)
    (ha : j.hasEnded = false) (hs : j.settings d.config = s)
    (hb : Phase.launched.Loops s (made ++ (calls ++ more)) next)
    (hf : ∀ call ∈ calls, isForeign call.1 ∧ Ledger.isIdle call) (now : Timestamp) :
    Makes may identity config k (made ++ calls) l
      (es ++ calls.map fun call => .happened (.asked k call) now) d := by
  induction calls generalizing es made with
  | nil => simpa using h
  | cons call calls ih =>
    obtain ⟨⟨foreign, idle⟩, rest⟩ := List.forall_mem_cons.mp hf
    have idle := Ledger.idle_of_isIdle idle
    have first := h.asked call hl ha hs hb (.foreign foreign call.2) (idle.fits l k d) now
    rw [idle.ask] at first
    rw [List.cons_append, List.append_cons] at hb
    rw [List.map_cons, List.append_cons made, List.append_cons es]
    exact ih first hb rest

/-- A listener that the loop has registered is told something. -/
theorem Makes.delivered {p : Peripheral} {c : Characteristic} {property : String}
    {x : Option (Except Error Unit)} (h : Makes may identity config k made l es d)
    (hm : ⟨.cycle store (.session (.subscribe p c property)), x⟩ ∈ made) (payload : Bytes)
    (now : Timestamp) :
    Makes may identity config k made (l.note (.delivered store property payload now))
      (es ++ [.delivered store property payload now]) d where
  journal := by
    rw [← h.calls] at hm
    exact h.journal.delivered ⟨k, p, c, x, mem_callsOf.mp hm⟩ payload now
  calls := by simpa using h.calls
  ledger := by rw [ledger_append, h.ledger]; rfl

/-- What a listener is told once its store has been published can be left out. -/
theorem Makes.thins (h : Makes may identity config k made l es d) (hm : store ∈ handed made)
    (property : String) (payload : Bytes) (now : Timestamp) :
    Thins (es ++ [.delivered store property payload now]) es := by
  have published : IsPublished (happenings es) store := isPublished_iff.mpr ⟨k, h.calls ▸ hm⟩
  exact (Thins.refl es).dropped published property payload now

end Makes

/-- A characteristic that notifies its level. -/
def level : Characteristic := ⟨.batteryLevel, .base, Characteristic.notifyBit⟩

/-- The settings of a loop that follows the level of any peripheral. -/
def follower : Settings :=
  ⟨{}, { properties := [.on "level" .notifyOnly .batteryLevel] }, .empty⟩

/-- The calls of a cycle in which a listener is registered, from the start of its session to the
stop. -/
def registering : List (Program.Call effects) :=
  [⟨.cycle 0 (.session .start), some (.ok 0)⟩, ⟨.now, some .zero⟩,
    ⟨.receive 0, some (some (.adapterState .poweredOn))⟩,
    ⟨.cycle 0 (.session (.scan [])), some (.ok ())⟩,
    ⟨.receive 0, some (some (.discovered Cycle.nameless {} none))⟩,
    ⟨.cycle 0 (.session .stopScanning), some (.ok ())⟩,
    ⟨.cycle 0 (.session (.connect Cycle.nameless)), some (.ok ())⟩,
    ⟨.receive 0, some (some (.connected Cycle.nameless none))⟩,
    ⟨.cycle 0 (.session (.setMtu Cycle.nameless 500)), some (.ok ())⟩,
    ⟨.cycle 0 (.session (.discoverServices Cycle.nameless)), some (.ok [⟨.base, true⟩])⟩,
    ⟨.cycle 0 (.session (.discoverCharacteristics Cycle.nameless ⟨.base, true⟩)),
      some (.ok [level])⟩,
    ⟨.cycle 0 (.session (.discoverDescriptors Cycle.nameless level)), some (.ok [])⟩,
    ⟨.cycle 0 (.session (.subscribe Cycle.nameless level "level")), some (.ok ())⟩,
    ⟨.cycle 0 (.hold (.ofSeconds 5)), some ()⟩,
    ⟨.cycle 0 (.session (.cancelConnection Cycle.nameless)), some (.ok ())⟩,
    ⟨.receive 0, some none⟩, ⟨.conclude 0, some ()⟩,
    ⟨.cycle 0 (.session .stop), some (.ok ())⟩]

/-- The calls of a cycle whose session cannot be started, after one in which a listener was
registered. -/
def unstarted : List (Program.Call effects) :=
  [⟨.lastPublished, some (some .empty)⟩, ⟨.openStore .empty, some 1⟩,
    ⟨.cycle 1 (.session .start), some (.error .notConnected)⟩, ⟨.cycle 1 .publish, some ()⟩]

/-- The first cycle listens. -/
def hearing (c : Cycle.Controller) : Phase :=
  .listening startTicker 0 0 (.zero + follower.config.timeout.capped) c

/-- The settings of a loop that does so from any status. -/
def hearer (seed : StatusSeed) (initial : Status.Snapshot) : Settings :=
  ⟨{ statusSeed := seed }, follower.spec, initial⟩

/-- A loop goes through a cycle in which it registers a listener. -/
theorem loops_hearer (seed : StatusSeed) (initial : Status.Snapshot) :
    Phase.launched.Loops (hearer seed initial)
      (⟨.now, some .zero⟩ :: ⟨.lastPublished, some none⟩ ::
        ⟨.openStore ((hearer seed initial).config.seed initial none), some 0⟩ ::
        (registering ++ [⟨.cycle 0 .publish, some ()⟩]))
      (some (.resting startTicker)) := by
  have begin : (Phase.begun startTicker).Step (hearer seed initial)
      (⟨.lastPublished, some none⟩ ::
        ⟨.openStore ((hearer seed initial).config.seed initial none), some 0⟩ ::
        registering.take 2)
      (some (hearing {})) := .run (.ask _ (.ask _ (.ask _ (.ask _ (.done _)))))
  have scan : (hearing {}).Step (hearer seed initial) ((registering.drop 2).take 2)
      (some (hearing { connection := .scanning })) := .run (.ask _ (.ask _ (.done _)))
  have connect : (hearing { connection := .scanning }).Step (hearer seed initial)
      ((registering.drop 4).take 3)
      (some (hearing { connection := .connecting, target := Cycle.nameless })) :=
    .run (.ask _ (.ask _ (.ask _ (.done _))))
  have process : (hearing { connection := .connecting, target := Cycle.nameless }).Step
      (hearer seed initial) ((registering.drop 7).take 8)
      (some (hearing { connection := .connected, target := Cycle.nameless })) :=
    .run (.ask _ (.ask _ (.ask _ (.ask _ (.ask _ (.ask _ (.ask _ (.ask _ (.done _)))))))))
  have conclude : (hearing { connection := .connected, target := Cycle.nameless }).Step
      (hearer seed initial) ((registering.drop 15).take 2) (some (.closing startTicker 0)) :=
    .run (.ask _ (.ask _ (.done _)))
  have close : (Phase.closing startTicker 0).Step (hearer seed initial)
      (registering.drop 17 ++ [⟨.cycle 0 .publish, some ()⟩]) (some (.resting startTicker)) :=
    .run (.ask _ (.ask _ (.done _)))
  exact ((((((Phase.Loops.nil.snoc (step_launched rfl)).snoc begin).snoc scan).snoc connect).snoc
    process).snoc conclude).snoc close

/-- A loop goes through a cycle in which it registers a listener, and through another one. -/
theorem loops_follower : ∃ ticker, Phase.launched.Loops follower
    (⟨.now, some .zero⟩ :: ⟨.lastPublished, some none⟩ :: ⟨.openStore .empty, some 0⟩ ::
      (registering ++ ⟨.cycle 0 .publish, some ()⟩ ::
        ⟨.rest startTicker.deadline, some false⟩ :: ⟨.now, some .zero⟩ :: unstarted))
    (some (.resting ticker)) := by
  have fail (ticker : Ticker) : (Phase.begun ticker).Step follower unstarted
      (some (.resting ticker)) := .run (.ask _ (.ask _ (.ask _ (.ask _ (.done _)))))
  exact ⟨_, ((loops_hearer .initial .empty).ticks .zero).snoc (fail _)⟩

/-- A listener is told something after its cycle, before another one is gone through. It is recorded
in a store that has been published, and no publication is affected. -/
theorem cycles_isolated_late :
    ∃ es es' d, Journal (fun _ _ => False) ⟨"default", "dev"⟩ {} es d ∧ Thins es es' ∧
      es'.length < es.length ∧ ((ledger es).stores.snapshot 0).size = 1 ∧
      (ledger es).published = [.empty, .empty] ∧
      Isolated (fun _ _ => False) ⟨"default", "dev"⟩ {} es d := by
  obtain ⟨ticker, loop⟩ := loops_follower
  have epoch : Timestamp := default
  have made : Journal (fun _ _ => False) ⟨"default", "dev"⟩ {} [] _ := .created rfl
  have spawned := ((made.happened (.entered 0 (.configure follower.spec .empty)) trivial
    epoch).happened .granted trivial epoch).happened (.returned rfl rfl) trivial epoch
  have going : Makes _ _ _ 0 [] {} _ _ := ⟨spawned, rfl, rfl⟩
  have launched := going.attended [⟨.now, some .zero⟩] rfl rfl rfl loop (by decide) epoch
  have looked := launched.asked ⟨.lastPublished, some none⟩ rfl rfl rfl loop .lastPublished trivial
    epoch
  have opened : Makes _ _ _ _ _ ⟨⟨[.empty]⟩, []⟩ _ _ :=
    looked.asked ⟨.openStore .empty, some 0⟩ rfl rfl rfl loop (.foreign rfl _) rfl epoch
  have registered := opened.attended registering rfl rfl rfl loop (by decide) epoch
  have published : Makes _ _ _ _ _ ⟨⟨[.empty]⟩, [.empty]⟩ _ _ :=
    registered.asked ⟨.cycle 0 .publish, some ()⟩ rfl rfl rfl loop (.published 0 .empty) rfl epoch
  have rested := published.asked ⟨.rest startTicker.deadline, some false⟩ rfl rfl rfl loop
    (.rested _) trivial epoch
  have ticked := rested.attended [⟨.now, some .zero⟩] rfl rfl rfl loop (by decide) epoch
  have late : Makes _ _ _ _ _ ⟨⟨[⟨[⟨"level", "", "\"\"", epoch⟩]⟩]⟩, [.empty]⟩ _ _ :=
    ticked.delivered (List.mem_of_getElem? (i := 15) rfl) [] epoch
  have relooked := late.asked ⟨.lastPublished, some (some .empty)⟩ rfl rfl rfl loop
    .lastPublished trivial epoch
  have reopened : Makes _ _ _ _ _ ⟨⟨[⟨[⟨"level", "", "\"\"", epoch⟩]⟩, .empty]⟩, [.empty]⟩ _ _ :=
    relooked.asked ⟨.openStore .empty, some 1⟩ rfl rfl rfl loop (.foreign rfl _) rfl epoch
  have failed := reopened.attended [⟨.cycle 1 (.session .start), some (.error .notConnected)⟩]
    rfl rfl rfl loop (by decide) epoch
  have republished := failed.asked ⟨.cycle 1 .publish, some ()⟩ rfl rfl rfl loop
    (.published 1 .empty) rfl epoch
  have written := congrArg (fun l => (l.stores.snapshot 0).size) republished.ledger
  have handed := congrArg (·.published) republished.ledger
  exact ⟨_, _, _, republished.journal,
    ((((ticked.thins (.head _) "level" [] epoch).kept _).kept _).kept _).kept _,
    by simp, written, handed, cycles_isolated republished.journal⟩

end Device
end GattSync
