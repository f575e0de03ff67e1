import GattSync.Proofs.Cycle.Accesses
import GattSync.Proofs.Cycle.Coherence
import GattSync.Proofs.Cycle.Requests
import GattSync.Proofs.Spec.Identity

/-!
# The peripherals that a controller turns to

A controller asks nothing of a peripheral that it has not sighted: while it was searching, the
peripheral must have been discovered as one that the spec means. And apart from the requests to
connect, all that it asks is of the peripheral that it has last asked to connect to. This holds
whatever events come in whatever order, those of other peripherals included, and also for a turn
that is given up on the way (`requests_addressed`).

The target carries this from turn to turn. The completion of a connection puts its own peripheral in
the place of the target, but one with the same id (`Backed`).
-/

namespace GattSync

/-- The peripheral that something is asked of. -/
def Session.Request.addressee? {η : Type} : Session.Request η → Option Peripheral
  | .start => none
  | .stop => none
  | .scan _ => none
  | .stopScanning => none
  | .connect p => some p
  | .cancelConnection p => some p
  | .setMtu p _ => some p
  | .discoverServices p => some p
  | .discoverCharacteristics p _ => some p
  | .discoverDescriptors p _ => some p
  | .read p _ => some p
  | .write p _ _ _ => some p
  | .subscribe p _ _ => some p

/-- The peripheral that is to be connected to. -/
def Session.Request.connected? {η : Type} : Session.Request η → Option Peripheral
  | .connect p => some p
  | _ => none

/-- The request only goes on with a peripheral that a connection was requested to before. -/
def Session.Request.GoesOnWith {η : Type} (id : String) (r : Session.Request η) : Prop :=
  r.connected? = none ∧ ∀ q, r.addressee? = some q → q.id = id

theorem Session.Request.goesOnWith_of_isAccess {η : Type} {r : Session.Request η} {p : Peripheral}
    (h : r.IsAccess p) : r.GoesOnWith p.id := by
  refine ⟨?_, fun q hq => ?_⟩
  · cases r with
    | connect q => exact h.elim
    | _ => rfl
  · cases r with
    | discoverCharacteristics _ _ | discoverDescriptors _ _ | read _ _ | write _ _ _ _
    | subscribe _ _ _ =>
      obtain rfl := Option.some.inj hq
      exact congrArg Peripheral.id h
    | _ => exact h.elim

namespace Cycle

open Program

/-- The peripheral that a connection was last requested to. -/
def lastConnected? (rs : List (Session.Request String)) : Option Peripheral :=
  (rs.filterMap (·.connected?)).getLast?

theorem lastConnected?_append {first rest : List (Session.Request String)} :
    lastConnected? (first ++ rest) = (lastConnected? rest).or (lastConnected? first) := by
  simp [lastConnected?, List.getLast?_append]

theorem lastConnected?_eq_none {rs : List (Session.Request String)}
    (h : ∀ r ∈ rs, r.connected? = none) : lastConnected? rs = none := by
  rw [lastConnected?, List.filterMap_eq_nil_iff.mpr h]
  rfl

/-- Going through a connection asks of no other peripheral. -/
theorem IsConnection.goesOnWith {plan : Plan} {p : Peripheral}
    {rs : List (Session.Request String)} (h : IsConnection plan p rs) :
    ∀ r ∈ rs, r.GoesOnWith p.id := by
  obtain ⟨walk, rfl, hw⟩ := h
  have own (q : Peripheral) (hq : some p = some q) : q.id = p.id := by rw [Option.some.inj hq]
  intro r hr
  simp only [List.cons_append, List.mem_cons, List.mem_append, List.not_mem_nil, or_false] at hr
  rcases hr with rfl | rfl | hr | rfl
  · exact ⟨rfl, own⟩
  · exact ⟨rfl, own⟩
  · exact Session.Request.goesOnWith_of_isAccess (hw r hr)
  · exact ⟨rfl, own⟩

namespace Controller

variable {plan : Plan} {c c' : Controller} {e : Event} {calls : List (Call effects)}
  {p : Peripheral} {turns : List Turn}

/-- In this turn, while the controller searches, a peripheral with this id is discovered as one that
the spec means. -/
def Turn.Sights (plan : Plan) (u : Turn) (id : String) : Prop :=
  u.before.connection = .scanning ∧ ∃ p advertisement rssi,
    u.event = .discovered p advertisement rssi ∧ p.id = id ∧
      plan.spec.protocol.Means advertisement.localName p.address

/-- All turns that a controller has had so far. -/
inductive Account (plan : Plan) (c : Controller) : List Turn → Prop
  | whole {turns : List Turn} {c' : Controller} (h : History plan c turns c') :
    Account plan c turns
  /-- The last turn has been given up, which leaves the state as it was before. -/
  | cut {turns : List Turn} {c' : Controller} {e : Event} {calls : List (Call effects)}
      (h : History plan c turns c') (hb : (c'.handle plan e).Breaks calls) :
    Account plan c (turns ++ [⟨c', e, calls, c'⟩])

/-- The requests of these turns are made to peripherals that have been sighted. -/
structure Addressed (plan : Plan) (turns : List Turn) : Prop where
  sighted : ∀ first u rest, turns = first ++ u :: rest → ∀ r ∈ requests u.calls, ∀ p,
    r.addressee? = some p → ∃ v ∈ first ++ [u], v.Sights plan p.id
  /-- Apart from the requests to connect, they are made to the one last asked to connect to. -/
  linked : ∀ before r after p, requests (turns.flatMap (·.calls)) = before ++ r :: after →
    r.addressee? = some p → r.connected? = none →
      ∃ q, lastConnected? before = some q ∧ q.id = p.id

/-- The selected peripheral is one that has been sighted and was last asked to connect to. -/
def Backed (plan : Plan) (turns : List Turn) (c : Controller) : Prop :=
  ∀ t, c.target = some t → (∃ v ∈ turns, v.Sights plan t.id) ∧
    ∃ q, lastConnected? (requests (turns.flatMap (·.calls))) = some q ∧ q.id = t.id

/-! ## The requests of one turn -/

/-- A peripheral is sighted, and nothing is asked of any peripheral but to connect to it. -/
structure Turn.Selects (plan : Plan) (u : Turn) (p : Peripheral) : Prop where
  sights : u.Sights plan p.id
  asks : ∀ r ∈ requests u.calls, r.addressee? = none ∨ r = .connect p

/-- No connection is requested, and what is asked of a peripheral is asked of the target. -/
def Turn.Keeps (u : Turn) : Prop :=
  ∀ r ∈ requests u.calls, r.connected? = none ∧ ∀ q, r.addressee? = some q → u.before.isTarget q

theorem sights_of_selects {advertisement : Advertisement} {rssi : Option Int}
    (h : c.selects plan p advertisement) :
    Turn.Sights plan ⟨c, .discovered p advertisement rssi, calls, c'⟩ p.id := by
  have means := (Bool.and_eq_true_iff.mp h).2
  exact ⟨connection_of_selects h, p, advertisement, rssi, rfl, rfl,
    ProtocolIdentity.isMatch_iff.mp means⟩

theorem keeps_of_goesOnWith (ht : c.isTarget p) (h : ∀ r ∈ requests calls, r.GoesOnWith p.id) :
    Turn.Keeps ⟨c, e, calls, c'⟩ := by
  obtain ⟨t, hc, hid⟩ := isTarget_iff.mp ht
  intro r hr
  exact ⟨(h r hr).1, fun q hq => isTarget_iff.mpr ⟨t, hc, hid.trans ((h r hr).2 q hq).symm⟩⟩

theorem keeps_of_addressee?_eq_none (h : ∀ r ∈ requests calls, r.addressee? = none) :
    Turn.Keeps ⟨c, e, calls, c'⟩ := by
  intro r hr
  have unasked := h r hr
  refine ⟨?_, fun q hq => by simp [unasked] at hq⟩
  cases r with
  | connect q => cases unasked
  | _ => rfl

/-- A turn selects the peripheral that it asks to connect to, or it keeps to the target. The target
that it leaves is then the selected one or has the id of the target before. -/
theorem Step.selects_or_keeps (h : c.Step plan e calls c') :
    (∃ p, Turn.Selects plan ⟨c, e, calls, c'⟩ p ∧
      ∀ t, c'.target = some t → t = p ∧ lastConnected? (requests calls) = some p) ∨
    (Turn.Keeps ⟨c, e, calls, c'⟩ ∧ ∀ t, c'.target = some t → c.isTarget t) := by
  have self (t : Peripheral) (ht : c.target = some t) : c.isTarget t :=
    isTarget_iff.mpr ⟨t, ht, rfl⟩
  cases h with
  | passedOver _ => exact .inr ⟨keeps_of_addressee?_eq_none nofun, self⟩
  | searched _ x =>
    refine .inr ⟨keeps_of_addressee?_eq_none (by simp [Session.Request.addressee?]), ?_⟩
    cases x <;> exact self
  | paused _ x =>
    exact .inr ⟨keeps_of_addressee?_eq_none (by simp [Session.Request.addressee?]), self⟩
  | @selected p advertisement rssi h x =>
    refine .inl ⟨p, ⟨sights_of_selects h, by simp [Session.Request.addressee?]⟩, ?_⟩
    intro t ht
    exact ⟨(Option.some.inj ht).symm, rfl⟩
  | @refused p advertisement rssi h x fault y =>
    refine .inl ⟨p, ⟨sights_of_selects h, by simp [Session.Request.addressee?]⟩, ?_⟩
    cases y <;> exact nofun
  | failed _ x =>
    refine .inr ⟨keeps_of_addressee?_eq_none (by simp [Session.Request.addressee?]), ?_⟩
    cases x <;> exact nofun
  | @processed p walk h hw x =>
    have target : c.isTarget p := (Bool.and_eq_true_iff.mp h).2
    refine .inr ⟨keeps_of_goesOnWith target (isConnection_process hw x).goesOnWith, ?_⟩
    intro t ht
    exact Option.some.inj ht ▸ target
  | finished _ =>
    refine .inr ⟨keeps_of_addressee?_eq_none ?_, self⟩
    rw [requests_finish]
    exact nofun

/-- So does a turn that is given up. -/
theorem selects_or_keeps_of_breaks (h : (c.handle plan e).Breaks calls) :
    (∃ p, Turn.Selects plan ⟨c, e, calls, c'⟩ p) ∨ Turn.Keeps ⟨c, e, calls, c'⟩ := by
  obtain ⟨made, op, rfl⟩ := h.eq_append
  obtain ⟨x, rest, after, hr⟩ := h.exists_runs refusing
  -- the turn makes no requests that it would not have made otherwise
  have asked : ∀ r ∈ requests (made ++ [⟨op, none⟩]),
      r ∈ requests (made ++ ⟨op, some x⟩ :: rest) := by
    intro r hr
    obtain ⟨y, hm⟩ := mem_requests.mp hr
    rcases List.mem_append.mp hm with hm | hm
    · exact mem_requests.mpr ⟨y, List.mem_append_left _ hm⟩
    · obtain ⟨rfl, -⟩ := Sigma.mk.inj (List.mem_singleton.mp hm)
      exact mem_requests.mpr ⟨some x, by simp⟩
  rcases (runs_handle_iff.mp hr).selects_or_keeps with ⟨p, hs, -⟩ | ⟨hk, -⟩
  · exact .inl ⟨p, hs.sights, fun r hr => hs.asks r (asked r hr)⟩
  · exact .inr fun r hr => hk r (asked r hr)

/-! ## The requests of all turns -/

theorem addressed_nil : Addressed plan [] where
  sighted first u rest hs := by simp at hs
  linked before r after p hs := by simp at hs

/-- One more turn that selects or keeps to its target is addressed as those before. -/
theorem Addressed.snoc {u : Turn} (h : Addressed plan turns) (hb : Backed plan turns u.before)
    (hu : (∃ p, u.Selects plan p) ∨ u.Keeps) : Addressed plan (turns ++ [u]) := by
  constructor
  case sighted =>
    intro first v rest hs r hr p hp
    rcases append_eq_append_cons_iff.mp hs with ⟨more, hturns, -⟩ | ⟨more, rfl, hlast⟩
    · exact h.sighted first v more hturns r hr p hp
    · obtain ⟨rfl, hlast⟩ | ⟨more, rfl, hlast⟩ := List.cons_eq_append_iff.mp hlast
      · obtain rfl := (List.cons.inj hlast).1
        rw [List.append_nil]
        rcases hu with ⟨q, selects⟩ | keeps
        · rcases selects.asks r hr with hn | rfl
          · simp [hn] at hp
          · obtain rfl := Option.some.inj hp
            exact ⟨u, List.mem_append_right _ (List.mem_singleton_self u), selects.sights⟩
        · obtain ⟨t, ht, hid⟩ := isTarget_iff.mp ((keeps r hr).2 p hp)
          obtain ⟨w, hw, sights⟩ := (hb t ht).1
          exact ⟨w, List.mem_append_left _ hw, hid ▸ sights⟩
      · simp at hlast
  case linked =>
    intro before r after p hs hp hn
    rw [List.flatMap_append, requests_append, List.flatMap_singleton] at hs
    rcases append_eq_append_cons_iff.mp hs with ⟨more, hearlier, -⟩ | ⟨more, rfl, hlast⟩
    · exact h.linked before r more p hearlier hp hn
    · have hr : r ∈ requests u.calls := by simp [hlast]
      rcases hu with ⟨q, selects⟩ | keeps
      · rcases selects.asks r hr with hnone | rfl
        · simp [hnone] at hp
        · cases hn
      · obtain ⟨t, ht, hid⟩ := isTarget_iff.mp ((keeps r hr).2 p hp)
        obtain ⟨q, hq, hqt⟩ := (hb t ht).2
        have quiet : lastConnected? more = none :=
          lastConnected?_eq_none fun s hs => (keeps s (by simp [hlast, hs])).1
        exact ⟨q, by rw [lastConnected?_append, quiet, hq]; rfl, hqt.trans hid⟩

theorem backed_initial : Backed plan [] {} := nofun

/-- What a turn leaves selected is sighted in it and the last that it asks to connect to, or it goes
on with what was selected before. -/
theorem Backed.snoc (hb : Backed plan turns c) (h : c.Step plan e calls c') :
    Backed plan (turns ++ [⟨c, e, calls, c'⟩]) c' := by
  intro t ht
  rw [List.flatMap_append, requests_append, List.flatMap_singleton, lastConnected?_append]
  rcases h.selects_or_keeps with ⟨p, selects, left⟩ | ⟨keeps, left⟩
  · obtain ⟨rfl, hlast⟩ := left t ht
    exact ⟨⟨_, by simp, selects.sights⟩, t, by rw [hlast]; rfl, rfl⟩
  · obtain ⟨s, hs, hid⟩ := isTarget_iff.mp (left t ht)
    obtain ⟨⟨v, hv, sights⟩, q, hq, hqs⟩ := hb s hs
    have quiet : lastConnected? (requests calls) = none :=
      lastConnected?_eq_none fun r hr => (keeps r hr).1
    exact ⟨⟨v, List.mem_append_left _ hv, hid ▸ sights⟩, q, by rw [quiet, hq]; rfl, hqs.trans hid⟩

theorem History.addressed (h : History plan {} turns c) :
    Addressed plan turns ∧ Backed plan turns c := by
  induction h with
  | nil => exact ⟨addressed_nil, backed_initial⟩
  | @snoc turns before after e calls _ ht ih =>
    obtain ⟨addressed, backed⟩ := ih
    have step := runs_handle_iff.mp ht
    refine ⟨addressed.snoc backed ?_, backed.snoc step⟩
    rcases step.selects_or_keeps with ⟨p, selects, -⟩ | ⟨keeps, -⟩
    · exact .inl ⟨p, selects⟩
    · exact .inr keeps

theorem Account.addressed (h : Account plan {} turns) : Addressed plan turns := by
  cases h with
  | whole h => exact h.addressed.1
  | cut h hb => exact h.addressed.1.snoc h.addressed.2 (selects_or_keeps_of_breaks hb)

theorem Account.of_history {first rest : List Turn} (h : History plan c first c')
    (ha : Account plan c' rest) : Account plan c (first ++ rest) := by
  cases ha with
  | whole ha => exact .whole (h.append ha)
  | cut ha hb =>
    rw [← List.append_assoc]
    exact .cut (h.append ha) hb

/-- A controller that is given up while it works off a queue has had a turn for each event of a
beginning of the queue as well. -/
theorem exists_account_of_breaks {events : List Event} (h : (run plan c events).Breaks calls) :
    ∃ turns, Account plan c turns ∧ turns.flatMap (·.calls) = calls ∧
      turns.map (·.event) <+: events := by
  induction events generalizing c calls with
  | nil => cases h
  | cons e events ih =>
    rcases breaks_bind_iff.mp h with hb | ⟨first, c₁, rest, rfl, he, hr⟩
    · exact ⟨_, .cut .nil hb, by simp, by simp⟩
    · have turn : History plan c [⟨c, e, first, c₁⟩] c₁ := History.nil.snoc he
      cases hd : c₁.connection.isDone with
      | true =>
        rw [if_pos hd] at hr
        cases hr
      | false =>
        rw [if_neg (by simp [hd])] at hr
        obtain ⟨turns, ha, rfl, hp⟩ := ih hr
        exact ⟨_, .of_history turn ha, by simp, by simpa using hp⟩

/-- Whatever events a controller is given and whatever the session answers, what it asks of a
peripheral it asks of one that it has sighted, and but for the requests to connect of the one that
it has last asked to connect to. A controller that works off a queue, to its end or until it is
given up, makes the requests of such turns and no others. -/
theorem requests_addressed (plan : Plan) :
    (∀ turns, Account plan {} turns → Addressed plan turns) ∧
    ∀ events calls, (∃ c, (run plan {} events).Runs calls c) ∨ (run plan {} events).Breaks calls →
      ∃ turns, Account plan {} turns ∧ turns.flatMap (·.calls) = calls ∧
        turns.map (·.event) <+: events := by
  refine ⟨fun turns h => h.addressed, ?_⟩
  rintro events calls (⟨c, h⟩ | h)
  · obtain ⟨turns, hh, hcalls, hevents⟩ := exists_history_of_runs h
    exact ⟨turns, .whole hh, hcalls, hevents⟩
  · exact exists_account_of_breaks h

end Controller

/-- A plan for one lamp, whose address is written in small letters. -/
def Plan.lamp : Plan := { Plan.bare with spec := { protocol := ⟨"Lamp", "aa:bb:cc:dd:ee:ff"⟩ } }

/-- A lamp that reports its address in capital letters is connected to and asked for its services
once it has been sighted, and a queue can be worked off to its end. -/
theorem Controller.requests_addressed_lamp :
    (∃ turns c, History Plan.lamp {} turns c ∧ c.connection = .connected ∧
      Addressed Plan.lamp turns) ∧
    ∃ calls turns, Account Plan.lamp {} turns ∧ turns.flatMap (·.calls) = calls ∧
      turns.map (·.event) <+: [.adapterState .poweredOn] := by
  constructor
  · have meant : Plan.lamp.spec.protocol.isMatch (some "Lamp") nameless.address := by decide
    obtain ⟨turns, h⟩ := exists_history_connected Plan.lamp nameless { localName := "Lamp" } meant
    exact ⟨turns, _, h, rfl, (requests_addressed Plan.lamp).1 turns (.whole h)⟩
  · obtain ⟨calls, c, h, -⟩ := exists_runs refusing [] (run Plan.lamp {} [.adapterState .poweredOn])
    exact ⟨calls, (requests_addressed Plan.lamp).2 _ calls (.inl ⟨c, h⟩)⟩

end Cycle
end GattSync
