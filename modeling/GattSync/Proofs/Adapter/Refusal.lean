import GattSync.Proofs.Adapter.Prospects

/-!
# Subscriptions that are refused

A subscription enrolls its consumer behind those of the same characteristic UUID, and asks the
platform only then. When the platform refuses, the consumer is to be taken out again, but what is
taken out is the whole route: all consumers that were enrolled before are lost as well, also those
of a characteristic with the same UUID in another service. So a subscription that has failed leaves
the routes as they were exactly if it was refused before the platform was asked, or if nobody was
enrolled for its UUID (`subscription_routes`).

The workers that go on while the session waits change nothing about the routes; that is why what
comes of a subscription can be said for all offices at once (`Subscribing`).
-/

namespace GattSync.Adapter

open Program Platform

variable {η : Type} {owner : Handle → String} {o o' : Office η} {p : Peripheral}
  {c : Characteristic} {consumer : η} {id : String} {uuid : Uuid}

/-- All consumers are routed to as before. -/
def Office.KeepsRoutes (o o' : Office η) : Prop :=
  ∀ id uuid, o'.tables.route id uuid = o.tables.route id uuid

/-- The consumers of one characteristic are these now, and all others are routed to as before. -/
structure Office.Reroutes (o o' : Office η) (id : String) (uuid : Uuid) (consumers : List η) :
    Prop where
  own : o'.tables.route id uuid = consumers
  others {other : String} {d : Uuid} (h : (other, d) ≠ (id, uuid)) :
    o'.tables.route other d = o.tables.route other d

theorem Office.Reroutes.keepsRoutes_iff {consumers : List η}
    (h : o.Reroutes o' id uuid consumers) :
    o.KeepsRoutes o' ↔ o.tables.route id uuid = consumers := by
  constructor
  · intro keeps
    rw [← keeps, h.own]
  · intro same other d
    by_cases hk : (other, d) = (id, uuid)
    · obtain ⟨rfl, rfl⟩ := Prod.mk.inj hk
      rw [h.own, same]
    · exact h.others hk

/-- What comes of a subscription, by its answer. -/
inductive Subscribing (p : Peripheral) (c : Characteristic) (consumer : η) (o : Office η) :
    Except Error Unit → Office η → Prop
  | unknown (hn : o.tables.handle? p.id = none) :
    Subscribing p c consumer o (.error (.peripheralNotFound p.id)) o
  | unlisted {listed : List Platform.Service} (hn : find? listed c = none) :
    Subscribing p c consumer o (.error (.characteristicNotFound c.uuid.text)) o
  | enrolled {o' : Office η}
      (h : o.Reroutes o' p.id c.uuid (o.tables.route p.id c.uuid ++ [consumer])) :
    Subscribing p c consumer o (.ok ()) o'
  /-- The platform has refused, and the whole route is gone. -/
  | refused (fault : PlatformError) {o' : Office η} (h : o.Reroutes o' p.id c.uuid []) :
    Subscribing p c consumer o (.error (.bluetooth fault)) o'

/-- The route with a new consumer is kept while the platform is asked. -/
theorem reroutes_of_idles {i : Incident η}
    (h : Idles owner ((o.change (Tables.addRoute · id uuid consumer)).note i) o') :
    o.Reroutes o' id uuid (o.tables.route id uuid ++ [consumer]) where
  own := by
    rw [h.route_eq]
    exact Tables.route_addRoute_self _ id uuid consumer
  others ne := by
    rw [h.route_eq]
    exact Tables.route_addRoute_of_ne _ ne consumer

theorem Office.Reroutes.removeRoute {consumers : List η} (h : o.Reroutes o' id uuid consumers) :
    o.Reroutes (o'.change (Tables.removeRoute · id uuid)) id uuid [] where
  own := Tables.route_removeRoute_self _ id uuid
  others ne := (Tables.route_removeRoute_of_ne _ ne).trans (h.others ne)

theorem uuid_eq_of_find? {listed : List Platform.Service} {found : Platform.Characteristic}
    (h : find? listed c = some found) : found.uuid = c.uuid := by
  have both := List.find?_some h
  simp only [Bool.and_eq_true, beq_iff_eq] at both
  exact both.1

theorem subscribing_of_attends {x : Except Error Unit} (hs : o.IsStaffed owner)
    (h : Attends owner (.subscribe p c consumer) (answer (.subscribe p c consumer)) o (some x)
      o') : Subscribing p c consumer o x o' := by
  rcases attends_withHandle h with ⟨hn, hx, rfl⟩ | ⟨handle, -, h⟩
  · obtain rfl := Option.some.inj hx
    exact .unknown hn
  · obtain ⟨listed, h⟩ := attends_services_bind_iff.mp h
    cases hf : find? listed c with
    | none =>
      rw [hf] at h
      obtain ⟨hx, rfl⟩ := attends_done_iff.mp h
      obtain rfl := Option.some.inj hx
      exact .unlisted hf
    | some found =>
      rw [hf] at h
      simp only [uuid_eq_of_find? hf] at h
      replace h := attends_change_bind_iff.mp h
      have staffed : (o.change (Tables.addRoute · p.id c.uuid consumer)).IsStaffed owner :=
        hs.changeRoutes rfl
      rcases attends_ask_bind_iff.mp h with ⟨hx, -⟩ | ⟨x, o₁, hw, h⟩
      · cases hx
      have enrolled : o.Reroutes o₁ p.id c.uuid (o.tables.route p.id c.uuid ++ [consumer]) :=
        reroutes_of_idles (unfolds_of_works hw (staffed.note _))
      cases x with
      | ok done =>
        obtain ⟨hx, rfl⟩ := attends_done_iff.mp h
        obtain rfl := Option.some.inj hx
        exact .enrolled ⟨enrolled.own, enrolled.others⟩
      | error fault =>
        replace h := attends_change_bind_iff.mp h
        obtain ⟨hx, rfl⟩ := attends_done_iff.mp h
        obtain rfl := Option.some.inj hx
        have noted : o.Reroutes (o₁.note (.answered (.subscribe p c consumer)
            (.subscribe handle found) (.error fault))) p.id c.uuid _ :=
          ⟨enrolled.own, enrolled.others⟩
        exact .refused fault noted.removeRoute

theorem Office.keepsRoutes_refl : o.KeepsRoutes o := fun _ _ => rfl

/-- A subscription that has failed leaves the routes as they were if it did not come to the
platform, and otherwise exactly if there was nobody else. -/
theorem Subscribing.keepsRoutes_iff {x : Except Error Unit} (h : Subscribing p c consumer o x o')
    (hx : x ≠ .ok ()) :
    o.KeepsRoutes o' ↔
      (∀ fault, x ≠ .error (.bluetooth fault)) ∨ o.tables.route p.id c.uuid = [] := by
  cases h with
  | unknown _ => simp [Office.keepsRoutes_refl]
  | unlisted _ => simp [Office.keepsRoutes_refl]
  | enrolled _ => exact absurd rfl hx
  | refused fault rerouted => simp [rerouted.keepsRoutes_iff]

/-- Whatever a session has been asked for before, and whatever its workers do meanwhile: a
subscription that succeeds enrolls its consumer behind those of the same UUID and changes nothing
else. One that fails keeps all other routes, and its own one exactly if the platform was not asked
or nobody was enrolled. -/
theorem subscription_routes {x : Except Error Unit}
    (h : Elapses owner (fun _ => True) ({} : Office η) o)
    (ha : Attends owner (.subscribe p c consumer) (answer (.subscribe p c consumer)) o (some x)
      o') :
    Subscribing p c consumer o x o' ∧
      (x ≠ .ok () → (o.KeepsRoutes o' ↔
        (∀ fault, x ≠ .error (.bluetooth fault)) ∨ o.tables.route p.id c.uuid = [])) := by
  have subscribing := subscribing_of_attends (h.isStaffed Office.isStaffed_new) ha
  exact ⟨subscribing, subscribing.keepsRoutes_iff⟩

/-! ## Two services of a meter -/

/-- A subscription to what a peripheral that is known may list can be refused. -/
theorem exists_refused (owner : Handle → String) {handle : Handle}
    (hh : o.tables.handle? p.id = some handle) {listed : List Platform.Service}
    {found : Platform.Characteristic} (hf : find? listed c = some found) (consumer : η)
    (fault : PlatformError) :
    ∃ o', Attends owner (.subscribe p c consumer) (answer (.subscribe p c consumer)) o
      (some (.error (.bluetooth fault))) o' := by
  let enrolled := o.change (Tables.addRoute · p.id found.uuid consumer)
  let answered := (enrolled.note (.asked (.subscribe p c consumer) (.subscribe handle found))).note
    (.answered (.subscribe p c consumer) (.subscribe handle found) (.error fault))
  refine ⟨answered.change (Tables.removeRoute · p.id found.uuid), attends_tables_bind_iff.mpr ?_⟩
  rw [hh]
  refine attends_services_bind_iff.mpr ⟨listed, ?_⟩
  rw [hf]
  refine attends_change_bind_iff.mpr
    (attends_ask_bind_iff.mpr (.inr ⟨.error fault, _, .refl, ?_⟩))
  exact attends_change_bind_iff.mpr (attends_done_iff.mpr ⟨rfl, rfl⟩)

/-- A meter with two services. -/
def meter : Peripheral := ⟨"meter", "", none⟩

/-- The power of either service of the meter, under one UUID. -/
def power (service : Uuid) : Characteristic := ⟨⟨1⟩, service, Characteristic.notifyBit⟩

def meterServices : List Platform.Service :=
  [⟨⟨⟨2⟩, true⟩, [⟨power ⟨2⟩, []⟩]⟩, ⟨⟨⟨3⟩, true⟩, [⟨power ⟨3⟩, []⟩]⟩]

/-- A session can be subscribed to the power of the first service. -/
theorem exists_metered :
    ∃ o : Office String, Elapses (fun _ => meter.id) (fun _ => True) {} o ∧
      o.tables.handle? meter.id = some (0 : Nat) ∧ o.tables.route meter.id ⟨1⟩ = ["first"] := by
  have unstarted : ({} : Office String).tables.forwarder = none := rfl
  have found : find? meterServices (power ⟨2⟩) = some ⟨power ⟨2⟩, []⟩ := by decide
  obtain ⟨o₁, o₂, hstart, hworks, tables₂, -⟩ :=
    exists_known (fun _ => meter.id) unstarted (0 : Nat) {}
  have kept : o₂.tables.handle? meter.id = some (0 : Nat) := by
    rw [tables₂]
    rfl
  obtain ⟨o₃, hsubscribe, tables₃, -⟩ := exists_subscribed (fun _ => meter.id) kept found "first"
  have started : Elapses (fun _ => meter.id) (fun _ => True) ({} : Office String) o₁ :=
    .attended .refl trivial hstart
  refine ⟨o₃, (started.works hworks).attended trivial hsubscribe, ?_, ?_⟩
  · rw [tables₃]
    exact kept
  · have unrouted : o₂.tables.route meter.id ⟨1⟩ = [] := by
      rw [tables₂]
      rfl
    have enrolled := Tables.route_addRoute_self o₂.tables meter.id ⟨1⟩ "first"
    rw [unrouted] at enrolled
    rw [tables₃]
    exact enrolled

/-- Nothing is lost when the subscription is to a characteristic that the meter does not list. -/
theorem subscription_routes_unlisted :
    ∃ o o' : Office String, Elapses (fun _ => meter.id) (fun _ => True) {} o ∧
      Attends (fun _ => meter.id) (.subscribe meter (power ⟨4⟩) "second")
        (answer (.subscribe meter (power ⟨4⟩) "second")) o
        (some (.error (.characteristicNotFound (power ⟨4⟩).uuid.text))) o' ∧
      o.tables.route meter.id ⟨1⟩ = ["first"] ∧ o.KeepsRoutes o' := by
  obtain ⟨o, elapsed, kept, route⟩ := exists_metered
  have attended : Attends (fun _ => meter.id) (.subscribe meter (power ⟨4⟩) "second")
      (answer (.subscribe meter (power ⟨4⟩) "second")) o
      (some (.error (.characteristicNotFound (power ⟨4⟩).uuid.text))) o := by
    refine attends_tables_bind_iff.mpr ?_
    rw [kept]
    refine attends_services_bind_iff.mpr ⟨meterServices, ?_⟩
    exact attends_done_iff.mpr ⟨rfl, rfl⟩
  refine ⟨o, o, elapsed, attended, route, ?_⟩
  exact ((subscription_routes elapsed attended).2 nofun).mpr (.inl nofun)

/-- The platform refuses a subscription to the power of the second service, and the one who has
subscribed to that of the first one is not routed to any more. -/
theorem forgets_subscriber :
    ∃ (o o' : Office String) (fault : PlatformError),
      Elapses (fun _ => meter.id) (fun _ => True) {} o ∧
      Attends (fun _ => meter.id) (.subscribe meter (power ⟨3⟩) "second")
        (answer (.subscribe meter (power ⟨3⟩) "second")) o (some (.error (.bluetooth fault))) o' ∧
      o.tables.route meter.id ⟨1⟩ = ["first"] ∧ o'.tables.route meter.id ⟨1⟩ = [] ∧
      ¬ o.KeepsRoutes o' := by
  obtain ⟨o, elapsed, kept, route⟩ := exists_metered
  have found : find? meterServices (power ⟨3⟩) = some ⟨power ⟨3⟩, []⟩ := by decide
  obtain ⟨o', attended⟩ :=
    exists_refused (fun _ => meter.id) kept found "second" .notConnected
  have subscribing := subscribing_of_attends (elapsed.isStaffed Office.isStaffed_new) attended
  cases subscribing with
  | refused fault rerouted =>
    refine ⟨o, o', _, elapsed, attended, route, rerouted.own, fun keeps => ?_⟩
    have lost := rerouted.keepsRoutes_iff.mp keeps
    rw [show (power ⟨3⟩).uuid = ⟨1⟩ from rfl, route] at lost
    cases lost

end GattSync.Adapter
