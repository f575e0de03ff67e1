import GattSync.Proofs.Adapter.Discovery
import GattSync.Proofs.Platform.Ascending

/-!
# Which characteristic a request acts on

What is told of a characteristic is its UUID, its service and its property bits. A request for it is
carried out on what the platform lists under the UUID and the service, and if there are several, on
the least of them: the one with the fewest property bits, and among those the one with the first
descriptors (`lookup_takes_least`). A characteristic that stands behind another one of its UUID in
its service can so be discovered, but never be read, written, described or subscribed to: what is
done for it is done to the other one.

A characteristic is not found only if the platform does not list it any more.
-/

namespace GattSync

/-- The characteristic that a request is for, with its peripheral. -/
def Session.Request.named? {η : Type} : Session.Request η → Option (Peripheral × Characteristic)
  | .discoverDescriptors p c => some (p, c)
  | .read p c => some (p, c)
  | .write p c _ _ => some (p, c)
  | .subscribe p c _ => some (p, c)
  | _ => none

namespace Adapter

open Program Platform

variable {η : Type} {listed : List Platform.Service} {p : Peripheral} {c : GattSync.Characteristic}
  {r : Session.Request η} {x : r.Answer} {calls : List (Call (effects η))}
  {d found : Platform.Characteristic} {handle : Handle}

/-- What the platform is asked for, in order. -/
def inquiries (calls : List (Call (effects η))) : List Platform.Request :=
  calls.filterMap fun call =>
    match call.1 with
    | .platform request => some request
    | _ => none

/-- The request is carried out on this characteristic: the platform is asked for it and for nothing
else, or its descriptors are told. -/
inductive Acts (handle : Handle) (found : Platform.Characteristic) :
    (r : Session.Request η) → List Platform.Request → r.Answer → Prop
  | described {p : Peripheral} {c : GattSync.Characteristic} :
    Acts handle found (.discoverDescriptors p c) [] (.ok found.descriptors)
  | read {p : Peripheral} {c : GattSync.Characteristic} (x : Except PlatformError Bytes) :
    Acts handle found (.read p c) [.read handle found] (answered x)
  | written {p : Peripheral} {c : GattSync.Characteristic} {payload : Bytes} {acknowledged : Bool}
      (x : Except PlatformError Unit) :
    Acts handle found (.write p c payload acknowledged)
      [.write handle found payload acknowledged] (answered x)
  | subscribed {p : Peripheral} {c : GattSync.Characteristic} {consumer : η}
      (x : Except PlatformError Unit) :
    Acts handle found (.subscribe p c consumer) [.subscribe handle found] (answered x)

/-- The characteristic has the UUID and the service that a request names. -/
def isNamed (c : GattSync.Characteristic) (d : Platform.Characteristic) : Bool :=
  d.uuid == c.uuid && d.service == c.service

/-- All characteristics of the services. -/
def all (listed : List Platform.Service) : List Platform.Characteristic :=
  listed.flatMap (·.characteristics)

theorem isNamed_self : isNamed d.toCharacteristic d := by
  simp [isNamed]

theorem isLeast_of_find? (h : find? listed c = some found) :
    IsLeast (all listed) (isNamed c) found :=
  Platform.isLeast_of_find? h

theorem find?_eq_none_iff : find? listed c = none ↔ ∀ d ∈ all listed, ¬ isNamed c d :=
  find?_ascending_eq_none

/-- With a handle, a request for a characteristic goes on with what is looked up, or fails without
asking the platform because there is nothing. -/
theorem goes_on_or_fails {α : Type} {x : Except Error α}
    {next : Handle → Platform.Characteristic → Prog η (Except Error α)}
    (h : (withCharacteristic p c next).Runs calls x) (hl : Lists listed calls)
    (hk : Knows p calls) :
    (∃ handle found rest, find? listed c = some found ∧ inquiries calls = inquiries rest ∧
        (next handle found).Runs rest x) ∨
      find? listed c = none ∧ inquiries calls = [] ∧
        x = .error (.characteristicNotFound c.uuid.text) := by
  rcases runs_withCharacteristic_iff.mp h with
    ⟨t, ht, rfl, -⟩ | ⟨t, handle, services, rest, -, rfl, hn⟩
  · simpa [ht] using hk t (.head _)
  · obtain rfl := hl handle services (.tail _ (.head _))
    cases hf : find? services c with
    | none =>
      rw [hf] at hn
      obtain ⟨rfl, rfl⟩ := hn
      exact .inr ⟨rfl, rfl, rfl⟩
    | some found =>
      rw [hf] at hn
      exact .inl ⟨handle, found, rest, rfl, rfl, hn⟩

theorem runs_answered {request : Platform.Request} {y : Except Error request.Reply}
    (h : (ask request >>= fun x => pure (answered x) : Prog η (Except Error request.Reply)).Runs
      calls y) : ∃ x, inquiries calls = [request] ∧ y = answered x := by
  obtain ⟨x, _, rfl, hd⟩ := runs_perform_bind_iff.mp h
  obtain ⟨rfl, rfl⟩ := runs_done_iff.mp hd
  exact ⟨x, rfl, rfl⟩

/-- A request for a characteristic is carried out on the one that is looked up, or fails without
asking the platform because there is none. -/
theorem acts_or_fails (hn : r.named? = some (p, c)) (h : (answer r).Runs calls x)
    (hl : Lists listed calls) (hk : Knows p calls) :
    (∃ handle found, find? listed c = some found ∧ Acts handle found r (inquiries calls) x) ∨
      find? listed c = none ∧ inquiries calls = [] ∧
        x = .error (.characteristicNotFound c.uuid.text) := by
  cases r with
  | discoverDescriptors q e =>
    cases hn
    rcases goes_on_or_fails h hl hk with ⟨handle, found, rest, hf, hi, hd⟩ | failed
    · obtain ⟨rfl, rfl⟩ := runs_done_iff.mp hd
      rw [hi]
      exact .inl ⟨handle, found, hf, .described⟩
    · exact .inr failed
  | read q e =>
    cases hn
    rcases goes_on_or_fails h hl hk with ⟨handle, found, rest, hf, hi, ha⟩ | failed
    · obtain ⟨y, asked, rfl⟩ := runs_answered ha
      rw [hi, asked]
      exact .inl ⟨handle, found, hf, .read y⟩
    · exact .inr failed
  | write q e payload acknowledged =>
    cases hn
    rcases goes_on_or_fails h hl hk with ⟨handle, found, rest, hf, hi, ha⟩ | failed
    · obtain ⟨y, asked, rfl⟩ := runs_answered ha
      rw [hi, asked]
      exact .inl ⟨handle, found, hf, .written y⟩
    · exact .inr failed
  | subscribe q e consumer =>
    cases hn
    rcases goes_on_or_fails h hl hk with ⟨handle, found, rest, hf, hi, ha⟩ | failed
    · obtain ⟨done, rest, rfl, hs⟩ := runs_perform_bind_iff.mp ha
      obtain ⟨y, rest, rfl, hy⟩ := runs_perform_bind_iff.mp hs
      refine .inl ⟨handle, found, hf, ?_⟩
      cases y with
      | ok done =>
        obtain ⟨rfl, rfl⟩ := runs_done_iff.mp hy
        rw [hi]
        exact .subscribed (.ok ())
      | error fault =>
        obtain ⟨done, rest, rfl, hd⟩ := runs_perform_bind_iff.mp hy
        obtain ⟨rfl, rfl⟩ := runs_done_iff.mp hd
        rw [hi]
        exact .subscribed (.error fault)
    · exact .inr failed
  | _ => cases hn

/-- What a request for a characteristic that has been discovered comes to. -/
structure LooksUp (listed : List Platform.Service) (d : Platform.Characteristic)
    (r : Session.Request η) (calls : List (Call (effects η))) (x : r.Answer) : Prop where
  /-- It is not found only if it is not listed any more. -/
  unlisted {text : String} (hx : x = .error (.characteristicNotFound text)) : d ∉ all listed
  /-- While it is listed, the request is carried out on the least one of its UUID and service. -/
  acts (hd : d ∈ all listed) : ∃ handle found,
    IsLeast (all listed) (isNamed d.toCharacteristic) found ∧
      Acts handle found r (inquiries calls) x
  /-- That is the one that was discovered exactly if it is the least. All that can be told of
  another one instead are its descriptors. -/
  acts_iff (hd : d ∈ all listed) : (∃ handle, Acts handle d r (inquiries calls) x) ↔
    ∃ found, IsLeast (all listed) (isNamed d.toCharacteristic) found ∧
      (found = d ∨ inquiries calls = [] ∧ found.descriptors = d.descriptors)

theorem Acts.ne_characteristicNotFound {requests : List Platform.Request}
    (h : Acts handle found r requests x) (text : String) :
    x ≠ .error (.characteristicNotFound text) := by
  cases h with
  | described => nofun
  | read x => cases x <;> nofun
  | written x => cases x <;> nofun
  | subscribed x => cases x <;> nofun

/-- What is carried out on a characteristic is carried out on no other one, unless its descriptors
are told. -/
theorem Acts.other {requests : List Platform.Request} {handle' : Handle}
    (h : Acts handle found r requests x) (hd : Acts handle' d r requests x) :
    found = d ∨ requests = [] ∧ found.descriptors = d.descriptors := by
  generalize hr : requests = others at hd
  cases h with
  | described =>
    generalize hx : Except.ok found.descriptors = y at hd
    cases hd
    exact .inr ⟨rfl, Except.ok.inj hx⟩
  | read x =>
    generalize answered x = y at hd
    cases hd
    cases hr
    exact .inl rfl
  | written x =>
    generalize answered x = y at hd
    cases hd
    cases hr
    exact .inl rfl
  | subscribed x =>
    generalize answered x = y at hd
    cases hd
    cases hr
    exact .inl rfl

/-- Where only the same descriptors are told, it comes to the same. -/
theorem Acts.of_descriptors (h : Acts handle found r [] x)
    (hd : found.descriptors = d.descriptors) : Acts handle d r [] x := by
  generalize hr : [] = requests at h
  cases h with
  | described =>
    rw [hd]
    exact .described
  | read _ => cases hr
  | written _ => cases hr
  | subscribed _ => cases hr

/-- Whatever the platform lists: a request for a characteristic that has been discovered is carried
out on the least characteristic with its UUID in its service, and fails to find one only if none is
listed any more. -/
theorem lookup_takes_least (d : Platform.Characteristic)
    (hn : r.named? = some (p, d.toCharacteristic)) (h : (answer r).Runs calls x)
    (hl : Lists listed calls) (hk : Knows p calls) : LooksUp listed d r calls x := by
  have outcome := acts_or_fails hn h hl hk
  have acts (hd : d ∈ all listed) : ∃ handle found,
      IsLeast (all listed) (isNamed d.toCharacteristic) found ∧
        Acts handle found r (inquiries calls) x := by
    rcases outcome with ⟨handle, found, hf, ha⟩ | ⟨hf, -, -⟩
    · exact ⟨handle, found, isLeast_of_find? hf, ha⟩
    · exact absurd isNamed_self (find?_eq_none_iff.mp hf d hd)
  refine ⟨fun {text} hx hd => ?_, acts, fun hd => ⟨?_, ?_⟩⟩
  · obtain ⟨handle, found, -, ha⟩ := acts hd
    exact ha.ne_characteristicNotFound text hx
  · rintro ⟨handle', own⟩
    obtain ⟨handle, found, least, ha⟩ := acts hd
    exact ⟨found, least, ha.other own⟩
  · rintro ⟨found, least, same⟩
    obtain ⟨handle, taken, first, ha⟩ := acts hd
    obtain rfl := first.eq least
    rcases same with rfl | ⟨nothing, same⟩
    · exact ⟨handle, ha⟩
    · rw [nothing] at ha ⊢
      exact ⟨handle, ha.of_descriptors same⟩

/-! ## Two characteristics of one UUID -/

/-- A gauge, of which nothing is known but how to reach it. -/
def gauge : Peripheral := ⟨"gauge", "", none⟩

/-- The pressure that can be read. -/
def pressure : Platform.Characteristic := { uuid := ⟨1⟩, service := ⟨2⟩, properties := 2 }

/-- The pressure that is notified. -/
def pressureChanges : Platform.Characteristic :=
  { uuid := ⟨1⟩, service := ⟨2⟩, properties := 16, descriptors := [⟨3⟩] }

def gaugeServices : List Platform.Service := [⟨⟨⟨2⟩, true⟩, [pressure, pressureChanges]⟩]

/-- What is looked up for either of them. -/
theorem find?_gauge (c : GattSync.Characteristic) (hu : c.uuid = ⟨1⟩) (hs : c.service = ⟨2⟩) :
    find? gaugeServices c = some pressure := by
  obtain ⟨uuid, service, properties⟩ := c
  obtain rfl := hu
  obtain rfl := hs
  rfl

/-- A subscription to the changes that succeeds. -/
def gaugeCalls : List (Call (effects String)) :=
  [⟨.tables, some (known String gauge)⟩, ⟨.services (0 : Nat), some gaugeServices⟩,
    ⟨.change (Tables.addRoute · "gauge" ⟨1⟩ "pressure"), some ()⟩,
    ⟨.platform (.subscribe (0 : Nat) pressure), some (.ok ())⟩]

theorem runs_gaugeCalls :
    (answer (.subscribe gauge pressureChanges.toCharacteristic "pressure")).Runs gaugeCalls
      (.ok ()) := by
  refine runs_withCharacteristic_known (find?_gauge _ rfl rfl) ?_
  exact runs_perform_bind_iff.mpr ⟨(), _, rfl, runs_perform_bind_iff.mpr ⟨.ok (), [], rfl, .done _⟩⟩

theorem lists_gaugeCalls : Lists gaugeServices gaugeCalls := by
  have routed : Lists gaugeServices (gaugeCalls.drop 2) := .cons (.cons lists_nil nofun) nofun
  exact .cons (routed.looked 0) nofun

theorem knows_gaugeCalls : Knows gauge gaugeCalls :=
  .known (.cons (.cons (.cons knows_nil nofun) nofun) nofun)

/-- The changes are listed and asked for, and what is subscribed to is the least of the two. -/
theorem lookup_takes_least_gauge :
    ∃ handle found, IsLeast (all gaugeServices) (isNamed pressureChanges.toCharacteristic) found ∧
      Acts handle found (.subscribe gauge pressureChanges.toCharacteristic "pressure")
        (inquiries gaugeCalls) (.ok ()) :=
  (lookup_takes_least pressureChanges rfl runs_gaugeCalls lists_gaugeCalls knows_gaugeCalls).acts
    (by decide)

/-- Both are listed, in the order of the platform, and discovered. A request to subscribe to the
changes is carried out on the pressure, which cannot notify; asked for the descriptors of the
changes, the session tells those of the pressure. -/
theorem subscribes_elsewhere :
    Platform.characteristics gaugeServices = [pressure, pressureChanges] ∧
      Answers gaugeServices (.discoverCharacteristics gauge ⟨⟨2⟩, true⟩ : Session.Request String)
        (.ok [pressure.toCharacteristic, pressureChanges.toCharacteristic]) ∧
      (answer (.subscribe gauge pressureChanges.toCharacteristic "pressure")).Runs gaugeCalls
        (.ok ()) ∧ Lists gaugeServices gaugeCalls ∧ Knows gauge gaugeCalls ∧
      (∀ handle, ¬ Acts handle pressureChanges
        (.subscribe gauge pressureChanges.toCharacteristic "pressure") (inquiries gaugeCalls)
        (.ok ())) ∧
      Answers gaugeServices
        (.discoverDescriptors gauge pressureChanges.toCharacteristic : Session.Request String)
        (.ok pressure.descriptors) ∧ pressure.descriptors ≠ pressureChanges.descriptors := by
  refine ⟨by decide, answers_discoverCharacteristics gaugeServices gauge ⟨⟨2⟩, true⟩,
    runs_gaugeCalls, lists_gaugeCalls, knows_gaugeCalls, fun handle own => ?_,
    answers_discoverDescriptors (find?_gauge _ rfl rfl), by decide⟩
  have taken : Acts 0 pressure (.subscribe gauge pressureChanges.toCharacteristic "pressure")
      (inquiries gaugeCalls) (.ok ()) := .subscribed (.ok ())
  rcases taken.other own with same | ⟨nothing, -⟩
  · exact absurd same (by decide)
  · cases nothing

end Adapter
end GattSync
