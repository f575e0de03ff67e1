import GattSync.Adapter.Session
import GattSync.Proofs.Program.Runs

/-!
# What a session can answer

A session answers a request by what the platform tells it meanwhile. Which services the platform
lists is what most answers about the attributes of a peripheral depend on: a request is answered
while the platform lists the same services throughout (`Lists`, `Answers`). Requests for a
peripheral go on with its handle (`runs_withHandle_iff`), those for a characteristic with the one
that is listed under its UUID and its service (`runs_withCharacteristic_iff`).
-/

namespace GattSync.Adapter

open Program

variable {η α : Type}

/-- Whenever services are looked up, these are listed. -/
def Lists (listed : List Platform.Service) (calls : List (Call (effects η))) : Prop :=
  ∀ handle services, ⟨.services handle, some services⟩ ∈ calls → services = listed

/-- The session keeps a handle of the peripheral. -/
def Knows (p : Peripheral) (calls : List (Call (effects η))) : Prop :=
  ∀ t : Tables η, ⟨.tables, some t⟩ ∈ calls → (t.handle? p.id).isSome

/-- The request can be answered so while the platform lists these services. -/
def Answers (listed : List Platform.Service) (r : Session.Request η) (x : r.Answer) : Prop :=
  ∃ calls, (answer r).Runs calls x ∧ Lists listed calls

variable {listed : List Platform.Service} {p : Peripheral} {c : Characteristic}
  {calls : List (Call (effects η))}

theorem lists_nil : Lists (η := η) listed [] := nofun

theorem Lists.cons {call : Call (effects η)} (h : Lists listed calls)
    (hc : ∀ handle, call.1 ≠ .services handle) : Lists listed (call :: calls) := by
  intro handle services hm
  rcases List.mem_cons.mp hm with rfl | hm
  · exact absurd rfl (hc handle)
  · exact h handle services hm

theorem Lists.looked (h : Lists listed calls) (handle : Platform.Handle) :
    Lists listed (⟨.services handle, some listed⟩ :: calls) := by
  intro other services hm
  simp only [List.mem_cons, Sigma.mk.injEq] at hm
  rcases hm with ⟨-, heq⟩ | hm
  · exact Option.some.inj (eq_of_heq heq)
  · exact h other services hm

/-! ## Going on with a handle -/

/-- A request for a peripheral goes on with its handle, or fails because the session has none. -/
theorem runs_withHandle_iff {next : Platform.Handle → Prog η (Except Error α)}
    {x : Except Error α} :
    (withHandle p next).Runs calls x ↔
      (∃ t, t.handle? p.id = none ∧ calls = [⟨.tables, some t⟩] ∧
        x = .error (.peripheralNotFound p.id)) ∨
      ∃ t handle rest, t.handle? p.id = some handle ∧ calls = ⟨.tables, some t⟩ :: rest ∧
        (next handle).Runs rest x := by
  constructor
  · intro h
    obtain ⟨t, rest, rfl, hn⟩ := runs_perform_bind_iff.mp h
    cases ht : t.handle? p.id with
    | none =>
      rw [ht] at hn
      obtain ⟨rfl, rfl⟩ := runs_done_iff.mp hn
      exact .inl ⟨t, ht, rfl, rfl⟩
    | some handle =>
      rw [ht] at hn
      exact .inr ⟨t, handle, rest, ht, rfl, hn⟩
  · rintro (⟨t, ht, rfl, rfl⟩ | ⟨t, handle, rest, ht, rfl, hn⟩) <;>
      refine runs_perform_bind_iff.mpr ⟨t, _, rfl, ?_⟩ <;> rw [ht]
    · exact .done _
    · exact hn

/-- A request for a characteristic of a peripheral goes on with the one that is listed, or fails
because none is. -/
theorem runs_withCharacteristic_iff
    {next : Platform.Handle → Platform.Characteristic → Prog η (Except Error α)}
    {x : Except Error α} :
    (withCharacteristic p c next).Runs calls x ↔
      (∃ t, t.handle? p.id = none ∧ calls = [⟨.tables, some t⟩] ∧
        x = .error (.peripheralNotFound p.id)) ∨
      ∃ t handle listed rest, t.handle? p.id = some handle ∧
        calls = ⟨.tables, some t⟩ :: ⟨.services handle, some listed⟩ :: rest ∧
          match find? listed c with
          | some found => (next handle found).Runs rest x
          | none => rest = [] ∧ x = .error (.characteristicNotFound c.uuid.text) := by
  refine runs_withHandle_iff.trans (or_congr_right ⟨?_, ?_⟩)
  · rintro ⟨t, handle, rest, ht, rfl, hn⟩
    obtain ⟨listed, rest, rfl, hf⟩ := runs_perform_bind_iff.mp hn
    refine ⟨t, handle, listed, rest, ht, rfl, ?_⟩
    cases hd : find? listed c with
    | none =>
      rw [hd] at hf
      exact runs_done_iff.mp hf
    | some found =>
      rw [hd] at hf
      exact hf
  · rintro ⟨t, handle, listed, rest, ht, rfl, hf⟩
    refine ⟨t, handle, _, ht, rfl, runs_perform_bind_iff.mpr ⟨listed, rest, rfl, ?_⟩⟩
    cases hd : find? listed c with
    | none =>
      rw [hd] at hf
      exact runs_done_iff.mpr hf
    | some found =>
      rw [hd] at hf
      exact hf

/-- Tables that keep a handle of the peripheral. -/
def known (η : Type) (p : Peripheral) : Tables η := ({} : Tables η).keep p.id 0

theorem handle?_known : (known η p).handle? p.id = some (0 : Nat) :=
  Tables.handle?_keep_self _ p.id 0

theorem knows_nil : Knows (η := η) p [] := nofun

theorem Knows.cons {call : Call (effects η)} (h : Knows p calls) (hc : call.1 ≠ .tables) :
    Knows p (call :: calls) := by
  intro t hm
  rcases List.mem_cons.mp hm with rfl | hm
  · exact absurd rfl hc
  · exact h t hm

theorem Knows.known (h : Knows p calls) : Knows p (⟨.tables, some (known η p)⟩ :: calls) := by
  intro t hm
  simp only [List.mem_cons, Sigma.mk.injEq, true_and] at hm
  rcases hm with heq | hm
  · rw [Option.some.inj (eq_of_heq heq), handle?_known]
    rfl
  · exact h t hm

/-- A request for a characteristic that is listed can be gone on with. -/
theorem runs_withCharacteristic_known
    {next : Platform.Handle → Platform.Characteristic → Prog η (Except Error α)}
    {found : Platform.Characteristic} (hf : find? listed c = some found) {x : Except Error α}
    (h : (next (0 : Nat) found).Runs calls x) :
    (withCharacteristic p c next).Runs
      (⟨.tables, some (known η p)⟩ :: ⟨.services (0 : Nat), some listed⟩ :: calls) x :=
  runs_withCharacteristic_iff.mpr
    (.inr ⟨known η p, 0, listed, calls, handle?_known, rfl, by rw [hf]; exact h⟩)

/-- What is listed of a characteristic can be told. -/
theorem answers_discoverDescriptors {found : Platform.Characteristic}
    (hf : find? listed c = some found) :
    Answers listed (.discoverDescriptors p c : Session.Request η) (.ok found.descriptors) :=
  ⟨_, runs_withCharacteristic_known hf (.done _), .cons (lists_nil.looked 0) nofun⟩

/-- A characteristic that is listed can be subscribed to. -/
theorem answers_subscribe {found : Platform.Characteristic} (hf : find? listed c = some found)
    (consumer : η) : Answers listed (.subscribe p c consumer) (.ok ()) := by
  have enrolled : Lists (η := η) listed
      [⟨.change (Tables.addRoute · p.id found.uuid consumer), some ()⟩,
        ⟨.platform (.subscribe (0 : Nat) found), some (.ok ())⟩] :=
    .cons (.cons lists_nil nofun) nofun
  refine ⟨_, runs_withCharacteristic_known hf (runs_perform_bind_iff.mpr ⟨(), _, rfl,
    runs_perform_bind_iff.mpr ⟨.ok (), [], rfl, .done _⟩⟩), .cons (enrolled.looked 0) nofun⟩

end GattSync.Adapter
