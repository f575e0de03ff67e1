import GattSync.Proofs.Adapter.Answers
import GattSync.Proofs.Cycle.Reports
import GattSync.Proofs.Cycle.Visits

/-!
# What discovering finds

The services of a peripheral are told by their UUIDs, and the characteristics of a service are
looked up by its UUID again. A UUID that several services share stands for all of them each time:
what is found service by service has each characteristic once for every service that bears the UUID
of its own (`count_found`). So nothing of what the platform lists is left out; but it is found once,
in the order of the platform, exactly if no two services share a UUID, those apart that have no
characteristics (`found_perm_tree_iff`).

A walk changes a characteristic as often as it is found. Where two services share a UUID, it writes
and subscribes to the characteristics in them twice (`discovery_repeats`).
-/

namespace GattSync.Adapter

open Program

variable {η : Type}

/-! ## Found service by service -/

/-- The characteristics of services, in order. -/
def tree (services : List Platform.Service) : List Characteristic :=
  (services.flatMap (·.characteristics)).map (·.toCharacteristic)

/-- The characteristics of all services with the UUID, in order. -/
def foundUnder (listed : List Platform.Service) (u : Uuid) : List Characteristic :=
  tree (listed.filter fun s => s.uuid == u)

/-- What is found in each service, in order. -/
def found (listed : List Platform.Service) : List Characteristic :=
  listed.flatMap fun s => foundUnder listed s.uuid

/-- The characteristics that are found by asking for the services and then in each of them. -/
def Discovers (listed : List Platform.Service) (η : Type) (p : Peripheral)
    (all : List Characteristic) : Prop :=
  ∃ services founds,
    Answers listed (.discoverServices p : Session.Request η) (.ok services) ∧
      List.Forall₂ (fun s found =>
        Answers listed (.discoverCharacteristics p s : Session.Request η) (.ok found))
        services founds ∧
      all = founds.flatten

/-- Every characteristic belongs to the service that lists it. -/
def IsTree (listed : List Platform.Service) : Prop :=
  ∀ s ∈ listed, ∀ d ∈ s.characteristics, d.service = s.uuid

/-- No two services share a UUID, those apart that have no characteristics. -/
def IsDistinct (listed : List Platform.Service) : Prop :=
  listed.Pairwise fun s t => s.uuid = t.uuid → s.characteristics = [] ∧ t.characteristics = []

variable {listed : List Platform.Service} {p : Peripheral} {s : Service} {c : Characteristic}
  {u : Uuid}

theorem runs_discoverServices {x : Except Error (List Service)} {calls : List (Call (effects η))}
    (h : (answer (.discoverServices p : Session.Request η)).Runs calls x)
    (hl : Lists listed calls) :
    x = .ok (listed.map (·.toService)) ∨ (∃ fault, x = .error (.bluetooth fault)) ∨
      x = .error (.peripheralNotFound p.id) ∧ ¬ Knows p calls := by
  rcases runs_withHandle_iff.mp h with ⟨t, ht, rfl, rfl⟩ | ⟨t, handle, rest, -, rfl, hn⟩
  · exact .inr (.inr ⟨rfl, fun knows => by simpa [ht] using knows t (.head _)⟩)
  · obtain ⟨done, rest, rfl, hs⟩ := runs_perform_bind_iff.mp hn
    cases done with
    | error fault =>
      obtain ⟨rfl, rfl⟩ := runs_done_iff.mp hs
      exact .inr (.inl ⟨fault, rfl⟩)
    | ok done =>
      obtain ⟨services, rest, rfl, hd⟩ := runs_perform_bind_iff.mp hs
      obtain ⟨rfl, rfl⟩ := runs_done_iff.mp hd
      obtain rfl := hl handle services (.tail _ (.tail _ (.head _)))
      exact .inl rfl

theorem runs_discoverCharacteristics {x : Except Error (List Characteristic)}
    {calls : List (Call (effects η))}
    (h : (answer (.discoverCharacteristics p s : Session.Request η)).Runs calls x)
    (hl : Lists listed calls) :
    x = .ok (foundUnder listed s.uuid) ∨
      x = .error (.peripheralNotFound p.id) ∧ ¬ Knows p calls := by
  rcases runs_withHandle_iff.mp h with ⟨t, ht, rfl, rfl⟩ | ⟨t, handle, rest, -, rfl, hn⟩
  · exact .inr ⟨rfl, fun knows => by simpa [ht] using knows t (.head _)⟩
  · obtain ⟨services, rest, rfl, hd⟩ := runs_perform_bind_iff.mp hn
    obtain ⟨rfl, rfl⟩ := runs_done_iff.mp hd
    obtain rfl := hl handle services (.tail _ (.head _))
    exact .inl rfl

theorem answers_setMtu (listed : List Platform.Service) (p : Peripheral) (mtu : UInt16) :
    Answers listed (.setMtu p mtu : Session.Request η) (.error (.notSupported
      ("explicit MTU negotiation (" ++ toString mtu.toNat ++ " bytes)"))) :=
  ⟨[], .done _, nofun⟩

theorem answers_discoverServices (listed : List Platform.Service) (p : Peripheral) :
    Answers listed (.discoverServices p : Session.Request η) (.ok (listed.map (·.toService))) := by
  refine ⟨⟨.tables, some (known η p)⟩ :: ⟨.platform (.discoverServices (0 : Nat)), some (.ok ())⟩ ::
    [⟨.services (0 : Nat), some listed⟩], runs_withHandle_iff.mpr (.inr ?_), ?_⟩
  · exact ⟨known η p, 0, _, handle?_known, rfl, runs_perform_bind_iff.mpr ⟨.ok (), _, rfl,
      runs_perform_bind_iff.mpr ⟨listed, [], rfl, .done _⟩⟩⟩
  · exact .cons (.cons (lists_nil.looked 0) nofun) nofun

theorem answers_discoverCharacteristics (listed : List Platform.Service) (p : Peripheral)
    (s : Service) : Answers listed (.discoverCharacteristics p s : Session.Request η)
      (.ok (foundUnder listed s.uuid)) := by
  refine ⟨⟨.tables, some (known η p)⟩ :: [⟨.services (0 : Nat), some listed⟩],
    runs_withHandle_iff.mpr (.inr ?_), ?_⟩
  · exact ⟨known η p, 0, _, handle?_known, rfl,
      runs_perform_bind_iff.mpr ⟨listed, [], rfl, .done _⟩⟩
  · exact .cons (lists_nil.looked 0) nofun

theorem Answers.services_eq {services : List Service}
    (h : Answers listed (.discoverServices p : Session.Request η) (.ok services)) :
    services = listed.map (·.toService) := by
  obtain ⟨calls, hr, hl⟩ := h
  rcases runs_discoverServices hr hl with hx | ⟨_, hx⟩ | ⟨hx, -⟩
  · exact Except.ok.inj hx
  · cases hx
  · cases hx

theorem Answers.characteristics_eq {all : List Characteristic}
    (h : Answers listed (.discoverCharacteristics p s : Session.Request η) (.ok all)) :
    all = foundUnder listed s.uuid := by
  obtain ⟨calls, hr, hl⟩ := h
  rcases runs_discoverCharacteristics hr hl with hx | ⟨hx, -⟩
  · exact Except.ok.inj hx
  · cases hx

/-- Discovering finds the same whenever it succeeds, and it can succeed. -/
theorem discovers_iff {all : List Characteristic} :
    Discovers listed η p all ↔ all = found listed := by
  have founds_eq : found listed =
      ((listed.map (·.toService)).map fun s => foundUnder listed s.uuid).flatten := by
    rw [List.map_map, found, List.flatMap_def]
    rfl
  constructor
  · rintro ⟨services, founds, hs, hf, rfl⟩
    obtain rfl := hs.services_eq
    have each : (listed.map (·.toService)).map (fun s => foundUnder listed s.uuid) = founds := by
      rw [← List.forall₂_eq_eq_eq, List.forall₂_map_left_iff]
      exact hf.imp fun _ _ ha => ha.characteristics_eq.symm
    rw [founds_eq, each]
  · rintro rfl
    refine ⟨_, _, answers_discoverServices listed p, ?_, founds_eq⟩
    rw [List.forall₂_map_right_iff, List.forall₂_same]
    exact fun s _ => answers_discoverCharacteristics listed p s

/-! ## How often a characteristic is found -/

theorem mem_tree_iff {services : List Platform.Service} :
    c ∈ tree services ↔ ∃ s ∈ services, ∃ d ∈ s.characteristics, d.toCharacteristic = c := by
  simp only [tree, List.mem_map, List.mem_flatMap]
  constructor
  · rintro ⟨d, ⟨s, hs, hd⟩, rfl⟩
    exact ⟨s, hs, d, hd, rfl⟩
  · rintro ⟨s, hs, d, hd, rfl⟩
    exact ⟨d, ⟨s, hs, hd⟩, rfl⟩

theorem tree_cons (s : Platform.Service) (services : List Platform.Service) :
    tree (s :: services) = tree [s] ++ tree services := by
  simp [tree]

theorem count_tree_singleton {s : Platform.Service} (h : IsTree listed) (hs : s ∈ listed)
    (hc : c.service ≠ s.uuid) : (tree [s]).count c = 0 := by
  refine List.count_eq_zero.mpr fun hm => hc ?_
  obtain ⟨t, ht, d, hd, rfl⟩ := mem_tree_iff.mp hm
  obtain rfl := List.mem_singleton.mp ht
  exact h t hs d hd

/-- All that the services with a UUID have is found under it, and nothing else. -/
theorem count_foundUnder (h : IsTree listed) :
    (foundUnder listed u).count c = if u == c.service then (tree listed).count c else 0 := by
  induction listed with
  | nil => simp [foundUnder, tree]
  | cons s rest ih =>
    have others : IsTree rest := fun t ht => h t (.tail s ht)
    have own : c.service ≠ s.uuid → (tree [s]).count c = 0 := count_tree_singleton h (.head rest)
    rw [tree_cons, List.count_append]
    by_cases hs : s.uuid = u
    · have under : foundUnder (s :: rest) u = tree [s] ++ foundUnder rest u := by
        simp only [foundUnder, List.filter_cons, hs, beq_self_eq_true, if_true]
        exact tree_cons s _
      rw [under, List.count_append, ih others]
      split
      · rfl
      · rename_i ne
        rw [own fun same => ne (beq_iff_eq.mpr (hs.symm.trans same.symm))]
    · have under : foundUnder (s :: rest) u = foundUnder rest u := by
        simp [foundUnder, hs]
      rw [under, ih others]
      split
      · rename_i eq
        rw [own fun same => hs (same.symm.trans (eq_of_beq eq).symm), Nat.zero_add]
      · rfl

/-- A characteristic is found once for every service that bears the UUID of its own. -/
theorem count_found (h : IsTree listed) :
    (found listed).count c =
      listed.countP (fun s => s.uuid == c.service) * (tree listed).count c := by
  have each (services : List Platform.Service) :
      (services.flatMap fun s => foundUnder listed s.uuid).count c =
        services.countP (fun s => s.uuid == c.service) * (tree listed).count c := by
    induction services with
    | nil => simp
    | cons s rest ih =>
      rw [List.flatMap_cons, List.count_append, ih, count_foundUnder h, List.countP_cons,
        Nat.add_mul, Nat.add_comm]
      split <;> simp
  exact each listed

theorem mem_found_iff : c ∈ found listed ↔ c ∈ tree listed := by
  constructor
  · intro hm
    obtain ⟨s, -, hm⟩ := List.mem_flatMap.mp hm
    obtain ⟨t, ht, d, hd, rfl⟩ := mem_tree_iff.mp hm
    exact mem_tree_iff.mpr ⟨t, (List.mem_filter.mp ht).1, d, hd, rfl⟩
  · intro hm
    obtain ⟨s, hs, d, hd, rfl⟩ := mem_tree_iff.mp hm
    refine List.mem_flatMap.mpr ⟨s, hs, mem_tree_iff.mpr ⟨s, ?_, d, hd, rfl⟩⟩
    exact List.mem_filter.mpr ⟨hs, beq_self_eq_true s.uuid⟩

/-! ## When it is found once -/

theorem tree_eq_nil {services : List Platform.Service}
    (h : ∀ s ∈ services, s.characteristics = []) : tree services = [] := by
  simpa [tree] using h

/-- Under the UUID of a service that shares it with no other one, only what it has is found. -/
theorem foundUnder_eq {s : Platform.Service} (h : IsDistinct listed) (hs : s ∈ listed) :
    foundUnder listed s.uuid = tree [s] := by
  have bearers : (listed.filter fun t => t.uuid == s.uuid).Pairwise fun t t' =>
      t.characteristics = [] ∧ t'.characteristics = [] := by
    refine (h.filter _).imp_of_mem fun ht ht' empty => empty ?_
    have first := (List.mem_filter.mp ht).2
    have second := (List.mem_filter.mp ht').2
    exact (eq_of_beq first).trans (eq_of_beq second).symm
  have member : s ∈ listed.filter fun t => t.uuid == s.uuid :=
    List.mem_filter.mpr ⟨hs, beq_self_eq_true s.uuid⟩
  unfold foundUnder
  generalize (listed.filter fun t => t.uuid == s.uuid) = services at bearers member
  match services with
  | [t] => rw [List.mem_singleton.mp member]
  | t :: t' :: rest =>
    have empty : ∀ r ∈ t :: t' :: rest, r.characteristics = [] := by
      obtain ⟨first, later⟩ := List.pairwise_cons.mp bearers
      intro r hr
      rcases List.mem_cons.mp hr with rfl | hr
      · exact (first t' (.head rest)).1
      · exact (first r hr).2
    rw [tree_eq_nil empty, tree_eq_nil (List.forall_mem_singleton.mpr (empty s member))]

theorem found_eq_tree (h : IsDistinct listed) : found listed = tree listed := by
  have each : ∀ services : List Platform.Service, services ⊆ listed →
      (services.flatMap fun s => foundUnder listed s.uuid) = tree services := by
    intro services sub
    induction services with
    | nil => rfl
    | cons s rest ih =>
      obtain ⟨hs, later⟩ := List.cons_subset.mp sub
      rw [List.flatMap_cons, foundUnder_eq h hs, ih later, ← tree_cons]
  exact each listed fun _ hs => hs

/-- Each characteristic is found as often as the platform lists it exactly if no two services that
have any share a UUID. -/
theorem found_perm_tree_iff (h : IsTree listed) :
    (found listed).Perm (tree listed) ↔ IsDistinct listed := by
  refine ⟨fun perm => ?_, fun distinct => found_eq_tree distinct ▸ .refl _⟩
  have single : ∀ c ∈ tree listed, listed.countP (fun s => s.uuid == c.service) = 1 := by
    intro c hc
    have counts := perm.count_eq c
    rw [count_found h] at counts
    exact Nat.eq_of_mul_eq_mul_right (List.count_pos_iff.mpr hc) (by rw [counts, Nat.one_mul])
  refine List.pairwise_iff_forall_sublist.mpr fun {s t} pair same => ?_
  have empty : ∀ r ∈ [s, t], r.uuid = t.uuid → r.characteristics = [] := by
    intro r hr bears
    refine List.eq_nil_iff_forall_not_mem.mpr fun d hd => ?_
    have own : d.service = t.uuid := (h r (pair.subset hr) d hd).trans bears
    have one := single d.toCharacteristic (mem_tree_iff.mpr ⟨r, pair.subset hr, d, hd, rfl⟩)
    have two : [s, t].countP (fun r => r.uuid == d.service) = 2 := by
      simp [own, same]
    have le := pair.countP_le (p := fun r => r.uuid == d.service)
    rw [one, two] at le
    omega
  exact ⟨empty s (.head _) same, empty t (.tail _ (.head _)) rfl⟩

/-! ## What is done on a connection -/

/-- The answer is one of a session whose platform lists these services. -/
def IsAnswered (listed : List Platform.Service) : Call Cycle.effects → Prop
  | ⟨.session r, some x⟩ => Answers listed r x
  | _ => True

/-- What discovering makes of the services that the platform lists, and what is done with it. -/
structure Repeats (listed : List Platform.Service) (p : Peripheral) : Prop where
  /-- Discovering fails only if the platform does, or if the peripheral is not known. -/
  services {x : Except Error (List Service)} {calls : List (Call (effects String))}
    (h : (answer (.discoverServices p)).Runs calls x) (hl : Lists listed calls)
    (hk : Knows p calls) :
    x = .ok (listed.map (·.toService)) ∨ ∃ fault, x = .error (.bluetooth fault)
  characteristics {s : Service} {x : Except Error (List Characteristic)}
    {calls : List (Call (effects String))}
    (h : (answer (.discoverCharacteristics p s)).Runs calls x) (hl : Lists listed calls)
    (hk : Knows p calls) : ∃ found, x = .ok found
  /-- Nothing is left out. -/
  mem_iff {all : List Characteristic} (h : Discovers listed String p all) {c : Characteristic} :
    c ∈ all ↔ c ∈ tree listed
  /-- Everything is found once for every service that bears the UUID of its own. -/
  count_eq {all : List Characteristic} (h : Discovers listed String p all) (c : Characteristic) :
    all.count c = listed.countP (fun s => s.uuid == c.service) * (tree listed).count c
  /-- It is found as often as it is there exactly if no two services share a UUID. -/
  perm_iff {all : List Characteristic} (h : Discovers listed String p all) :
    all.Perm (tree listed) ↔ IsDistinct listed
  /-- It is then found in the order of the platform. -/
  in_order {all : List Characteristic} (h : Discovers listed String p all)
    (hd : IsDistinct listed) : all = tree listed
  /-- On a connection it is changed no more often than it is found. -/
  altered_le {plan : Cycle.Plan} {calls : List (Call Cycle.effects)}
    (h : (plan.process p).Runs calls ()) (hs : ∀ call ∈ calls, IsAnswered listed call)
    (c : Characteristic) :
    Cycle.alterations p c calls ≤
      listed.countP (fun s => s.uuid == c.service) * plan.due c (tree listed)
  /-- If nothing has ended the walk and every service could be looked into, it is changed exactly as
  often. -/
  altered_eq {plan : Cycle.Plan} {calls : List (Call Cycle.effects)}
    (h : (plan.process p).Runs calls ()) (hs : ∀ call ∈ calls, IsAnswered listed call)
    (hh : ⟨.hold plan.window, some ()⟩ ∈ calls) (hm : ¬ Cycle.Plan.Misses p calls)
    (c : Characteristic) :
    Cycle.alterations p c calls =
      listed.countP (fun s => s.uuid == c.service) * plan.due c (tree listed)

theorem due_found {plan : Cycle.Plan} (h : IsTree listed) :
    plan.due c (found listed) =
      listed.countP (fun s => s.uuid == c.service) * plan.due c (tree listed) := by
  unfold Cycle.Plan.due
  split
  · exact count_found h
  · rfl

theorem alterations_of_isAnswered {plan : Cycle.Plan} {calls : List (Call Cycle.effects)}
    (h : (plan.process p).Runs calls ()) (hs : ∀ call ∈ calls, IsAnswered listed call) :
    Cycle.alterations p c calls ≤ plan.due c (found listed) ∧
      (⟨.hold plan.window, some ()⟩ ∈ calls → ¬ Cycle.Plan.Misses p calls →
        Cycle.alterations p c calls = plan.due c (found listed)) := by
  have all : (listed.map (·.toService)).flatMap (fun s => foundUnder listed s.uuid) =
      found listed := List.flatMap_map ..
  rw [← all]
  exact Cycle.Plan.alterations_process h (fun _ hm => Answers.services_eq (hs _ hm))
    fun _ _ hm => Answers.characteristics_eq (hs _ hm)

/-- Whatever services the platform lists: a characteristic is found, and changed on a connection,
once for every service that bears the UUID of its own. -/
theorem discovery_repeats (p : Peripheral) (h : IsTree listed) : Repeats listed p where
  services hr hl hk := by
    rcases runs_discoverServices hr hl with hx | hx | ⟨-, unknown⟩
    · exact .inl hx
    · exact .inr hx
    · exact absurd hk unknown
  characteristics hr hl hk := by
    rcases runs_discoverCharacteristics hr hl with hx | ⟨-, unknown⟩
    · exact ⟨_, hx⟩
    · exact absurd hk unknown
  mem_iff hd := by
    rw [discovers_iff.mp hd]
    exact mem_found_iff
  count_eq hd c := by
    rw [discovers_iff.mp hd]
    exact count_found h
  perm_iff hd := by
    rw [discovers_iff.mp hd]
    exact found_perm_tree_iff h
  in_order hd distinct := by
    rw [discovers_iff.mp hd]
    exact found_eq_tree distinct
  altered_le hr hs c := by
    rw [← due_found h]
    exact (alterations_of_isAnswered hr hs).1
  altered_eq hr hs hh hm c := by
    rw [← due_found h]
    exact (alterations_of_isAnswered hr hs).2 hh hm

/-! ## A peripheral with two services of one UUID -/

open GattSync.Cycle (asked nameless alarmService alarmCharacteristic)

instance (listed : List Platform.Service) : Decidable (IsTree listed) :=
  inferInstanceAs (Decidable (∀ s ∈ listed, ∀ d ∈ s.characteristics, d.service = s.uuid))

/-- What stands next to the alarm. -/
def volume : Platform.Characteristic := { uuid := ⟨0xfff5⟩, service := ⟨0xfff0⟩, properties := 2 }

/-- Two services with one characteristic each. -/
def twins : List Platform.Service :=
  [⟨alarmService, [⟨alarmCharacteristic, []⟩]⟩, ⟨alarmService, [volume]⟩]

theorem isTree_twins : IsTree twins := by
  decide

/-- A connection to the twins on which nothing fails. -/
def twinCalls : List (Call Cycle.effects) :=
  let discovered := asked (.discoverCharacteristics nameless alarmService)
    (.ok [alarmCharacteristic, volume.toCharacteristic])
  let described := asked (.discoverDescriptors nameless alarmCharacteristic) (.ok [])
  let subscribed := asked (.subscribe nameless alarmCharacteristic "alarm") (.ok ())
  [asked (.setMtu nameless 500) (.error (.notSupported
      ("explicit MTU negotiation (" ++ toString (500 : UInt16).toNat ++ " bytes)"))),
    asked (.discoverServices nameless) (.ok [alarmService, alarmService]),
    discovered, described, subscribed, discovered, described, subscribed,
    ⟨.hold .zero, some ()⟩]

theorem runs_twinCalls : (Cycle.Plan.alarm.process nameless).Runs twinCalls () :=
  .ask _ (.ask _ (.ask _ (.ask _ (.ask _ (.ask _ (.ask _ (.ask _ (.ask _ (.done ())))))))))

theorem isAnswered_twinCalls : ∀ call ∈ twinCalls, IsAnswered twins call := by
  have found : find? twins alarmCharacteristic = some ⟨alarmCharacteristic, []⟩ := by decide
  have discovered := answers_discoverCharacteristics (η := String) twins nameless alarmService
  have described := answers_discoverDescriptors (η := String) (p := nameless) found
  have subscribed := answers_subscribe (p := nameless) found "alarm"
  simp only [twinCalls, List.forall_mem_cons]
  exact ⟨answers_setMtu twins nameless 500, answers_discoverServices twins nameless, discovered,
    described, subscribed, discovered, described, subscribed, trivial, List.forall_mem_nil _⟩

theorem not_misses_twinCalls : ¬ Cycle.Plan.Misses nameless twinCalls := by
  rintro ⟨s, fault, hm⟩
  simp [twinCalls, asked] at hm

/-- What is found of the twins and done with them: the alarm is found twice and subscribed to
twice. -/
theorem discovery_repeats_twins :
    IsTree twins ∧ Repeats twins nameless ∧ Discovers twins String nameless (found twins) ∧
      (found twins).count alarmCharacteristic = 2 * (tree twins).count alarmCharacteristic ∧
      Cycle.alterations nameless alarmCharacteristic twinCalls =
        2 * Cycle.Plan.alarm.due alarmCharacteristic (tree twins) := by
  have repeats := discovery_repeats nameless isTree_twins
  have discovers : Discovers twins String nameless (found twins) := discovers_iff.mpr rfl
  have held : ⟨.hold Cycle.Plan.alarm.window, some ()⟩ ∈ twinCalls := by
    simp [twinCalls, Cycle.Plan.alarm, Cycle.Plan.bare]
  refine ⟨isTree_twins, repeats, discovers, repeats.count_eq discovers alarmCharacteristic, ?_⟩
  exact repeats.altered_eq runs_twinCalls isAnswered_twinCalls held not_misses_twinCalls
    alarmCharacteristic

/-- The platform lists the twins in its order, and the alarm once. It is found twice, and on a
connection it is subscribed to twice. -/
theorem subscribes_twice :
    Platform.ascending twins = twins ∧ IsTree twins ∧
      (tree twins).count alarmCharacteristic = 1 ∧
      Discovers twins String nameless (found twins) ∧ ¬ (found twins).Perm (tree twins) ∧
      (Cycle.Plan.alarm.process nameless).Runs twinCalls () ∧
      (∀ call ∈ twinCalls, IsAnswered twins call) ∧
      Cycle.alterations nameless alarmCharacteristic twinCalls = 2 := by
  refine ⟨by decide, isTree_twins, by decide, discovers_iff.mpr rfl, ?_, runs_twinCalls,
    isAnswered_twinCalls, rfl⟩
  intro perm
  have length := perm.length_eq
  exact absurd length (by decide)

end GattSync.Adapter
