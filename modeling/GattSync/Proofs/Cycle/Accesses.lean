import GattSync.Proofs.Cycle.Turn

/-!
# What comes of an access

All that can come of accessing a characteristic, one constructor for each outcome: the calls that
are made with their answers, and what they come to. A reading is reported once it has been converted
(`Reads`). A write is over with the first of its parts that fails (`Writes`), and so is a
subscription (`Subscribes`). These are exactly the runs of the programs.

An access by a property's mode says whether the walk goes on after it (`Plan.Accesses`): a failed
write or subscription ends the walk, a failed read does not.
-/

namespace GattSync.Cycle

open Program

/-- A value that has been recorded. -/
def recorded (property desired reported : String) : Call effects :=
  ⟨.record property desired reported, some ()⟩

theorem runs_recorded {α : Type} {property desired reported : String} {next : Prog α}
    {calls : List (Call effects)} {a : α} :
    (do record property desired reported; next : Prog α).Runs calls a ↔
      ∃ rest, calls = recorded property desired reported :: rest ∧ next.Runs rest a := by
  constructor
  · intro h
    obtain ⟨_, rest, rfl, hn⟩ := runs_perform_bind_iff.mp h
    exact ⟨rest, rfl, hn⟩
  · rintro ⟨rest, rfl, hn⟩
    exact runs_perform_bind_iff.mpr ⟨(), rest, rfl, hn⟩

/-- A session that refuses everything. -/
def refusing : Behaviour effects
  | _, .session _ => .error .notConnected
  | _, .record _ _ _ => ()
  | _, .hold _ => ()
  | _, .finish => ()
  | _, .publish => ()

namespace Access

variable {convert : Converter} {p : Peripheral} {c : Characteristic} {property : Property}
  {calls : List (Call effects)}

/-- What can come of reading a characteristic. -/
inductive Reads (convert : Converter) (p : Peripheral) (c : Characteristic) (property : Property) :
    List (Call effects) → Except Error String → Prop
  | unread (fault : Error) :
    Reads convert p c property [asked (.read p c) (.error fault)] (.error fault)
  | unconverted {payload : Bytes} {fault : Error}
      (h : convert property.visitor.layout payload = .error fault) :
    Reads convert p c property [asked (.read p c) (.ok payload)] (.error fault)
  | reported {payload : Bytes} {reading : Float}
      (h : convert property.visitor.layout payload = .ok reading) :
    Reads convert p c property
      [asked (.read p c) (.ok payload), recorded property.name "" (formatReading reading)]
      (.ok (formatReading reading))

/-- What can come of writing to a characteristic. -/
inductive Writes (convert : Converter) (p : Peripheral) (c : Characteristic)
    (property : Property) : List (Call effects) → Except Error Unit → Prop
  /-- There is no payload to write. -/
  | unprepared {fault : Error} (h : property.defaultPayload = .error fault) :
    Writes convert p c property [] (.error fault)
  | unwritten {payload : Bytes} (h : property.defaultPayload = .ok payload) (fault : Error) :
    Writes convert p c property [asked (.write p c payload true) (.error fault)] (.error fault)
  | unverified {payload : Bytes} {reading : List (Call effects)} {fault : Error}
      (h : property.defaultPayload = .ok payload)
      (hr : Reads convert p c property reading (.error fault)) :
    Writes convert p c property (asked (.write p c payload true) (.ok ()) :: reading)
      (.error fault)
  | verified {payload : Bytes} {reading : List (Call effects)} {reported : String}
      (h : property.defaultPayload = .ok payload)
      (hr : Reads convert p c property reading (.ok reported)) :
    Writes convert p c property
      (asked (.write p c payload true) (.ok ()) :: reading ++
        [recorded property.name property.visitor.defaultValue reported])
      (.ok ())

/-- What can come of subscribing to a characteristic. -/
inductive Subscribes (p : Peripheral) (c : Characteristic) (property : Property) :
    List (Call effects) → Except Error Unit → Prop
  | undescribed (fault : Error) :
    Subscribes p c property [asked (.discoverDescriptors p c) (.error fault)] (.error fault)
  /-- The characteristic cannot notify. -/
  | unable (found : List Uuid) (h : c.canNotify = false) :
    Subscribes p c property [asked (.discoverDescriptors p c) (.ok found)] (.ok ())
  | registered (found : List Uuid) (h : c.canNotify) (x : Except Error Unit) :
    Subscribes p c property
      [asked (.discoverDescriptors p c) (.ok found), asked (.subscribe p c property.name) x] x

/-! ## Accesses and runs -/

theorem runs_read_iff {x : Except Error String} :
    (read convert p c property).Runs calls x ↔ Reads convert p c property calls x := by
  constructor
  · intro h
    obtain ⟨answer, _, rfl, answered⟩ := runs_perform_bind_iff.mp h
    cases answer with
    | error fault =>
      obtain ⟨rfl, rfl⟩ := runs_done_iff.mp answered
      exact .unread fault
    | ok payload =>
      dsimp only at answered
      cases hc : convert property.visitor.layout payload with
      | error fault =>
        rw [hc] at answered
        obtain ⟨rfl, rfl⟩ := runs_done_iff.mp answered
        exact .unconverted hc
      | ok reading =>
        rw [hc] at answered
        obtain ⟨_, rfl, hd⟩ := runs_recorded.mp answered
        obtain ⟨rfl, rfl⟩ := runs_done_iff.mp hd
        exact .reported hc
  · intro h
    cases h with
    | unread fault => exact runs_asked _ _ (.done _)
    | unconverted hc =>
      refine runs_asked _ _ ?_
      simp only [hc]
      exact .done _
    | reported hc =>
      refine runs_asked _ _ ?_
      simp only [hc]
      exact runs_recorded.mpr ⟨_, rfl, .done _⟩

theorem runs_write_iff {x : Except Error Unit} :
    (write convert p c property).Runs calls x ↔ Writes convert p c property calls x := by
  unfold write
  constructor
  · intro h
    cases hp : property.defaultPayload with
    | error fault =>
      rw [hp] at h
      obtain ⟨rfl, rfl⟩ := runs_done_iff.mp h
      exact .unprepared hp
    | ok payload =>
      rw [hp] at h
      obtain ⟨answer, _, rfl, written⟩ := runs_perform_bind_iff.mp h
      cases answer with
      | error fault =>
        obtain ⟨rfl, rfl⟩ := runs_done_iff.mp written
        exact .unwritten hp fault
      | ok done =>
        obtain ⟨reading, answer, _, rfl, hr, answered⟩ := runs_bind_iff.mp written
        have reads := runs_read_iff.mp hr
        cases answer with
        | error fault =>
          obtain ⟨rfl, rfl⟩ := runs_done_iff.mp answered
          rw [List.append_nil]
          exact .unverified hp reads
        | ok reported =>
          obtain ⟨_, rfl, hd⟩ := runs_recorded.mp answered
          obtain ⟨rfl, rfl⟩ := runs_done_iff.mp hd
          exact .verified hp reads
  · intro h
    cases h with
    | unprepared hp =>
      rw [hp]
      exact .done _
    | unwritten hp fault =>
      rw [hp]
      exact runs_asked _ _ (.done _)
    | @unverified payload reading fault hp hr =>
      rw [hp]
      refine runs_asked (.write p c payload true) (.ok ()) ?_
      exact runs_bind_iff.mpr
        ⟨reading, _, [], (List.append_nil _).symm, runs_read_iff.mpr hr, .done _⟩
    | @verified payload reading reported hp hr =>
      rw [hp]
      refine runs_asked (.write p c payload true) (.ok ()) ?_
      exact runs_bind_iff.mpr
        ⟨reading, _, _, rfl, runs_read_iff.mpr hr, runs_recorded.mpr ⟨_, rfl, .done _⟩⟩

theorem runs_subscribe_iff {x : Except Error Unit} :
    (subscribe p c property).Runs calls x ↔ Subscribes p c property calls x := by
  constructor
  · intro h
    obtain ⟨answer, _, rfl, described⟩ := runs_perform_bind_iff.mp h
    cases answer with
    | error fault =>
      obtain ⟨rfl, rfl⟩ := runs_done_iff.mp described
      exact .undescribed fault
    | ok found =>
      cases hn : c.canNotify with
      | false =>
        simp only [hn] at described
        obtain ⟨rfl, rfl⟩ := runs_done_iff.mp described
        exact .unable found hn
      | true =>
        simp only [hn] at described
        obtain ⟨x, _, rfl, hd⟩ := runs_ask_iff.mp described
        obtain ⟨rfl, rfl⟩ := runs_done_iff.mp hd
        exact .registered found hn _
  · intro h
    cases h with
    | undescribed fault => exact runs_asked _ _ (.done _)
    | unable found hn =>
      refine runs_asked (.discoverDescriptors p c) (.ok found) ?_
      simp only [hn]
      exact .done _
    | registered found hn x =>
      refine runs_asked (.discoverDescriptors p c) (.ok found) ?_
      simp only [hn]
      exact runs_ask_iff.mpr ⟨x, [], rfl, .done x⟩

end Access

namespace Plan

/-- What can come of accessing a characteristic as its property asks, and whether the walk goes on
after it. -/
inductive Accesses (plan : Plan) (p : Peripheral) :
    Characteristic × Property → List (Call effects) → Bool → Prop
  | read {c : Characteristic} {property : Property} {calls : List (Call effects)}
      {x : Except Error String} (h : property.access = .readOnly)
      (hr : Access.Reads plan.convert p c property calls x) :
    Accesses plan p (c, property) calls true
  | written {c : Characteristic} {property : Property} {calls : List (Call effects)}
      {x : Except Error Unit} (h : property.access = .readWrite)
      (hw : Access.Writes plan.convert p c property calls x) :
    Accesses plan p (c, property) calls x.isOk
  | subscribed {c : Characteristic} {property : Property} {calls : List (Call effects)}
      {x : Except Error Unit} (h : property.access = .notifyOnly)
      (hs : Access.Subscribes p c property calls x) :
    Accesses plan p (c, property) calls x.isOk
  | passedOver {c : Characteristic} {property : Property} {name : String}
      (h : property.access = .unrecognized name) : Accesses plan p (c, property) [] true

variable {plan : Plan} {p : Peripheral} {c : Characteristic} {calls : List (Call effects)}
  {goesOn : Bool}

/-- A characteristic without a property is passed by. -/
theorem runs_visit_of_none (h : plan.spec.property? c.uuid = none) :
    (plan.visit p c).Runs calls goesOn ↔ calls = [] ∧ goesOn = true := by
  unfold visit
  rw [h]
  exact runs_done_iff

/-- A characteristic with a property is accessed as the property asks. -/
theorem runs_visit_of_some {property : Property} (h : plan.spec.property? c.uuid = some property) :
    (plan.visit p c).Runs calls goesOn ↔ plan.Accesses p (c, property) calls goesOn := by
  unfold visit
  simp only [h]
  constructor
  · intro hv
    cases ha : property.access with
    | readOnly =>
      rw [ha] at hv
      obtain ⟨x, hr, rfl⟩ := runs_bind_done_iff.mp hv
      exact .read ha (Access.runs_read_iff.mp hr)
    | readWrite =>
      rw [ha] at hv
      obtain ⟨x, hw, rfl⟩ := runs_bind_done_iff.mp hv
      exact .written ha (Access.runs_write_iff.mp hw)
    | notifyOnly =>
      rw [ha] at hv
      obtain ⟨x, hs, rfl⟩ := runs_bind_done_iff.mp hv
      exact .subscribed ha (Access.runs_subscribe_iff.mp hs)
    | unrecognized name =>
      rw [ha] at hv
      obtain ⟨rfl, rfl⟩ := runs_done_iff.mp hv
      exact .passedOver ha
  · intro hv
    cases hv with
    | read ha hr =>
      rw [ha]
      exact runs_bind_done_iff.mpr ⟨_, Access.runs_read_iff.mpr hr, rfl⟩
    | written ha hw =>
      rw [ha]
      exact runs_bind_done_iff.mpr ⟨_, Access.runs_write_iff.mpr hw, rfl⟩
    | subscribed ha hs =>
      rw [ha]
      exact runs_bind_done_iff.mpr ⟨_, Access.runs_subscribe_iff.mpr hs, rfl⟩
    | passedOver ha =>
      rw [ha]
      exact .done _

end Plan
end GattSync.Cycle
