import GattSync.Proofs.Cycle.Chronicle
import GattSync.Proofs.Status.Updates
import GattSync.Text.Payload

/-!
# What a cycle reports

The status of a cycle is changed by the cycle's own records and by the payloads that are delivered
to its listeners, at any moment in between (`Moment`). A payload is delivered only to a listener
that has been handed over to the session, be it in a call that has not been answered yet
(`IsHeard`).

Whatever the moments of a cycle have been, its status is what it was seeded with, updated for
properties whose characteristics have been found; and where the cycle is not about to record, every
property that was updated has the value observed last for it (`status_reports`).
-/

namespace GattSync.Cycle

open Program Status

/-- Something that happens while a cycle is under way. -/
inductive Moment where
  /-- The cycle makes a call. -/
  | made (call : Call effects) (now : Timestamp)
  /-- A notified payload is delivered to the listener of a property. -/
  | delivered (property : String) (payload : Bytes) (now : Timestamp)

namespace Moment

/-- The call of a moment. -/
def call? : Moment → Option (Call effects)
  | made call _ => some call
  | delivered _ _ _ => none

/-- The update that a moment makes. -/
def update? : Moment → Option Entry
  | made call now =>
    call.1.record?.map fun (property, desired, reported) => ⟨property, desired, reported, now⟩
  | delivered property payload now => some ⟨property, "", Text.Payload.quote payload, now⟩

/-- The property that a moment updates, with its texts. -/
def texts? (m : Moment) : Option (String × String × String) :=
  m.update?.map fun u => (u.name, u.desired, u.reported)

/-- The property of which something is observed at a moment, with the text of it. -/
def observation? (plan : Plan) : Moment → Option (String × String)
  | made call _ => plan.reading? call
  | delivered property payload _ => some (property, Text.Payload.quote payload)

end Moment

/-- The calls that a cycle has made. -/
def calls (ms : List Moment) : List (Call effects) := ms.filterMap (·.call?)

/-- The updates that the status of a cycle has seen. -/
def updates (ms : List Moment) : List Entry := ms.filterMap (·.update?)

/-- What has been observed last of a property. -/
def lastObserved (plan : Plan) (name : String) (ms : List Moment) : Option String :=
  ms.findSomeRev? fun m => about name (m.observation? plan)

/-- What a cycle waits for an answer to before it makes these calls; behind the last of them, it is
what it waits for now. -/
def pending (next : Option Effect) : List (Call effects) → Option Effect
  | [] => next
  | call :: _ => some call.1

/-- Payloads are delivered only to listeners that the session has been handed. -/
def IsHeard (ms : List Moment) (next : Option Effect) : Prop :=
  ∀ before after property payload now, ms = before ++ .delivered property payload now :: after →
    ∃ op ∈ (calls before).map (·.1) ++ (pending next (calls after)).toList,
      op.listener? = some property

/-- The property is accessed in a way that reports values of it. -/
def IsReported (property : Property) : Prop :=
  IsPolled property ∨ property.access = .notifyOnly

/-- The status of a cycle, given what it was seeded with and the moments so far. -/
structure Reports (plan : Plan) (seed : Snapshot) (ms : List Moment) (next : Option Effect) :
    Prop where
  /-- Nothing is removed or put elsewhere, and new names come behind the others, in the order of
  their first update. -/
  names : (seed.updated (updates ms)).names =
    seed.names ++ (((updates ms).map (·.name)).removeAll seed.names).eraseDups
  /-- An entry that is not updated is where and as it was, and so is one that bears the name of an
  entry before it. -/
  kept {i : Nat} {e : Entry} (h : seed.entries[i]? = some e)
    (hk : e.name ∉ (updates ms).map (·.name) ∨ e.name ∈ seed.names.take i) :
    (seed.updated (updates ms)).entries[i]? = some e
  /-- Only properties that are read or notified, and whose characteristics have been found, are
  updated. -/
  touched {u : Entry} (h : u ∈ updates ms) :
    ∃ q, plan.Finds (calls ms) q ∧ IsReported q ∧ q.name = u.name
  /-- A record is of a property that is read and whose characteristic has been found, and it follows
  the reading that it reports. -/
  recorded {before after : List Moment} {call : Call effects} {now : Timestamp}
    {name desired reported : String} (h : ms = before ++ .made call now :: after)
    (hr : call.1.record? = some (name, desired, reported)) :
    ∃ q, plan.Finds (calls before) q ∧ IsPolled q ∧ q.name = name ∧
      plan.lastReading name (calls before) = some reported
  /-- A payload is delivered to a property that is notified and whose characteristic has been
  found. -/
  delivered {before after : List Moment} {name : String} {payload : Bytes} {now : Timestamp}
    (h : ms = before ++ .delivered name payload now :: after) :
    ∃ q, plan.Finds (calls before) q ∧ q.access = .notifyOnly ∧ q.name = name
  /-- Where the cycle is not about to record, a property has the value observed last for it, and one
  of which nothing has been observed is as it was. -/
  observed (hd : (plan.spec.properties.map (·.name)).Nodup)
    (hn : ∀ op ∈ next, op.record? = none) {q : Property} (hf : plan.Finds (calls ms) q)
    (hq : IsReported q) :
    match lastObserved plan q.name ms with
    | none => q.name ∉ (updates ms).map (·.name)
    | some text => ∃ u ∈ updates ms, (seed.updated (updates ms)).get? q.name = some u ∧
        u.desired = desired q ∧ u.reported = text

variable {plan : Plan} {ms before after : List Moment} {next : Option Effect} {q : Property}
  {name : String}

/-! ## Moments and calls -/

theorem calls_append : calls (before ++ after) = calls before ++ calls after :=
  List.filterMap_append

theorem calls_made {call : Call effects} {now : Timestamp} :
    calls (.made call now :: after) = call :: calls after := rfl

theorem calls_delivered {payload : Bytes} {now : Timestamp} :
    calls (.delivered name payload now :: after) = calls after := rfl

@[simp] theorem texts?_made {call : Call effects} {now : Timestamp} :
    (Moment.made call now).texts? = call.1.record? := by
  rw [Moment.texts?, Moment.update?]
  cases call.1.record? <;> rfl

@[simp] theorem texts?_delivered {payload : Bytes} {now : Timestamp} :
    (Moment.delivered name payload now).texts? = some (name, "", Text.Payload.quote payload) := rfl

/-- The texts of the last update of a property are those of the last moment that updates it. -/
theorem texts_findRev?_updates (name : String) (ms : List Moment) :
    ((updates ms).findRev? fun u => u.name == name).map (fun u => (u.desired, u.reported)) =
      ms.findSomeRev? fun m => about name m.texts? := by
  induction ms with
  | nil => rfl
  | cons m rest ih =>
    rw [List.findSomeRev?, ← ih, updates, List.filterMap_cons, Moment.texts?, ← updates]
    cases m.update? with
    | none => cases (updates rest).findRev? fun u => u.name == name <;> rfl
    | some u =>
      dsimp only
      rw [List.findRev?]
      cases (updates rest).findRev? fun u => u.name == name with
      | some last => rfl
      | none => by_cases h : u.name = name <;> simp [h, about]

theorem findSomeRev?_eq_map {α β γ : Type} {f : α → Option β} {g : α → Option γ} {k : γ → β}
    {l : List α} (h : ∀ a ∈ l, f a = (g a).map k) :
    l.findSomeRev? f = (l.findSomeRev? g).map k := by
  induction l with
  | nil => rfl
  | cons a rest ih =>
    obtain ⟨ha, hrest⟩ := List.forall_mem_cons.mp h
    rw [List.findSomeRev?, List.findSomeRev?, ih hrest, ha]
    cases rest.findSomeRev? g <;> rfl

/-- What is looked for in calls only is found where it is among the calls. -/
theorem findSomeRev?_calls {α : Type} {f : Moment → Option α} {g : Call effects → Option α}
    {ms : List Moment} (h : ∀ m ∈ ms, f m = m.call?.bind g) :
    ms.findSomeRev? f = (calls ms).findSomeRev? g := by
  induction ms with
  | nil => rfl
  | cons m rest ih =>
    obtain ⟨hm, hrest⟩ := List.forall_mem_cons.mp h
    rw [List.findSomeRev?, ih hrest, hm]
    cases m with
    | made call now => rfl
    | delivered property payload now =>
      rw [calls_delivered]
      cases (calls rest).findSomeRev? g <;> rfl

/-! ## Whose moments they are -/

/-- A record of a cycle is of what has been found, and follows the reading that it reports. -/
theorem finds_of_recorded {call : Call effects} {now : Timestamp} {desired reported : String}
    (hc : Controller.Course plan (calls ms) next) (hs : ms = before ++ .made call now :: after)
    (hr : call.1.record? = some (name, desired, reported)) :
    ∃ q, plan.Finds (calls before) q ∧ IsPolled q ∧ q.name = name ∧
      plan.lastReading name (calls before) = some reported := by
  obtain ⟨rest, chronicle, -⟩ := hc.chronicle
  have split : calls ms ++ rest = calls before ++ call :: (calls after ++ rest) := by
    rw [hs, calls_append, calls_made, List.append_assoc, List.cons_append]
  obtain ⟨q, hf, hq, hname⟩ := (chronicle.licenses split).record hr
  exact ⟨q, hf, hq, hname, chronicle.lastReading_eq split hr⟩

/-- A payload is delivered for what has been found. -/
theorem finds_of_delivered {payload : Bytes} {now : Timestamp}
    (hc : Controller.Course plan (calls ms) next) (hh : IsHeard ms next)
    (hs : ms = before ++ .delivered name payload now :: after) :
    ∃ q, plan.Finds (calls before) q ∧ q.access = .notifyOnly ∧ q.name = name := by
  obtain ⟨rest, chronicle, hnext⟩ := hc.chronicle
  have split : calls ms ++ rest = calls before ++ (calls after ++ rest) := by
    rw [hs, calls_append, calls_delivered, List.append_assoc]
  obtain ⟨op, hop, hl⟩ := hh before after name payload now hs
  rcases List.mem_append.mp hop with earlier | waiting
  · obtain ⟨call, hcall, rfl⟩ := List.mem_map.mp earlier
    obtain ⟨first, more, hbefore⟩ := List.append_of_mem hcall
    rw [hbefore, List.append_assoc, List.cons_append] at split
    obtain ⟨q, hf, hq⟩ := (chronicle.licenses split).listener hl
    refine ⟨q, hf.mono ?_, hq⟩
    rw [hbefore]
    exact List.subset_append_left _ _
  · have hp : (calls after ++ rest).head?.map (·.1) = some op := by
      rw [Option.mem_toList] at waiting
      cases hafter : calls after with
      | nil => rwa [hafter, pending, ← hnext] at waiting
      | cons call more => rwa [hafter, pending] at waiting
    obtain ⟨call, hcall, rfl⟩ := Option.map_eq_some_iff.mp hp
    obtain ⟨more, hmore⟩ := List.head?_eq_some_iff.mp hcall
    rw [hmore] at split
    exact (chronicle.licenses split).listener hl

/-- Only what has been found is updated. -/
theorem finds_of_mem_updates {u : Entry} (hc : Controller.Course plan (calls ms) next)
    (hh : IsHeard ms next) (hu : u ∈ updates ms) :
    ∃ q, plan.Finds (calls ms) q ∧ IsReported q ∧ q.name = u.name := by
  obtain ⟨m, hm, hu⟩ := List.mem_filterMap.mp hu
  obtain ⟨before, after, hs⟩ := List.append_of_mem hm
  have earlier : calls before ⊆ calls ms := by
    rw [hs, calls_append]
    exact List.subset_append_left _ _
  cases m with
  | made call now =>
    obtain ⟨⟨name, desired, reported⟩, hr, rfl⟩ := Option.map_eq_some_iff.mp hu
    obtain ⟨q, hf, hp, hname, -⟩ := finds_of_recorded hc hs hr
    exact ⟨q, hf.mono earlier, .inl hp, hname⟩
  | delivered property payload now =>
    obtain rfl := Option.some.inj hu
    obtain ⟨q, hf, ha, hname⟩ := finds_of_delivered hc hh hs
    exact ⟨q, hf.mono earlier, .inr ha, hname⟩

/-! ## What is observed and what is reported -/

/-- A property that is notified is updated by payloads only, and each one is observed. -/
theorem texts_eq_of_notified (hc : Controller.Course plan (calls ms) next)
    (hd : (plan.spec.properties.map (·.name)).Nodup) (hq : q ∈ plan.spec.properties)
    (ha : q.access = .notifyOnly) :
    ∀ m ∈ ms, about q.name m.texts? =
      (about q.name (m.observation? plan)).map fun text => (desired q, text) := by
  have other {r : Property} (hf : r ∈ plan.spec.properties) (hr : IsPolled r) :
      r.name ≠ q.name := by
    intro same
    obtain rfl := Plan.eq_of_name_eq hd hf hq same
    simp [IsPolled, ha] at hr
  intro m hm
  cases m with
  | delivered property payload now =>
    by_cases same : property = q.name
    · subst same
      simp [Moment.observation?, desired, ha]
    · simp [Moment.observation?, about_some_of_ne same]
  | made call now =>
    obtain ⟨before, after, hs⟩ := List.append_of_mem hm
    have unrecorded : about q.name (Moment.made call now).texts? = none := by
      rw [texts?_made]
      cases hr : call.1.record? with
      | none => rfl
      | some texts =>
        obtain ⟨r, hf, hp, hname, -⟩ := finds_of_recorded hc hs hr
        exact about_some_of_ne (hname ▸ other hf.mem hp)
    have unread : about q.name ((Moment.made call now).observation? plan) = none := by
      rw [Moment.observation?]
      cases hr : plan.reading? call with
      | none => rfl
      | some reading =>
        obtain ⟨rest, chronicle, -⟩ := hc.chronicle
        have split : calls ms ++ rest = calls before ++ call :: (calls after ++ rest) := by
          rw [hs, calls_append, calls_made, List.append_assoc, List.cons_append]
        obtain ⟨r, hf, hp, hname⟩ := (chronicle.licenses split).reading hr
        exact about_some_of_ne (hname ▸ other hf.mem hp)
    rw [unrecorded, unread]
    rfl

/-- A property that is read is updated by the calls only, and observed in them only. -/
theorem about_eq_of_polled (hc : Controller.Course plan (calls ms) next) (hh : IsHeard ms next)
    (hd : (plan.spec.properties.map (·.name)).Nodup) (hq : q ∈ plan.spec.properties)
    (hp : IsPolled q) :
    ∀ m ∈ ms, about q.name m.texts? = m.call?.bind (fun call => about q.name call.1.record?) ∧
      about q.name (m.observation? plan) =
        m.call?.bind fun call => about q.name (plan.reading? call) := by
  intro m hm
  cases m with
  | made call now =>
    exact ⟨congrArg (about q.name) texts?_made, rfl⟩
  | delivered property payload now =>
    obtain ⟨before, after, hs⟩ := List.append_of_mem hm
    obtain ⟨r, hf, ha, rfl⟩ := finds_of_delivered hc hh hs
    have other : r.name ≠ q.name := by
      intro same
      obtain rfl := Plan.eq_of_name_eq hd hf.mem hq same
      simp [IsPolled, ha] at hp
    exact ⟨about_some_of_ne other, about_some_of_ne other⟩

/-- Where a cycle is not about to record, the last update of a property is the one by what was
observed last of it. -/
theorem lastUpdate_eq (hc : Controller.Course plan (calls ms) next) (hh : IsHeard ms next)
    (hd : (plan.spec.properties.map (·.name)).Nodup) (hn : ∀ op ∈ next, op.record? = none)
    (hq : q ∈ plan.spec.properties) (hr : IsReported q) :
    ((updates ms).findRev? fun u => u.name == q.name).map (fun u => (u.desired, u.reported)) =
      (lastObserved plan q.name ms).map fun text => (desired q, text) := by
  rw [texts_findRev?_updates]
  rcases hr with hp | ha
  · have only := about_eq_of_polled hc hh hd hq hp
    have records : ms.findSomeRev? (fun m => about q.name m.texts?) =
        Plan.lastRecord q.name (calls ms) := findSomeRev?_calls fun m hm => (only m hm).1
    have readings : lastObserved plan q.name ms = plan.lastReading q.name (calls ms) :=
      findSomeRev?_calls fun m hm => (only m hm).2
    obtain ⟨rest, chronicle, hnext⟩ := hc.chronicle
    have whole : plan.Chronicle (calls ms) := by
      refine chronicle.of_append fun call hcall => hn call.1 ?_
      rw [← hnext]
      exact Option.mem_map_of_mem _ hcall
    rw [records, readings, whole.lastRecord_eq hd hq]
  · exact findSomeRev?_eq_map (texts_eq_of_notified hc hd hq ha)

/-- However the deliveries of payloads fall between the calls of a cycle, and however far the cycle
has come, also if it is then given up: of what its status was seeded with, only entries of
properties that were found and that are read or notified have changed, and each of these has the
value observed last. -/
theorem status_reports (plan : Plan) (seed : Snapshot) {ms : List Moment} {next : Option Effect}
    (hc : Controller.Course plan (calls ms) next) (hh : IsHeard ms next) :
    Reports plan seed ms next where
  names := Snapshot.names_updated seed (updates ms)
  kept := Snapshot.getElem?_updated
  touched := finds_of_mem_updates hc hh
  recorded := finds_of_recorded hc
  delivered := finds_of_delivered hc hh
  observed hd hn q hf hq := by
    have last := lastUpdate_eq hc hh hd hn hf.mem hq
    cases ho : lastObserved plan q.name ms with
    | none =>
      rw [ho, Option.map_none, Option.map_eq_none_iff, List.findRev?_eq_find?_reverse,
        List.find?_eq_none] at last
      simpa using last
    | some text =>
      rw [ho, Option.map_some] at last
      obtain ⟨u, hu, htexts⟩ := Option.map_eq_some_iff.mp last
      obtain ⟨hdesired, hreported⟩ := Prod.mk.inj htexts
      refine ⟨u, ?_, ?_, hdesired, hreported⟩
      · rw [List.findRev?_eq_find?_reverse] at hu
        exact List.mem_reverse.mp (List.mem_of_find?_eq_some hu)
      · rw [Snapshot.get?_updated, hu]
        rfl

/-- A plan that listens to one characteristic. -/
def Plan.alarm : Plan :=
  { Plan.bare with spec := { properties := [.on "alarm" .notifyOnly ⟨0xfff4⟩] } }

/-- A service, and the characteristic in it that can notify. -/
def alarmService : Service := ⟨⟨0xfff0⟩, true⟩

def alarmCharacteristic : Characteristic := ⟨⟨0xfff4⟩, ⟨0xfff0⟩, Characteristic.notifyBit⟩

/-- A payload is delivered before the subscription to it has been answered. -/
def alarmMoments : List Moment :=
  let now : Timestamp := default
  [.made (asked (.scan []) (.ok ())) now, .made (asked .stopScanning (.ok ())) now,
    .made (asked (.connect nameless) (.ok ())) now,
    .made (asked (.setMtu nameless 500) (.ok ())) now,
    .made (asked (.discoverServices nameless) (.ok [alarmService])) now,
    .made (asked (.discoverCharacteristics nameless alarmService) (.ok [alarmCharacteristic])) now,
    .made (asked (.discoverDescriptors nameless alarmCharacteristic) (.ok [])) now,
    .delivered "alarm" [0x2a] now,
    .made (asked (.subscribe nameless alarmCharacteristic "alarm") (.ok ())) now]

/-- While the connection is held, what was delivered is reported, behind the entry that was
there. -/
theorem status_reports_alarm :
    let seed : Snapshot := ⟨[⟨"level", "", "1.000000", default⟩]⟩
    Controller.Course Plan.alarm (calls alarmMoments) (some (.hold .zero)) ∧
      IsHeard alarmMoments (some (.hold .zero)) ∧
      Reports Plan.alarm seed alarmMoments (some (.hold .zero)) ∧
      (seed.updated (updates alarmMoments)).entries =
        [⟨"level", "", "1.000000", default⟩, ⟨"alarm", "", "\"*\"", default⟩] := by
  intro seed
  have course : Controller.Course Plan.alarm (calls alarmMoments) (some (.hold .zero)) := by
    have search : Controller.Step Plan.alarm {} (.adapterState .poweredOn)
        [asked (.scan []) (.ok ())] { connection := .scanning } := .searched (.inl rfl) (.ok ())
    have select : Controller.Step Plan.alarm { connection := .scanning }
        (.discovered nameless {} none)
        [asked .stopScanning (.ok ()), asked (.connect nameless) (.ok ())]
        { connection := .connecting, target := some nameless } := .selected rfl (.ok ())
    have walk : (Controller.handle Plan.alarm
        { connection := .connecting, target := some nameless } (.connected nameless none)).Breaks
        ([asked (.setMtu nameless 500) (.ok ()),
          asked (.discoverServices nameless) (.ok [alarmService]),
          asked (.discoverCharacteristics nameless alarmService) (.ok [alarmCharacteristic]),
          asked (.discoverDescriptors nameless alarmCharacteristic) (.ok []),
          asked (.subscribe nameless alarmCharacteristic "alarm") (.ok ())] ++
          [⟨.hold .zero, none⟩]) :=
      .ask _ (.ask _ (.ask _ (.ask _ (.ask _ (.pending _ _)))))
    exact .waiting ((Controller.History.nil.snoc search.runs_handle).snoc select.runs_handle) walk
  have heard : IsHeard alarmMoments (some (.hold .zero)) := by
    intro before after property payload now hs
    simp only [alarmMoments, List.cons_eq_append_iff, List.cons.injEq, reduceCtorEq, false_and,
      and_false, Moment.delivered.injEq, List.nil_eq, List.append_eq_nil_iff, exists_const, or_self,
      or_false, existsAndEq, true_and, false_or] at hs
    obtain ⟨rfl, ⟨rfl, -, -⟩, rfl⟩ := hs
    refine ⟨.session (.subscribe nameless alarmCharacteristic "alarm"), ?_, rfl⟩
    exact List.mem_append_right _ (List.mem_singleton_self _)
  exact ⟨course, heard, status_reports Plan.alarm _ course heard, rfl⟩

end GattSync.Cycle
