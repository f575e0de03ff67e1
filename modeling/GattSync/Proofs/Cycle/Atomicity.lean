import GattSync.Proofs.Cycle.Reports
import GattSync.Proofs.Cycle.Requests

/-!
# Accesses are all or nothing

An access waits only for answers of its session, and it can be given up while it does (`Goes`). What
it records, it records when it has its last answer, all at once as far as any wait is concerned. So
a write has either left the status as it was or put the value that was read back into it, and it is
the latter exactly when the write succeeds (`write_all_or_nothing`): the entry without a label that
reading back makes on the way is never left behind.
-/

namespace GattSync.Cycle

open Program Status

/-- How an access can go: it makes these calls and is done with a result, or it is given up in the
last of them, while it waits for the session. -/
inductive Goes {α : Type} (program : Prog α) : List (Call effects) → Option α → Prop
  | done {calls : List (Call effects)} {a : α} (h : program.Runs calls a) :
    Goes program calls (some a)
  | givenUp {calls : List (Call effects)} {r : Session.Request String}
      (h : program.Breaks (calls ++ [⟨.session r, none⟩])) :
    Goes program (calls ++ [⟨.session r, none⟩]) none

/-- The status after calls, each of them made at its moment. -/
def statusAfter (seed : Snapshot) (made : List (Call effects × Timestamp)) : Snapshot :=
  seed.updated (updates (made.map fun (call, now) => .made call now))

theorem statusAfter_cons_of_none {seed : Snapshot} {call : Call effects} {now : Timestamp}
    {made : List (Call effects × Timestamp)} (h : call.1.record? = none) :
    statusAfter seed ((call, now) :: made) = statusAfter seed made := by
  have silent : (Moment.made call now).update? = none := by simp [Moment.update?, h]
  simp only [statusAfter, updates, List.map_cons, List.filterMap_cons, silent]

/-- What makes no records leaves the status as it is. -/
theorem statusAfter_of_forall {seed : Snapshot} {made : List (Call effects × Timestamp)}
    (h : ∀ call ∈ made.map (·.1), call.1.record? = none) : statusAfter seed made = seed := by
  induction made with
  | nil => rfl
  | cons first rest ih =>
    rw [List.map_cons, List.forall_mem_cons] at h
    rw [statusAfter_cons_of_none h.1]
    exact ih h.2

/-- After two calls that record nothing, two records are what the status is updated by. -/
theorem exists_statusAfter_eq (seed : Snapshot) {first second : Call effects}
    {name label other text : String} {made : List (Call effects × Timestamp)}
    (hf : first.1.record? = none) (hs : second.1.record? = none)
    (h : made.map (·.1) = [first, second, recorded name label text, recorded name other text]) :
    ∃ earlier now, statusAfter seed made =
      seed.updated ([⟨name, label, text, earlier⟩] ++ [⟨name, other, text, now⟩]) := by
  simp only [List.map_eq_cons_iff, List.map_eq_nil_iff] at h
  obtain ⟨_, _, rfl, rfl, _, _, rfl, rfl, ⟨_, t₁⟩, _, rfl, rfl, ⟨_, t₂⟩, _, rfl, rfl, rfl⟩ := h
  refine ⟨t₁, t₂, ?_⟩
  rw [statusAfter_cons_of_none hf, statusAfter_cons_of_none hs]
  rfl

namespace Access

variable {convert : Converter} {p : Peripheral} {c : Characteristic} {property : Property}
  {calls : List (Call effects)} {made : List (Call effects × Timestamp)} {seed : Snapshot}

/-! ## Where an access can be given up -/

/-- The only thing that a read asks the session for. -/
theorem Reads.request_eq {before rest : List (Call effects)} {r : Session.Request String}
    {x : r.Answer} {result : Except Error String}
    (h : Reads convert p c property (before ++ ⟨.session r, some x⟩ :: rest) result) :
    before = [] ∧ r = .read p c := by
  generalize hs : before ++ ⟨.session r, some x⟩ :: rest = all at h
  cases before with
  | nil =>
    cases h with
    | _ =>
      cases hs
      exact ⟨rfl, rfl⟩
  | cons first more =>
    have later : (⟨.session r, some x⟩ : Call effects) ∈ all.tail := by
      rw [← hs]
      simp
    cases h with
    | reported hc => cases List.mem_singleton.mp later
    | _ => cases later

/-- A write asks the session to write and then to read, and it makes no record before that. -/
theorem Writes.request_eq {before rest : List (Call effects)} {r : Session.Request String}
    {x : r.Answer} {result : Except Error Unit}
    (h : Writes convert p c property (before ++ ⟨.session r, some x⟩ :: rest) result) :
    ∃ payload, property.defaultPayload = .ok payload ∧
      (before = [] ∧ r = .write p c payload true ∨
        before = [asked (.write p c payload true) (.ok ())] ∧ r = .read p c) := by
  generalize hs : before ++ ⟨.session r, some x⟩ :: rest = all at h
  cases h with
  | unprepared => cases before <;> cases hs
  | unwritten hp fault =>
    cases before with
    | nil =>
      cases hs
      exact ⟨_, hp, .inl ⟨rfl, rfl⟩⟩
    | cons first more => cases more <;> cases (List.cons.inj hs).2
  | unverified hp hr =>
    cases before with
    | nil =>
      cases hs
      exact ⟨_, hp, .inl ⟨rfl, rfl⟩⟩
    | cons first more =>
      obtain ⟨rfl, rfl⟩ := List.cons.inj hs
      obtain ⟨rfl, hread⟩ := hr.request_eq
      exact ⟨_, hp, .inr ⟨rfl, hread⟩⟩
  | @verified payload reading reported hp hr =>
    cases before with
    | nil =>
      cases hs
      exact ⟨_, hp, .inl ⟨rfl, rfl⟩⟩
    | cons first more =>
      obtain ⟨rfl, tail⟩ := List.cons.inj hs
      rcases append_eq_append_cons_iff.mp tail.symm with ⟨behind, rfl, -⟩ | ⟨behind, -, hrec⟩
      · obtain ⟨rfl, hread⟩ := hr.request_eq
        exact ⟨_, hp, .inr ⟨rfl, hread⟩⟩
      · cases behind with
        | nil => cases hrec
        | cons _ behind => cases behind <;> cases (List.cons.inj hrec).2

/-- A read that is given up has been waiting for what it asked for. -/
theorem eq_of_breaks_read {r : Session.Request String}
    (h : (read convert p c property).Breaks (calls ++ [⟨.session r, none⟩])) :
    calls = [] ∧ r = .read p c := by
  obtain ⟨x, rest, result, hr⟩ := h.exists_runs refusing
  exact (runs_read_iff.mp hr).request_eq

/-- A write that is given up has been waiting for the one or the other of its requests. -/
theorem eq_of_breaks_write {r : Session.Request String}
    (h : (write convert p c property).Breaks (calls ++ [⟨.session r, none⟩])) :
    ∃ payload, property.defaultPayload = .ok payload ∧
      (calls = [] ∧ r = .write p c payload true ∨
        calls = [asked (.write p c payload true) (.ok ())] ∧ r = .read p c) := by
  obtain ⟨x, rest, result, hr⟩ := h.exists_runs refusing
  exact (runs_write_iff.mp hr).request_eq

/-! ## What an access leaves behind -/

/-- A read without a result has recorded nothing. -/
theorem Reads.record?_eq_none {fault : Error}
    (h : Reads convert p c property calls (.error fault)) :
    ∀ call ∈ calls, call.1.record? = none := by
  cases h with
  | _ => exact List.forall_mem_singleton.mpr rfl

/-- The payload to write is the one under the default label. -/
theorem get?_of_defaultPayload {payload : Bytes} (h : property.defaultPayload = .ok payload) :
    property.visitor.writes.get? property.visitor.defaultValue = some payload := by
  unfold Property.defaultPayload at h
  split at h
  · cases h
  · split at h
    · next found =>
      cases h
      exact found
    · cases h

/-- A write is all or nothing, given the calls that it makes, its result unless it is given up, and
the status before and after it. -/
structure AllOrNothing (convert : Converter) (p : Peripheral) (c : Characteristic)
    (property : Property) (calls : List (Call effects)) (result : Option (Except Error Unit))
    (before after : Snapshot) : Prop where
  /-- A write that fails or is given up leaves the status exactly as it was. -/
  nothing (h : result ≠ some (.ok ())) : after = before
  /-- A write that succeeds puts in what has been read back behind it, under the label written. -/
  all (h : result = some (.ok ())) : ∃ payload octets reading rest now,
    calls = asked (.write p c payload true) (.ok ()) :: asked (.read p c) (.ok octets) :: rest ∧
      convert property.visitor.layout octets = .ok reading ∧
      before.Replaces ⟨property.name, property.visitor.defaultValue, formatReading reading, now⟩
        after
  /-- Without a payload to write, the session is left alone. -/
  unprepared {fault : Error} (h : property.defaultPayload = .error fault) :
    requests calls = [] ∧ result = some (.error fault)
  /-- The payload is the one of the table. It is written once and acknowledged. -/
  prepared {payload : Bytes} (h : property.defaultPayload = .ok payload) :
    property.visitor.writes.get? property.visitor.defaultValue = some payload ∧
      ∃ more, requests calls = .write p c payload true :: more ∧
        /- The characteristic is read back once if the write has succeeded, and else not at all. -/
        (asked (.write p c payload true) (.ok ()) ∈ calls → more = [.read p c]) ∧
        (asked (.write p c payload true) (.ok ()) ∉ calls → more = [])

/-- A payload is there, and nothing is recorded: only the requests are to be looked at. -/
theorem allOrNothing_of_prepared {payload : Bytes} {result : Option (Except Error Unit)}
    (more : List (Session.Request String)) (hp : property.defaultPayload = .ok payload)
    (hr : result ≠ some (.ok ())) (hn : ∀ call ∈ made.map (·.1), call.1.record? = none)
    (hm : requests (made.map (·.1)) = .write p c payload true :: more)
    (hback : asked (.write p c payload true) (.ok ()) ∈ made.map (·.1) → more = [.read p c])
    (halone : asked (.write p c payload true) (.ok ()) ∉ made.map (·.1) → more = []) :
    AllOrNothing convert p c property (made.map (·.1)) result seed (statusAfter seed made) where
  nothing _ := statusAfter_of_forall hn
  all h := absurd h hr
  unprepared h := by cases hp.symm.trans h
  prepared h := by
    obtain rfl := Except.ok.inj (hp.symm.trans h)
    exact ⟨get?_of_defaultPayload h, more, hm, hback, halone⟩

/-- The payload has not been written, or not been seen to be. -/
theorem allOrNothing_of_unwritten {payload : Bytes} (answer : Option (Except Error Unit))
    {result : Option (Except Error Unit)} (hp : property.defaultPayload = .ok payload)
    (ha : answer ≠ some (.ok ())) (hr : result ≠ some (.ok ()))
    (hs : made.map (·.1) = [⟨.session (.write p c payload true), answer⟩]) :
    AllOrNothing convert p c property (made.map (·.1)) result seed (statusAfter seed made) := by
  refine allOrNothing_of_prepared [] hp hr ?_ ?_ ?_ fun _ => rfl
  · rw [hs]
    exact List.forall_mem_singleton.mpr rfl
  · rw [hs]
    rfl
  · rw [hs]
    intro written
    cases List.mem_singleton.mp written
    exact absurd rfl ha

/-- The payload has been written, and no reading has come of it. -/
theorem allOrNothing_of_unverified {payload : Bytes} {answer : Option (Except Error Bytes)}
    {result : Option (Except Error Unit)} (hp : property.defaultPayload = .ok payload)
    (hr : result ≠ some (.ok ()))
    (hs : made.map (·.1) =
      [asked (.write p c payload true) (.ok ()), ⟨.session (.read p c), answer⟩]) :
    AllOrNothing convert p c property (made.map (·.1)) result seed (statusAfter seed made) := by
  refine allOrNothing_of_prepared [.read p c] hp hr ?_ ?_ (fun _ => rfl) ?_
  · rw [hs]
    exact List.forall_mem_cons.mpr ⟨rfl, List.forall_mem_singleton.mpr rfl⟩
  · rw [hs]
    rfl
  · rw [hs]
    intro unwritten
    exact absurd List.mem_cons_self unwritten

/-- Both records are of the one property, so the second one is what is left of them. -/
theorem allOrNothing_of_verified {payload octets : Bytes} {reading : Float}
    (hp : property.defaultPayload = .ok payload)
    (hc : convert property.visitor.layout octets = .ok reading)
    (hs : made.map (·.1) =
      [asked (.write p c payload true) (.ok ()), asked (.read p c) (.ok octets),
        recorded property.name "" (formatReading reading),
        recorded property.name property.visitor.defaultValue (formatReading reading)]) :
    AllOrNothing convert p c property (made.map (·.1)) (some (.ok ())) seed
      (statusAfter seed made) := by
  obtain ⟨earlier, now, after⟩ := exists_statusAfter_eq seed rfl rfl hs
  refine ⟨fun h => absurd rfl h, fun _ => ?_, fun h => ?_, fun h => ?_⟩
  · refine ⟨payload, octets, reading, _, now, hs, hc, ?_⟩
    rw [after]
    exact Snapshot.replaces_updated (List.forall_mem_singleton.mpr rfl)
  · cases hp.symm.trans h
  · obtain rfl := Except.ok.inj (hp.symm.trans h)
    rw [hs]
    exact ⟨get?_of_defaultPayload h, _, rfl, fun _ => rfl,
      fun unwritten => absurd List.mem_cons_self unwritten⟩

/-- A write that is done is all or nothing. -/
theorem Writes.allOrNothing {x : Except Error Unit}
    (h : Writes convert p c property (made.map (·.1)) x) :
    AllOrNothing convert p c property (made.map (·.1)) (some x) seed (statusAfter seed made) := by
  generalize hs : made.map (·.1) = calls at h
  cases h with
  | unprepared hp =>
    obtain rfl := List.map_eq_nil_iff.mp hs
    refine ⟨fun _ => rfl, nofun, fun h => ⟨rfl, ?_⟩, fun h => ?_⟩
    · rw [Except.error.inj (hp.symm.trans h)]
    · cases hp.symm.trans h
  | unwritten hp fault =>
    rw [← hs]
    exact allOrNothing_of_unwritten (some (.error fault)) hp nofun nofun hs
  | unverified hp hr =>
    rw [← hs]
    cases hr with
    | unread => exact allOrNothing_of_unverified hp nofun hs
    | unconverted hc => exact allOrNothing_of_unverified hp nofun hs
  | verified hp hr =>
    cases hr with
    | reported hc =>
      rw [← hs]
      exact allOrNothing_of_verified hp hc hs

/-- So is a write that is given up. -/
theorem allOrNothing_of_breaks {r : Session.Request String}
    (h : (write convert p c property).Breaks (calls ++ [⟨.session r, none⟩]))
    (hs : made.map (·.1) = calls ++ [⟨.session r, none⟩]) :
    AllOrNothing convert p c property (made.map (·.1)) none seed (statusAfter seed made) := by
  obtain ⟨payload, hp, ⟨rfl, rfl⟩ | ⟨rfl, rfl⟩⟩ := eq_of_breaks_write h
  · exact allOrNothing_of_unwritten none hp nofun nofun hs
  · exact allOrNothing_of_unverified hp nofun hs

/-- Whatever the session and the converter answer, and wherever it is given up, a write leaves the
status as it was, or it has put in the value that was read back and succeeds. A read that fails or
is given up leaves the status as it was, too. -/
theorem write_all_or_nothing (convert : Converter) (p : Peripheral) (c : Characteristic)
    (property : Property) (seed : Snapshot) (made : List (Call effects × Timestamp)) :
    (∀ result, Goes (write convert p c property) (made.map (·.1)) result →
      AllOrNothing convert p c property (made.map (·.1)) result seed (statusAfter seed made)) ∧
    ∀ result, Goes (read convert p c property) (made.map (·.1)) result →
      (∀ text, result ≠ some (.ok text)) → statusAfter seed made = seed := by
  constructor
  · intro result h
    generalize hs : made.map (·.1) = calls at h
    cases h with
    | done h =>
      subst hs
      exact (runs_write_iff.mp h).allOrNothing
    | givenUp h =>
      rw [← hs]
      exact allOrNothing_of_breaks h hs
  · intro result h failed
    apply statusAfter_of_forall
    generalize made.map (·.1) = calls at h
    cases h with
    | @done _ x h =>
      cases x with
      | ok text => exact absurd rfl (failed text)
      | error fault => exact (runs_read_iff.mp h).record?_eq_none
    | givenUp h =>
      obtain ⟨rfl, rfl⟩ := eq_of_breaks_read h
      exact List.forall_mem_singleton.mpr rfl

/-- A property that is switched on and then read back. -/
def switch : Property :=
  (((Property.on "switch" .readWrite ⟨0xfff1⟩).withWrite "on" [1]).withWrite "off" [0]).withDefault
    "on"

/-- A characteristic that can be read and written. -/
def switchCharacteristic : Characteristic := ⟨⟨0xfff1⟩, ⟨0xfff0⟩, 10⟩

/-- The peripheral has been written a 1 and holds a 7. -/
def switched (now : Timestamp) : List (Call effects × Timestamp) :=
  [(asked (.write nameless switchCharacteristic [1] true) (.ok ()), now),
    (asked (.read nameless switchCharacteristic) (.ok [7]), now),
    (recorded "switch" "" "7.000000", now), (recorded "switch" "on" "7.000000", now)]

/-- The entry that was there is replaced where it is by what was read back. -/
theorem write_all_or_nothing_switch :
    let seed : Snapshot := ⟨[⟨"switch", "off", "0.000000", default⟩, ⟨"level", "", "1", default⟩]⟩
    let calls := (switched ⟨1, 0⟩).map (·.1)
    Goes (write Layout.convert nameless switchCharacteristic switch) calls (some (.ok ())) ∧
      AllOrNothing Layout.convert nameless switchCharacteristic switch calls (some (.ok ())) seed
        (statusAfter seed (switched ⟨1, 0⟩)) ∧
      (statusAfter seed (switched ⟨1, 0⟩)).entries =
        [⟨"switch", "on", "7.000000", ⟨1, 0⟩⟩, ⟨"level", "", "1", default⟩] := by
  intro seed calls
  have reads : Reads Layout.convert nameless switchCharacteristic switch
      [asked (.read nameless switchCharacteristic) (.ok [7]), recorded "switch" "" "7.000000"]
      (.ok "7.000000") := by
    have shown : formatReading 7.0 = "7.000000" := by decide +kernel
    have converted : switch.visitor.layout.convert [7] = .ok 7.0 := by decide +kernel
    exact shown ▸ .reported converted
  have goes : Goes (write Layout.convert nameless switchCharacteristic switch) calls
      (some (.ok ())) := .done (runs_write_iff.mpr (.verified rfl reads))
  exact ⟨goes, (write_all_or_nothing _ _ _ _ seed (switched ⟨1, 0⟩)).1 _ goes, by decide +kernel⟩

end Access
end GattSync.Cycle
