import GattSync.Proofs.Cycle.Accesses
import GattSync.Proofs.Cycle.Turn
import Mathlib.Data.List.Nodup

/-!
# The chronicle of a cycle

A cycle is at any moment between two turns of its controller, or in one and waiting for an answer
(`Course`). What it has done up to then is a chronicle: call after call, with the values that are
recorded on a call right behind it (`Plan.Passage`). Only the values of a reading are recorded, and
nothing is read, recorded or listened to but for a property whose characteristic has been found
before (`Plan.Licenses`).

So wherever a cycle is about to do anything but record, the value recorded last for a property is
the one read last for it (`Plan.Chronicle.lastRecord_eq`).
-/

namespace GattSync.Cycle

open Program

/-! ## What calls are about -/

/-- What is given, if it is for this name. -/
def about {α : Type} (name : String) : Option (String × α) → Option α
  | some (n, a) => if n = name then some a else none
  | none => none

@[simp] theorem about_none {α : Type} {name : String} :
    about name (none : Option (String × α)) = none := rfl

@[simp] theorem about_some_self {α : Type} {name : String} {a : α} :
    about name (some (name, a)) = some a := if_pos rfl

theorem about_some_of_ne {α : Type} {name other : String} {a : α} (h : other ≠ name) :
    about name (some (other, a)) = none := if_neg h

/-- The property of which an operation records a value, with its texts. -/
def Effect.record? : Effect → Option (String × String × String)
  | .record property desired reported => some (property, desired, reported)
  | _ => none

/-- The property for which an operation has a listener registered. -/
def Effect.listener? : Effect → Option String
  | .session (.subscribe _ _ property) => some property
  | _ => none

/-- The property of which a call has obtained a reading, with its text. -/
def Plan.reading? (plan : Plan) : Call effects → Option (String × String)
  | ⟨.session (.read _ c), some (.ok payload)⟩ => do
    let property ← plan.spec.property? c.uuid
    let reading ← (plan.convert property.visitor.layout payload).toOption
    return (property.name, formatReading reading)
  | _ => none

@[simp] theorem record?_recorded {property desired reported : String} :
    (recorded property desired reported).1.record? = some (property, desired, reported) := rfl

@[simp] theorem reading?_recorded {plan : Plan} {property desired reported : String} :
    plan.reading? (recorded property desired reported) = none := rfl

@[simp] theorem record?_asked {r : Session.Request String} {x : r.Answer} :
    (asked r x).1.record? = none := rfl

/-- The property's characteristic is read. -/
def IsPolled (property : Property) : Prop :=
  property.access = .readOnly ∨ property.access = .readWrite

/-- The label that goes with the reported values of a property. -/
def desired (property : Property) : String :=
  if property.access = .readWrite then property.visitor.defaultValue else ""

namespace Plan

/-- A characteristic has been found that has this property. -/
def Finds (plan : Plan) (calls : List (Call effects)) (property : Property) : Prop :=
  ∃ p s found, asked (.discoverCharacteristics p s) (.ok found) ∈ calls ∧
    ∃ c ∈ found, plan.spec.property? c.uuid = some property

variable {plan : Plan} {p : Peripheral} {past calls rest : List (Call effects)} {q : Property}
  {goesOn : Bool}

theorem Finds.mono (h : plan.Finds past q) (more : past ⊆ calls) : plan.Finds calls q := by
  obtain ⟨p, s, found, hm, hc⟩ := h
  exact ⟨p, s, found, more hm, hc⟩

theorem Finds.mem (h : plan.Finds past q) : q ∈ plan.spec.properties := by
  obtain ⟨_, _, _, _, _, _, hc⟩ := h
  exact List.mem_of_find?_eq_some hc

/-- After these calls, a call is only for a property whose characteristic has been found, and whose
mode asks for it. -/
structure Licenses (plan : Plan) (past : List (Call effects)) (call : Call effects) : Prop where
  record {name desired reported : String} (h : call.1.record? = some (name, desired, reported)) :
    ∃ q, plan.Finds past q ∧ IsPolled q ∧ q.name = name
  reading {name text : String} (h : plan.reading? call = some (name, text)) :
    ∃ q, plan.Finds past q ∧ IsPolled q ∧ q.name = name
  listener {name : String} (h : call.1.listener? = some name) :
    ∃ q, plan.Finds past q ∧ q.access = .notifyOnly ∧ q.name = name

theorem Licenses.mono {call : Call effects} (h : plan.Licenses past call) (more : past ⊆ calls) :
    plan.Licenses calls call where
  record hr := by
    obtain ⟨q, hf, hq⟩ := h.record hr
    exact ⟨q, hf.mono more, hq⟩
  reading hr := by
    obtain ⟨q, hf, hq⟩ := h.reading hr
    exact ⟨q, hf.mono more, hq⟩
  listener hl := by
    obtain ⟨q, hf, hq⟩ := h.listener hl
    exact ⟨q, hf.mono more, hq⟩

/-! ## Passages and chronicles -/

/-- What a cycle can do next after these calls: one call, and the values that are recorded on it. -/
inductive Passage (plan : Plan) (past : List (Call effects)) : List (Call effects) → Prop
  /-- Nothing is read, recorded or listened to. -/
  | other {call : Call effects} (hr : call.1.record? = none) (hl : call.1.listener? = none)
      (hn : plan.reading? call = none) : Passage plan past [call]
  | subscription {p : Peripheral} {c : Characteristic} {q : Property} (hf : plan.Finds past q)
      (ha : q.access = .notifyOnly) (x : Except Error Unit) :
    Passage plan past [asked (.subscribe p c q.name) x]
  | reading {p : Peripheral} {c : Characteristic} {q : Property} {payload : Bytes}
      {text : String} (hf : plan.Finds past q) (ha : q.access = .readOnly)
      (hc : plan.reading? (asked (.read p c) (.ok payload)) = some (q.name, text)) :
    Passage plan past [asked (.read p c) (.ok payload), recorded q.name "" text]
  /-- A written value is read back. -/
  | verification {p : Peripheral} {c : Characteristic} {q : Property} {payload : Bytes}
      {text : String} (hf : plan.Finds past q) (ha : q.access = .readWrite)
      (hc : plan.reading? (asked (.read p c) (.ok payload)) = some (q.name, text)) :
    Passage plan past [asked (.read p c) (.ok payload), recorded q.name "" text,
      recorded q.name q.visitor.defaultValue text]

/-- Calls that can be made in the course of a cycle. -/
inductive Chronicle (plan : Plan) : List (Call effects) → Prop
  | nil : Chronicle plan []
  | snoc {past passage : List (Call effects)} (h : Chronicle plan past)
      (hp : plan.Passage past passage) : Chronicle plan (past ++ passage)

/-- Behind the first call of a passage there are only records of what it has read. -/
theorem Passage.shape {passage : List (Call effects)} (h : plan.Passage past passage) :
    ∃ call records, passage = call :: records ∧ call.1.record? = none ∧
      ∀ r ∈ records, ∃ name label text, r = recorded name label text ∧
        plan.reading? call = some (name, text) := by
  cases h with
  | other hr => exact ⟨_, [], rfl, hr, by simp⟩
  | subscription => exact ⟨_, [], rfl, rfl, by simp⟩
  | reading hf ha hc =>
    exact ⟨_, _, rfl, rfl, List.forall_mem_singleton.mpr ⟨_, _, _, rfl, hc⟩⟩
  | verification hf ha hc =>
    exact ⟨_, _, rfl, rfl, List.forall_mem_cons.mpr
      ⟨⟨_, _, _, rfl, hc⟩, List.forall_mem_singleton.mpr ⟨_, _, _, rfl, hc⟩⟩⟩

theorem Passage.licenses {passage : List (Call effects)} (h : plan.Passage past passage) :
    ∀ call ∈ passage, plan.Licenses past call := by
  have record {q : Property} {text label : String} (hf : plan.Finds past q) (hq : IsPolled q) :
      plan.Licenses past (recorded q.name label text) :=
    ⟨fun h => ⟨q, hf, hq, congrArg Prod.fst (Option.some.inj h)⟩, nofun, nofun⟩
  have read {q : Property} {p : Peripheral} {c : Characteristic} {payload : Bytes} {text : String}
      (hf : plan.Finds past q) (hq : IsPolled q)
      (hc : plan.reading? (asked (.read p c) (.ok payload)) = some (q.name, text)) :
      plan.Licenses past (asked (.read p c) (.ok payload)) :=
    ⟨nofun, fun h => ⟨q, hf, hq, congrArg Prod.fst (Option.some.inj (hc.symm.trans h))⟩, nofun⟩
  cases h with
  | other hr hl hn =>
    refine List.forall_mem_singleton.mpr ⟨fun h => ?_, fun h => ?_, fun h => ?_⟩
    · cases hr.symm.trans h
    · cases hn.symm.trans h
    · cases hl.symm.trans h
  | subscription hf ha x =>
    exact List.forall_mem_singleton.mpr
      ⟨nofun, nofun, fun h => ⟨_, hf, ha, Option.some.inj h⟩⟩
  | reading hf ha hc =>
    exact List.forall_mem_cons.mpr ⟨read hf (.inl ha) hc,
      List.forall_mem_singleton.mpr (record hf (.inl ha))⟩
  | verification hf ha hc =>
    exact List.forall_mem_cons.mpr ⟨read hf (.inr ha) hc, List.forall_mem_cons.mpr
      ⟨record hf (.inr ha), List.forall_mem_singleton.mpr (record hf (.inr ha))⟩⟩

/-- Every call of a chronicle is for something that has been found before it. -/
theorem Chronicle.licenses {call : Call effects} (h : plan.Chronicle calls)
    (hs : calls = past ++ call :: rest) : plan.Licenses past call := by
  induction h generalizing rest with
  | nil => exact absurd hs (by simp)
  | @snoc before passage h hp ih =>
    rcases List.append_eq_append_iff.mp hs with ⟨more, rfl, hpass⟩ | ⟨more, rfl, hrest⟩
    · have here : plan.Licenses before call := hp.licenses call (by rw [hpass]; simp)
      exact here.mono (List.subset_append_left _ _)
    · cases more with
      | nil =>
        rw [List.nil_append] at hrest
        rw [List.append_nil] at hp
        exact hp.licenses call (by rw [← hrest]; simp)
      | cons first more =>
        obtain ⟨rfl, -⟩ := List.cons.inj hrest
        exact ih rfl

/-- A chronicle up to anything but a record is a chronicle. -/
theorem Chronicle.of_append (h : plan.Chronicle (past ++ rest))
    (hr : ∀ call ∈ rest.head?, call.1.record? = none) : plan.Chronicle past := by
  generalize hs : past ++ rest = calls at h
  induction h generalizing rest with
  | nil =>
    obtain ⟨rfl, -⟩ := List.append_eq_nil_iff.mp hs
    exact .nil
  | @snoc before passage h hp ih =>
    rcases List.append_eq_append_iff.mp hs with ⟨more, rfl, rfl⟩ | ⟨more, rfl, hpass⟩
    · refine ih ?_ rfl
      intro call hc
      exact hr call (by rw [List.head?_append]; simp [Option.mem_def.mp hc])
    · obtain ⟨call, records, hcons, -, taken⟩ := hp.shape
      cases more with
      | nil => simpa using h
      | cons first more =>
        cases rest with
        | nil =>
          rw [List.append_nil] at hpass
          exact hpass ▸ h.snoc hp
        | cons next rest =>
          have inside : next ∈ records := by
            obtain ⟨-, rfl⟩ := List.cons.inj (hcons.symm.trans hpass)
            simp
          obtain ⟨_, _, _, rfl, -⟩ := taken next inside
          cases hr _ rfl

/-! ## What is read and what is recorded -/

/-- The texts that were recorded last for a property. -/
def lastRecord (name : String) (calls : List (Call effects)) : Option (String × String) :=
  calls.findSomeRev? fun call => about name call.1.record?

/-- The reading that was obtained last for a property. -/
def lastReading (plan : Plan) (name : String) (calls : List (Call effects)) : Option String :=
  calls.findSomeRev? fun call => about name (plan.reading? call)

theorem lastRecord_append (name : String) (calls more : List (Call effects)) :
    lastRecord name (calls ++ more) = (lastRecord name more).or (lastRecord name calls) := by
  simp [lastRecord, List.findSomeRev?_eq_findSome?_reverse, List.findSome?_append]

theorem lastReading_append (plan : Plan) (name : String) (calls more : List (Call effects)) :
    plan.lastReading name (calls ++ more) =
      (plan.lastReading name more).or (plan.lastReading name calls) := by
  simp [lastReading, List.findSomeRev?_eq_findSome?_reverse, List.findSome?_append]

/-- Properties of different names are different. -/
theorem eq_of_name_eq (hd : (plan.spec.properties.map (·.name)).Nodup) {q r : Property}
    (hq : q ∈ plan.spec.properties) (hr : r ∈ plan.spec.properties) (h : q.name = r.name) : q = r :=
  List.inj_on_of_nodup_map hd hq hr h

/-- Wherever only whole passages have been made, the last value read for a property is recorded,
with the label that goes with it. -/
theorem Chronicle.lastRecord_eq (hd : (plan.spec.properties.map (·.name)).Nodup)
    (hq : q ∈ plan.spec.properties) (h : plan.Chronicle calls) :
    lastRecord q.name calls =
      (plan.lastReading q.name calls).map fun text => (desired q, text) := by
  induction h with
  | nil => rfl
  | @snoc past passage h hp ih =>
    rw [lastRecord_append, lastReading_append, ih]
    cases hp with
    | other hr hl hn => simp [lastRecord, lastReading, List.findSomeRev?, hr, hn]
    | subscription hf ha x => rfl
    | @reading p c r payload text hf ha hc =>
      by_cases same : r.name = q.name
      · obtain rfl := eq_of_name_eq hd hf.mem hq same
        simp [lastRecord, lastReading, List.findSomeRev?, hc, desired, ha]
      · simp [lastRecord, lastReading, List.findSomeRev?, hc, about_some_of_ne same]
    | @verification p c r payload text hf ha hc =>
      by_cases same : r.name = q.name
      · obtain rfl := eq_of_name_eq hd hf.mem hq same
        simp [lastRecord, lastReading, List.findSomeRev?, hc, desired, ha]
      · simp [lastRecord, lastReading, List.findSomeRev?, hc, about_some_of_ne same]

/-- In a passage, the value recorded is the one that has been read in it. -/
theorem Passage.lastReading_eq {passage first : List (Call effects)} {call : Call effects}
    {name label text : String} (h : plan.Passage past passage)
    (hs : passage = first ++ call :: rest) (hr : call.1.record? = some (name, label, text)) :
    plan.lastReading name first = some text := by
  obtain ⟨read, records, rfl, unrecorded, taken⟩ := h.shape
  cases first with
  | nil =>
    obtain ⟨rfl, -⟩ := List.cons.inj hs
    cases unrecorded.symm.trans hr
  | cons head tail =>
    obtain ⟨rfl, rfl⟩ := List.cons.inj hs
    obtain ⟨name', label', text', rfl, hc⟩ := taken call (by simp)
    obtain ⟨rfl, -, rfl⟩ : name' = name ∧ label' = label ∧ text' = text := by simpa using hr
    have silent : plan.lastReading name' tail = none := by
      simp only [lastReading, List.findSomeRev?_eq_findSome?_reverse, List.findSome?_eq_none_iff,
        List.mem_reverse]
      intro r hm
      obtain ⟨_, _, _, rfl, -⟩ := taken r (by simp [hm])
      rfl
    rw [← List.singleton_append, lastReading_append, silent]
    simp [lastReading, List.findSomeRev?, hc]

/-- What is recorded is the reading obtained last for the property, also if several properties have
its name. -/
theorem Chronicle.lastReading_eq {call : Call effects} {name label text : String}
    (h : plan.Chronicle calls) (hs : calls = past ++ call :: rest)
    (hr : call.1.record? = some (name, label, text)) : plan.lastReading name past = some text := by
  induction h generalizing rest with
  | nil => exact absurd hs (by simp)
  | @snoc before passage h hp ih =>
    rcases List.append_eq_append_iff.mp hs with ⟨more, rfl, hpass⟩ | ⟨more, rfl, hrest⟩
    · rw [lastReading_append, hp.lastReading_eq hpass hr]
      rfl
    · cases more with
      | nil =>
        have here : plan.lastReading name [] = some text := hp.lastReading_eq hrest.symm hr
        cases here
      | cons first more =>
        obtain ⟨rfl, -⟩ := List.cons.inj hrest
        exact ih rfl

/-! ## Cycles and chronicles -/

theorem Chronicle.other {call : Call effects} (h : plan.Chronicle past)
    (hr : call.1.record? = none) (hl : call.1.listener? = none) (hn : plan.reading? call = none) :
    plan.Chronicle (past ++ [call]) :=
  h.snoc (.other hr hl hn)

/-- A reading that cannot be converted is none. -/
theorem reading?_of_error {c : Characteristic} {payload : Bytes} {fault : Error}
    (hq : plan.spec.property? c.uuid = some q)
    (h : plan.convert q.visitor.layout payload = .error fault) :
    plan.reading? (asked (.read p c) (.ok payload)) = none := by
  simp [asked, reading?, hq, h, Except.toOption]

theorem reading?_of_ok {c : Characteristic} {payload : Bytes} {reading : Float}
    (hq : plan.spec.property? c.uuid = some q)
    (h : plan.convert q.visitor.layout payload = .ok reading) :
    plan.reading? (asked (.read p c) (.ok payload)) = some (q.name, formatReading reading) := by
  simp [asked, reading?, hq, h, Except.toOption]

/-- A read without a result leaves nothing behind. -/
theorem Chronicle.unread {c : Characteristic} {fault : Error} (h : plan.Chronicle past)
    (hq : plan.spec.property? c.uuid = some q)
    (hr : Access.Reads plan.convert p c q calls (.error fault)) :
    plan.Chronicle (past ++ calls) := by
  cases hr with
  | unread => exact h.other rfl rfl rfl
  | unconverted hc => exact h.other rfl rfl (reading?_of_error hq hc)

/-- Accessing a characteristic that has been found goes on with a chronicle. -/
theorem Chronicle.accesses {c : Characteristic} (h : plan.Chronicle past) (hf : plan.Finds past q)
    (hq : plan.spec.property? c.uuid = some q) (ha : plan.Accesses p (c, q) calls goesOn) :
    plan.Chronicle (past ++ calls) := by
  cases ha with
  | @read _ _ _ x ha hr =>
    cases x with
    | error fault => exact h.unread hq hr
    | ok reported =>
      cases hr with
      | reported hc => exact h.snoc (.reading hf ha (reading?_of_ok hq hc))
  | written ha hw =>
    cases hw with
    | unprepared => simpa using h
    | unwritten => exact h.other rfl rfl rfl
    | @unverified payload reading fault _ hr =>
      rw [List.append_cons]
      exact (h.other rfl rfl rfl).unread hq hr
    | @verified payload reading reported _ hr =>
      cases hr with
      | reported hc =>
        rw [List.cons_append, List.append_cons]
        have written : plan.Chronicle (past ++ [asked (.write p c payload true) (.ok ())]) :=
          h.other rfl rfl rfl
        exact written.snoc
          (.verification (hf.mono (List.subset_append_left _ _)) ha (reading?_of_ok hq hc))
  | @subscribed _ _ _ x ha hs =>
    cases hs with
    | undescribed | unable => exact h.other rfl rfl rfl
    | registered found =>
      rw [List.append_cons]
      have described : plan.Chronicle (past ++ [asked (.discoverDescriptors p c) (.ok found)]) :=
        h.other rfl rfl rfl
      exact described.snoc (.subscription (hf.mono (List.subset_append_left _ _)) ha x)
  | passedOver => simpa using h

theorem Chronicle.visitAll {cs : List Characteristic} (h : plan.Chronicle past)
    (hf : ∀ c ∈ cs, ∀ q, plan.spec.property? c.uuid = some q → plan.Finds past q)
    (hr : (plan.visitAll p cs).Runs calls goesOn) : plan.Chronicle (past ++ calls) := by
  induction cs generalizing past calls with
  | nil =>
    obtain ⟨rfl, -⟩ := runs_done_iff.mp hr
    simpa using h
  | cons c cs ih =>
    obtain ⟨first, more, rest, rfl, hv, hm⟩ := runs_bind_iff.mp hr
    have visited : plan.Chronicle (past ++ first) := by
      cases hq : plan.spec.property? c.uuid with
      | none =>
        obtain ⟨rfl, -⟩ := (runs_visit_of_none hq).mp hv
        simpa using h
      | some q =>
        exact h.accesses (hf c (by simp) q hq) hq ((runs_visit_of_some hq).mp hv)
    rw [← List.append_assoc]
    cases more with
    | true =>
      refine ih visited (fun c hc q hq => ?_) hm
      exact (hf c (by simp [hc]) q hq).mono (List.subset_append_left _ _)
    | false =>
      obtain ⟨rfl, -⟩ := runs_done_iff.mp hm
      simpa using visited

theorem Chronicle.walk {services : List Service} (h : plan.Chronicle past)
    (hr : (plan.walk p services).Runs calls goesOn) : plan.Chronicle (past ++ calls) := by
  induction services generalizing past calls with
  | nil =>
    obtain ⟨rfl, -⟩ := runs_done_iff.mp hr
    simpa using h
  | cons s services ih =>
    obtain ⟨found, rest, rfl, hs⟩ := runs_perform_bind_iff.mp hr
    rw [List.append_cons]
    have discovered : plan.Chronicle (past ++ [asked (.discoverCharacteristics p s) found]) :=
      h.other rfl rfl rfl
    cases found with
    | error fault => exact ih discovered hs
    | ok cs =>
      obtain ⟨first, more, rest, rfl, hv, hm⟩ := runs_bind_iff.mp hs
      have visited := discovered.visitAll
        (fun c hc q hq => ⟨p, s, cs, by simp, c, hc, hq⟩) hv
      rw [← List.append_assoc]
      cases more with
      | true => exact ih visited hm
      | false =>
        obtain ⟨rfl, -⟩ := runs_done_iff.mp hm
        rw [List.append_nil]
        exact visited

theorem Chronicle.process (h : plan.Chronicle past) (hr : (plan.process p).Runs calls ()) :
    plan.Chronicle (past ++ calls) := by
  obtain ⟨x, _, rfl, prepared⟩ := runs_perform_bind_iff.mp hr
  obtain ⟨y, rest, rfl, discovered⟩ := runs_perform_bind_iff.mp prepared
  rw [List.append_cons, List.append_cons]
  have sized : plan.Chronicle (past ++ [asked (.setMtu p plan.mtu) x]) := h.other rfl rfl rfl
  have begun : plan.Chronicle (past ++ [asked (.setMtu p plan.mtu) x] ++
    [asked (.discoverServices p) y]) := sized.other rfl rfl rfl
  cases y with
  | error fault =>
    obtain ⟨rfl, -⟩ := runs_done_iff.mp discovered
    rw [List.append_nil]
    exact begun
  | ok services =>
    obtain ⟨_, more, held, rfl, hw, hh⟩ := runs_bind_iff.mp discovered
    have walked := begun.walk hw
    rw [← List.append_assoc]
    cases more with
    | true =>
      obtain ⟨_, _, rfl, hd⟩ := runs_ask_iff.mp hh
      obtain ⟨rfl, -⟩ := runs_done_iff.mp hd
      exact walked.other rfl rfl rfl
    | false =>
      obtain ⟨rfl, -⟩ := runs_done_iff.mp hh
      rw [List.append_nil]
      exact walked

end Plan

namespace Controller

variable {plan : Plan} {c c' : Controller} {e : Event} {past calls : List (Call effects)}

/-- A turn goes on with a chronicle. -/
theorem Step.chronicle (h : c.Step plan e calls c') (hp : plan.Chronicle past) :
    plan.Chronicle (past ++ calls) := by
  cases h with
  | passedOver => simpa using hp
  | searched | paused | failed => exact hp.other rfl rfl rfl
  | selected _ x =>
    rw [List.append_cons]
    exact (hp.other rfl rfl rfl).other rfl rfl rfl
  | refused _ x fault y =>
    rw [List.append_cons, List.append_cons _ _ [_]]
    exact ((hp.other rfl rfl rfl).other rfl rfl rfl).other rfl rfl rfl
  | processed _ hw x =>
    rw [← List.append_assoc]
    exact (hp.process hw).other rfl rfl rfl
  | finished _ =>
    cases c.isFinished with
    | true => simpa using hp
    | false => exact hp.other rfl rfl rfl

theorem History.chronicle {turns : List Turn} (h : History plan c turns c') :
    plan.Chronicle (turns.flatMap (·.calls)) := by
  induction h with
  | nil => exact .nil
  | snoc _ ht ih => simpa using (runs_handle_iff.mp ht).chronicle ih

/-- How far a cycle has come: the calls that it has made, and what it waits for an answer to.
Between two turns it waits for an event. -/
inductive Course (plan : Plan) : List (Call effects) → Option Effect → Prop
  | between {turns : List Turn} {c : Controller} (h : History plan {} turns c) :
    Course plan (turns.flatMap (·.calls)) none
  | waiting {turns : List Turn} {c : Controller} {e : Event} {calls : List (Call effects)}
      {op : Effect} (h : History plan {} turns c)
      (hb : (c.handle plan e).Breaks (calls ++ [⟨op, none⟩])) :
    Course plan (turns.flatMap (·.calls) ++ calls) (some op)

/-- The calls of a cycle are the beginning of a chronicle, which goes on with what the cycle waits
for. -/
theorem Course.chronicle {next : Option Effect} (h : Course plan calls next) :
    ∃ rest, plan.Chronicle (calls ++ rest) ∧ rest.head?.map (·.1) = next := by
  cases h with
  | between h => exact ⟨[], by simpa using h.chronicle, rfl⟩
  | @waiting turns c e calls op h hb =>
    obtain ⟨x, rest, c', hr⟩ := hb.exists_runs refusing
    refine ⟨⟨op, some x⟩ :: rest, ?_, rfl⟩
    rw [List.append_assoc]
    exact (runs_handle_iff.mp hr).chronicle h.chronicle

end Controller
end GattSync.Cycle
