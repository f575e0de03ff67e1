import GattSync.Proofs.Cycle.Accesses

/-!
# How often a walk changes a characteristic

A visit changes its own characteristic at most once, by a write or by a subscription, and exactly
once if the property asks for a change and the walk goes on (`Plan.meets_visit`). What is due to a
characteristic is therefore counted by how often it is found: it is changed no more often than that,
and exactly that often if the walk comes to its end (`Plan.alterations_process`). Nothing in the
walk makes up for a characteristic that is found twice, or not at all.
-/

namespace GattSync.Cycle

open Program

/-- The operation is a write or a subscription to this characteristic of the peripheral. -/
def Effect.alters (p : Peripheral) (c : Characteristic) : Effect → Bool
  | .session (.write q d _ _) => q == p && d == c
  | .session (.subscribe q d _) => q == p && d == c
  | _ => false

/-- How often a characteristic is written or subscribed to. -/
def alterations (p : Peripheral) (c : Characteristic) (calls : List (Call effects)) : Nat :=
  calls.countP fun call => call.1.alters p c

/-- The characteristic has a property that is to be written, or one that is to be subscribed to and
can be. -/
def Plan.isAltered (plan : Plan) (c : Characteristic) : Bool :=
  match plan.spec.property? c.uuid with
  | none => false
  | some property =>
    match property.access with
    | .readWrite => true
    | .notifyOnly => c.canNotify
    | .readOnly => false
    | .unrecognized _ => false

/-- How often a characteristic is to be changed if these are found. -/
def Plan.due (plan : Plan) (c : Characteristic) (found : List Characteristic) : Nat :=
  if plan.isAltered c then found.count c else 0

/-- No more is made than is due, and all of it if the walk goes on. -/
structure Meets (due made : Nat) (goesOn : Bool) : Prop where
  le : made ≤ due
  eq (h : goesOn = true) : made = due

/-- The connection is not held in these calls. -/
def IsUnheld (calls : List (Call effects)) : Prop := ∀ window x, ⟨.hold window, x⟩ ∉ calls

variable {plan : Plan} {p : Peripheral} {c d : Characteristic} {property : Property}
  {calls first rest : List (Call effects)} {goesOn : Bool}

/-! ## Counting -/

theorem Meets.refl (n : Nat) (goesOn : Bool) : Meets n n goesOn := ⟨Nat.le_refl n, fun _ => rfl⟩

theorem Meets.nothing (n : Nat) : Meets n 0 false := ⟨Nat.zero_le n, nofun⟩

@[simp] theorem alterations_nil : alterations p c [] = 0 := rfl

theorem alterations_cons (call : Call effects) :
    alterations p c (call :: rest) = alterations p c rest + if call.1.alters p c then 1 else 0 :=
  List.countP_cons ..

theorem alterations_cons_of_not {call : Call effects} (h : call.1.alters p c = false) :
    alterations p c (call :: rest) = alterations p c rest := by
  simp [alterations_cons, h]

theorem alterations_append :
    alterations p c (first ++ rest) = alterations p c first + alterations p c rest :=
  List.countP_append

theorem alterations_write (payload : Bytes) (acknowledged : Bool) (x : Except Error Unit) :
    alterations p c (asked (.write p d payload acknowledged) x :: rest) =
      alterations p c rest + if d == c then 1 else 0 := by
  simp [alterations_cons, asked, Effect.alters]

theorem alterations_subscribe (listener : String) (x : Except Error Unit) :
    alterations p c (asked (.subscribe p d listener) x :: rest) =
      alterations p c rest + if d == c then 1 else 0 := by
  simp [alterations_cons, asked, Effect.alters]

namespace Plan

@[simp] theorem due_nil : plan.due c [] = 0 := by
  simp [due]

theorem due_append (found more : List Characteristic) :
    plan.due c (found ++ more) = plan.due c found + plan.due c more := by
  unfold due
  split
  · exact List.count_append
  · rfl

theorem due_singleton (d : Characteristic) :
    plan.due c [d] = if plan.isAltered d then if d == c then 1 else 0 else 0 := by
  by_cases hd : d = c
  · subst hd
    simp [due]
  · simp [due, hd]

end Plan

/-! ## One visit -/

theorem Access.alterations_reads {convert : Converter} {x : Except Error String}
    (h : Reads convert p d property calls x) : alterations p c calls = 0 := by
  cases h <;> rfl

theorem Access.meets_writes {convert : Converter} {x : Except Error Unit}
    (h : Writes convert p d property calls x) :
    Meets (if d == c then 1 else 0) (alterations p c calls) x.isOk := by
  cases h with
  | unprepared _ => exact .nothing _
  | unwritten _ fault =>
    rw [alterations_write, alterations_nil, Nat.zero_add]
    exact .refl _ _
  | unverified _ hr =>
    rw [alterations_write, alterations_reads hr, Nat.zero_add]
    exact .refl _ _
  | @verified payload reading reported _ hr =>
    have record : alterations p c [recorded property.name property.visitor.defaultValue reported] =
        0 := rfl
    rw [alterations_append, alterations_write, alterations_reads hr, record, Nat.zero_add]
    exact .refl _ _

theorem Access.meets_subscribes {x : Except Error Unit} (h : Subscribes p d property calls x) :
    Meets (if d.canNotify then if d == c then 1 else 0 else 0) (alterations p c calls) x.isOk := by
  cases h with
  | undescribed fault =>
    have asking : alterations p c [asked (.discoverDescriptors p d) (.error fault)] = 0 := rfl
    rw [asking]
    exact .nothing _
  | unable found hn =>
    simp only [hn]
    exact .refl 0 _
  | registered found hn x =>
    simp only [hn, if_true]
    rw [alterations_cons_of_not rfl, alterations_subscribe, alterations_nil, Nat.zero_add]
    exact .refl _ _

theorem Access.isUnheld_reads {convert : Converter} {x : Except Error String}
    (h : Reads convert p d property calls x) : IsUnheld calls := by
  cases h <;> simp [IsUnheld, asked, recorded]

theorem Access.isUnheld_writes {convert : Converter} {x : Except Error Unit}
    (h : Writes convert p d property calls x) : IsUnheld calls := by
  cases h with
  | unprepared _ => simp [IsUnheld]
  | unwritten _ _ => simp [IsUnheld, asked]
  | unverified _ hr =>
    have unheld := isUnheld_reads hr
    simpa [IsUnheld, asked] using unheld
  | verified _ hr =>
    have unheld := isUnheld_reads hr
    simpa [IsUnheld, asked, recorded] using unheld

namespace Plan

/-- A visit changes its own characteristic as its property asks, and no other one. -/
theorem meets_visit (h : (plan.visit p d).Runs calls goesOn) :
    Meets (plan.due c [d]) (alterations p c calls) goesOn := by
  rw [due_singleton]
  cases hq : plan.spec.property? d.uuid with
  | none =>
    obtain ⟨rfl, rfl⟩ := (runs_visit_of_none hq).mp h
    simp only [isAltered, hq]
    exact .refl 0 true
  | some property =>
    cases (runs_visit_of_some hq).mp h with
    | read ha hr =>
      simp only [isAltered, hq, ha, Access.alterations_reads hr]
      exact .refl 0 true
    | written ha hw =>
      simp only [isAltered, hq, ha]
      exact Access.meets_writes hw
    | subscribed ha hs =>
      simp only [isAltered, hq, ha]
      exact Access.meets_subscribes hs
    | passedOver ha =>
      simp only [isAltered, hq, ha]
      exact .refl 0 true

theorem isUnheld_visit (h : (plan.visit p d).Runs calls goesOn) : IsUnheld calls := by
  cases hq : plan.spec.property? d.uuid with
  | none =>
    obtain ⟨rfl, -⟩ := (runs_visit_of_none hq).mp h
    simp [IsUnheld]
  | some property =>
    cases (runs_visit_of_some hq).mp h with
    | read _ hr => exact Access.isUnheld_reads hr
    | written _ hw => exact Access.isUnheld_writes hw
    | subscribed _ hs => cases hs <;> simp [IsUnheld, asked]
    | passedOver _ => simp [IsUnheld]

/-! ## A walk -/

/-- What a walk does with the characteristics that it reveals: it changes this one as often as it is
due, or ends before. -/
structure Walks (plan : Plan) (p : Peripheral) (c : Characteristic) (found : List Characteristic)
    (calls : List (Call effects)) (goesOn : Bool) : Prop where
  meets : Meets (plan.due c found) (alterations p c calls) goesOn
  isUnheld : IsUnheld calls

theorem walks_nil : Walks plan p c [] [] true where
  meets := by
    rw [due_nil]
    exact .refl 0 true
  isUnheld := by simp [IsUnheld]

theorem Walks.append {found more : List Characteristic}
    (hf : Walks plan p c found first true) (hr : Walks plan p c more rest goesOn) :
    Walks plan p c (found ++ more) (first ++ rest) goesOn where
  meets := by
    rw [due_append, alterations_append, hf.meets.eq rfl]
    exact ⟨Nat.add_le_add_left hr.meets.le _, fun h => congrArg _ (hr.meets.eq h)⟩
  isUnheld window x hm := by
    rcases List.mem_append.mp hm with hm | hm
    · exact hf.isUnheld window x hm
    · exact hr.isUnheld window x hm

/-- A walk that has ended early leaves the rest out. -/
theorem Walks.ended {found : List Characteristic} (h : Walks plan p c found calls false)
    (more : List Characteristic) : Walks plan p c (found ++ more) calls false where
  meets := by
    rw [due_append]
    exact ⟨Nat.le_add_right_of_le h.meets.le, nofun⟩
  isUnheld := h.isUnheld

theorem walks_visitAll {cs : List Characteristic} (h : (plan.visitAll p cs).Runs calls goesOn) :
    Walks plan p c cs calls goesOn := by
  induction cs generalizing calls with
  | nil =>
    obtain ⟨rfl, rfl⟩ := runs_done_iff.mp h
    exact walks_nil
  | cons d rest ih =>
    obtain ⟨first, more, last, rfl, hv, hr⟩ := runs_bind_iff.mp h
    have visited : Walks plan p c [d] first more := ⟨meets_visit hv, isUnheld_visit hv⟩
    cases more with
    | false =>
      obtain ⟨rfl, rfl⟩ := runs_done_iff.mp hr
      rw [List.append_nil]
      exact visited.ended rest
    | true => exact visited.append (ih hr)

/-- The characteristics that are found in a service, whenever they are, are these. -/
def Reveals (p : Peripheral) (has : Service → List Characteristic) (calls : List (Call effects)) :
    Prop :=
  ∀ s found, asked (.discoverCharacteristics p s) (.ok found) ∈ calls → found = has s

/-- The characteristics of some service could not be discovered. -/
def Misses (p : Peripheral) (calls : List (Call effects)) : Prop :=
  ∃ s fault, asked (.discoverCharacteristics p s) (.error fault) ∈ calls

theorem Reveals.mono {has : Service → List Characteristic} {part : List (Call effects)}
    (h : Reveals p has calls) (le : part ⊆ calls) : Reveals p has part :=
  fun s found hm => h s found (le hm)

theorem Misses.mono {part : List (Call effects)} (h : Misses p part) (le : part ⊆ calls) :
    Misses p calls :=
  let ⟨s, fault, hm⟩ := h
  ⟨s, fault, le hm⟩

/-- A walk visits the characteristics that are found in the services; those of a service that could
not be looked into it leaves out. -/
theorem exists_walks {has : Service → List Characteristic} {services : List Service}
    (h : (plan.walk p services).Runs calls goesOn) (reveals : Reveals p has calls) :
    ∃ found, Walks plan p c found calls goesOn ∧
      plan.due c found ≤ plan.due c (services.flatMap has) ∧
      (¬ Misses p calls → found = services.flatMap has) := by
  induction services generalizing calls with
  | nil =>
    obtain ⟨rfl, rfl⟩ := runs_done_iff.mp h
    exact ⟨[], walks_nil, Nat.le_refl _, fun _ => rfl⟩
  | cons s services ih =>
    rw [List.flatMap_cons, due_append]
    obtain ⟨x, rest, rfl, hr⟩ := runs_perform_bind_iff.mp h
    have asking : Walks plan p c [] [asked (.discoverCharacteristics p s) x] true :=
      ⟨by rw [due_nil]; exact .refl 0 true, by simp [IsUnheld, asked]⟩
    cases x with
    | error fault =>
      obtain ⟨found, walks, le, -⟩ := ih hr (reveals.mono (List.subset_cons_self _ _))
      exact ⟨found, asking.append walks, Nat.le_add_left_of_le le,
        fun unmissed => absurd ⟨s, fault, .head _⟩ unmissed⟩
    | ok found =>
      obtain rfl := reveals s found (.head _)
      obtain ⟨first, more, last, rfl, ha, hl⟩ := runs_bind_iff.mp hr
      have visited : Walks plan p c (has s) first more := walks_visitAll ha
      cases more with
      | false =>
        obtain ⟨rfl, rfl⟩ := runs_done_iff.mp hl
        rw [List.append_nil]
        exact ⟨has s ++ services.flatMap has, asking.append (visited.ended _),
          Nat.le_of_eq (due_append _ _), fun _ => rfl⟩
      | true =>
        have part : last ⊆ asked (.discoverCharacteristics p s) (.ok (has s)) :: (first ++ last) :=
          List.subset_cons_of_subset _ (List.subset_append_right first last)
        obtain ⟨found, walks, le, all⟩ := ih hl (reveals.mono part)
        refine ⟨has s ++ found, asking.append (visited.append walks), ?_, fun unmissed => ?_⟩
        · rw [due_append]
          exact Nat.add_le_add_left le _
        · rw [all fun missed => unmissed (missed.mono part)]

/-- Processing a connected peripheral changes a characteristic as often as it is found, unless the
connection is not held in the end or a service could not be looked into. -/
theorem alterations_process {has : Service → List Characteristic} {services : List Service}
    (h : (plan.process p).Runs calls ())
    (lists : ∀ found, asked (.discoverServices p) (.ok found) ∈ calls → found = services)
    (reveals : Reveals p has calls) :
    alterations p c calls ≤ plan.due c (services.flatMap has) ∧
      (⟨.hold plan.window, some ()⟩ ∈ calls → ¬ Misses p calls →
        alterations p c calls = plan.due c (services.flatMap has)) := by
  obtain ⟨x, _, rfl, prepared⟩ := runs_perform_bind_iff.mp h
  obtain ⟨y, rest, rfl, discovered⟩ := runs_perform_bind_iff.mp prepared
  rw [alterations_cons_of_not rfl, alterations_cons_of_not rfl]
  cases y with
  | error fault =>
    obtain ⟨rfl, -⟩ := runs_done_iff.mp discovered
    refine ⟨Nat.zero_le _, fun held => ?_⟩
    simp at held
  | ok found =>
    obtain rfl := lists found (.tail _ (.head _))
    obtain ⟨walked, goesOn, held, rfl, hw, hh⟩ := runs_bind_iff.mp discovered
    have part : walked ⊆ ⟨.session (.setMtu p plan.mtu), some x⟩ ::
        asked (.discoverServices p) (.ok found) :: (walked ++ held) :=
      fun _ hm => .tail _ (.tail _ (List.mem_append_left held hm))
    obtain ⟨all, walks, le, complete⟩ := exists_walks (c := c) hw (reveals.mono part)
    cases goesOn with
    | false =>
      obtain ⟨rfl, -⟩ := runs_done_iff.mp hh
      refine ⟨by simpa using Nat.le_trans walks.meets.le le, fun held => ?_⟩
      have late : ⟨.hold plan.window, some ()⟩ ∈ walked := by simpa using held
      exact absurd late (walks.isUnheld _ _)
    | true =>
      obtain ⟨_, _, rfl, hd⟩ := runs_ask_iff.mp hh
      obtain ⟨rfl, -⟩ := runs_done_iff.mp hd
      rw [alterations_append, alterations_cons_of_not rfl, alterations_nil, Nat.add_zero]
      refine ⟨Nat.le_trans walks.meets.le le, fun _ unmissed => ?_⟩
      rw [walks.meets.eq rfl, complete fun missed => unmissed (missed.mono part)]

end Plan
end GattSync.Cycle
