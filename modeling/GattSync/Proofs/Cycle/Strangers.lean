import GattSync.Proofs.Cycle.Addressees

/-!
# Strangers

A stranger is a peripheral that the spec does not mean, or one that no discovery has introduced as
meant. A controller may be told of strangers at any moment: that they were discovered, that a
connection to them was completed or failed, that they have gone. It takes no notice
(`strangers_ignored`). It does the same, with the same answers, as if it had not been told, and ends
in the same state; what it does in the turn of any other event, the end of the cycle included, it
does in the turn of that event.

The target carries this. Whatever is selected was introduced (`Step.introduced`), so a stranger is
never the target, and its events are passed over.
-/

namespace GattSync

/-- The event is the discovery of a peripheral with this id as one that is meant. -/
def Event.Introduces (i : ProtocolIdentity) (id : String) : Event → Prop
  | .discovered p advertisement _ => p.id = id ∧ i.Means advertisement.localName p.address
  | _ => False

/-- The event is of a peripheral that is not meant, or that none of these events introduces. -/
def Event.IsStrange (i : ProtocolIdentity) (events : List Event) : Event → Prop
  | .adapterState _ => False
  | .discovered p advertisement _ => ¬ i.Means advertisement.localName p.address
  | .connected p _ => ∀ e ∈ events, ¬ e.Introduces i p.id
  | .disconnected p _ => ∀ e ∈ events, ¬ e.Introduces i p.id

/-! ## Lists with insertions -/

/-- The second list is the first one with elements of a kind inserted. -/
inductive Interspersed {α : Type} (P : α → Prop) : List α → List α → Prop
  | nil : Interspersed P [] []
  | cons (a : α) {as bs : List α} (h : Interspersed P as bs) : Interspersed P (a :: as) (a :: bs)
  | insert {a : α} (ha : P a) {as bs : List α} (h : Interspersed P as bs) :
    Interspersed P as (a :: bs)

namespace Interspersed

variable {α β : Type} {P : α → Prop} {as bs : List α} {a : α}

/-- What inserted elements have nothing of is the same in both lists. -/
theorem flatMap_eq (h : Interspersed P as bs) (f : α → List β) (hf : ∀ a, P a → f a = []) :
    bs.flatMap f = as.flatMap f := by
  induction h with
  | nil => rfl
  | cons a _ ih => rw [List.flatMap_cons, List.flatMap_cons, ih]
  | insert ha _ ih => rw [List.flatMap_cons, hf _ ha, ih, List.nil_append]

/-- Where an element stands in the first list, it stands in the second one. -/
theorem split_left {first rest : List α} (h : Interspersed P (first ++ a :: rest) bs) :
    ∃ first' rest', bs = first' ++ a :: rest' ∧ Interspersed P first first' ∧
      Interspersed P rest rest' := by
  generalize hs : first ++ a :: rest = as at h
  induction h generalizing first with
  | nil => simp at hs
  | @cons b as bs h ih =>
    cases first with
    | nil =>
      obtain ⟨rfl, rfl⟩ := List.cons.inj hs
      exact ⟨[], bs, rfl, .nil, h⟩
    | cons c first =>
      obtain ⟨rfl, htail⟩ := List.cons.inj hs
      obtain ⟨first', rest', rfl, hf, hr⟩ := ih htail
      exact ⟨c :: first', rest', rfl, .cons c hf, hr⟩
  | @insert b hb as bs _ ih =>
    obtain ⟨first', rest', rfl, hf, hr⟩ := ih hs
    exact ⟨b :: first', rest', rfl, .insert hb hf, hr⟩

/-- An element of another kind in the second list has its place in the first one. -/
theorem split_right {first rest : List α} (ha : ¬ P a)
    (h : Interspersed P as (first ++ a :: rest)) :
    ∃ first' rest', as = first' ++ a :: rest' ∧ Interspersed P first' first ∧
      Interspersed P rest' rest := by
  generalize hs : first ++ a :: rest = bs at h
  induction h generalizing first with
  | nil => simp at hs
  | @cons b as bs h ih =>
    cases first with
    | nil =>
      obtain ⟨rfl, rfl⟩ := List.cons.inj hs
      exact ⟨[], as, rfl, .nil, h⟩
    | cons c first =>
      obtain ⟨rfl, htail⟩ := List.cons.inj hs
      obtain ⟨first', rest', rfl, hf, hr⟩ := ih htail
      exact ⟨c :: first', rest', rfl, .cons c hf, hr⟩
  | @insert b hb as bs h ih =>
    cases first with
    | nil =>
      obtain ⟨rfl, -⟩ := List.cons.inj hs
      exact absurd hb ha
    | cons c first =>
      obtain ⟨rfl, htail⟩ := List.cons.inj hs
      obtain ⟨first', rest', rfl, hf, hr⟩ := ih htail
      exact ⟨first', rest', rfl, .insert hb hf, hr⟩

end Interspersed

namespace Cycle.Controller

open Program

variable {plan : Plan} {c c' : Controller} {e : Event} {calls : List (Call effects)}
  {events disturbed : List Event} {turns more : List Turn}

/-! ## Strangers are passed over -/

/-- What is selected has been introduced by one of these events. -/
def IsIntroduced (plan : Plan) (events : List Event) (c : Controller) : Prop :=
  ∀ t, c.target = some t → ∃ e ∈ events, e.Introduces plan.spec.protocol t.id

/-- A turn selects what its own event introduces, or keeps to what was selected. -/
theorem Step.introduced (h : c.Step plan e calls c') (hc : c.IsIntroduced plan events)
    (he : e ∈ events) : c'.IsIntroduced plan events := by
  intro t ht
  rcases h.selects_or_keeps with ⟨p, selects, left⟩ | ⟨-, left⟩
  · obtain ⟨rfl, -⟩ := left t ht
    obtain ⟨-, q, advertisement, rssi, hq, hid, means⟩ := selects.sights
    obtain rfl : e = .discovered q advertisement rssi := hq
    exact ⟨_, he, hid, means⟩
  · obtain ⟨q, hq, hid⟩ := isTarget_iff.mp (left t ht)
    obtain ⟨e', he', introduces⟩ := hc q hq
    exact ⟨e', he', hid ▸ introduces⟩

theorem IsIntroduced.isTarget_eq_false {p : Peripheral} (hc : c.IsIntroduced plan events)
    (hp : ∀ e ∈ events, ¬ e.Introduces plan.spec.protocol p.id) : c.isTarget p = false := by
  refine Bool.eq_false_iff.mpr fun ht => ?_
  obtain ⟨q, hq, hid⟩ := isTarget_iff.mp ht
  obtain ⟨e, he, introduces⟩ := hc q hq
  exact hp e he (hid ▸ introduces)

theorem IsIntroduced.passesOver (hc : c.IsIntroduced plan events)
    (he : e.IsStrange plan.spec.protocol events) : c.passesOver plan e := by
  cases e with
  | adapterState state => exact he.elim
  | discovered p advertisement rssi =>
    have unmeant := Bool.eq_false_iff.mpr (mt ProtocolIdentity.isMatch_iff.mp he)
    simp [Controller.passesOver, selects, unmeant]
  | connected p error => simp [Controller.passesOver, awaits, hc.isTarget_eq_false he]
  | disconnected p error => simp [Controller.passesOver, isLinkedTo, hc.isTarget_eq_false he]

theorem IsIntroduced.handle_eq (hc : c.IsIntroduced plan events)
    (he : e.IsStrange plan.spec.protocol events) : c.handle plan e = done c :=
  (runs_handle_of_passesOver (hc.passesOver he)).eq_done

/-! ## Two runs -/

/-- Nothing was done in the turn. -/
def Turn.IsIdle (u : Turn) : Prop := u.calls = [] ∧ u.after = u.before

/-- The end of the cycle was told in the turn. -/
def Turn.Finishes (u : Turn) : Prop := ⟨.finish, some ()⟩ ∈ u.calls

/-- A controller has had the same turns as another one, but for idle ones. -/
structure Agrees (turns more : List Turn) : Prop where
  interspersed : Interspersed Turn.IsIdle turns more
  /-- They have asked for the same, recorded the same, and been answered the same. -/
  calls : more.flatMap (·.calls) = turns.flatMap (·.calls)
  /-- The end of the cycle is told in the turn that it is told in without the idle ones. -/
  finishes {first rest : List Turn} {u : Turn} (hu : u.Finishes) (hs : more = first ++ u :: rest) :
    ∃ first' rest', turns = first' ++ u :: rest' ∧ Interspersed Turn.IsIdle first' first
  finished {first rest : List Turn} {u : Turn} (hu : u.Finishes) (hs : turns = first ++ u :: rest) :
    ∃ first' rest', more = first' ++ u :: rest' ∧ Interspersed Turn.IsIdle first first'

theorem agrees_of_interspersed (h : Interspersed Turn.IsIdle turns more) : Agrees turns more where
  interspersed := h
  calls := h.flatMap_eq _ fun _ hu => hu.1
  finishes {first rest u} hu hs := by
    have busy : ¬ u.IsIdle := by
      rintro ⟨hn, -⟩
      rw [Turn.Finishes, hn] at hu
      cases hu
    obtain ⟨first', rest', hturns, hf, -⟩ := (hs ▸ h).split_right busy
    exact ⟨first', rest', hturns, hf⟩
  finished {first rest u} hu hs := by
    obtain ⟨first', rest', hmore, hf, -⟩ := (hs ▸ h).split_left
    exact ⟨first', rest', hmore, hf⟩

theorem History.eq_of_nil (h : History plan c turns c') (hn : turns = []) : c' = c := by
  cases h with
  | nil => rfl
  | snoc _ _ => simp at hn

theorem History.cons_iff {u : Turn} :
    History plan c (u :: turns) c' ↔
      u.before = c ∧ (c.handle plan u.event).Runs u.calls u.after ∧
        History plan u.after turns c' := by
  constructor
  · intro h
    obtain ⟨hn, step, rest⟩ := h.split (List.nil_append (u :: turns)).symm
    have hb : u.before = c := hn.eq_of_nil rfl
    exact ⟨hb, hb ▸ step.runs_handle, rest⟩
  · rintro ⟨rfl, ht, h⟩
    exact (History.nil.snoc ht).append h

/-- Whatever else a controller is told of strangers, it goes through the same program. -/
theorem run_eq_of_interspersed {as bs : List Event}
    (h : Interspersed (Event.IsStrange plan.spec.protocol events) as bs) (hs : as ⊆ events)
    (hc : c.IsIntroduced plan events) (hd : c.connection.isDone = false) :
    run plan c bs = run plan c as := by
  induction h generalizing c with
  | nil => rfl
  | @cons e as bs _ ih =>
    obtain ⟨he, hrest⟩ := List.cons_subset.mp hs
    refine bind_congr_of_runs fun calls c' hr => ?_
    have introduced := (runs_handle_iff.mp hr).introduced hc he
    cases hd' : c'.connection.isDone with
    | true => rfl
    | false => exact ih hrest introduced hd'
  | @insert e he as bs _ ih =>
    have passed : run plan c (e :: bs) = run plan c bs := by
      rw [run, hc.handle_eq he]
      simp [hd]
    rw [passed, ih hs hc hd]

/-- A controller that is told of strangers as well can have the same turns in the same order. -/
theorem History.exists_more {as bs : List Event}
    (h : Interspersed (Event.IsStrange plan.spec.protocol events) as bs) (hs : as ⊆ events)
    (hc : c.IsIntroduced plan events) (hh : History plan c turns c')
    (ht : turns.map (·.event) = as) :
    ∃ more, History plan c more c' ∧ more.map (·.event) = bs ∧
      Interspersed Turn.IsIdle turns more := by
  induction h generalizing c turns with
  | nil =>
    obtain rfl := List.map_eq_nil_iff.mp ht
    exact ⟨[], hh, rfl, .nil⟩
  | @cons e as bs _ ih =>
    obtain ⟨he, hrest⟩ := List.cons_subset.mp hs
    obtain ⟨u, turns, rfl, rfl, rfl⟩ := List.map_eq_cons_iff.mp ht
    obtain ⟨rfl, hr, hh⟩ := History.cons_iff.mp hh
    obtain ⟨more, hmore, rfl, hi⟩ := ih hrest ((runs_handle_iff.mp hr).introduced hc he) hh rfl
    exact ⟨u :: more, History.cons_iff.mpr ⟨rfl, hr, hmore⟩, rfl, .cons u hi⟩
  | @insert e he as bs _ ih =>
    obtain ⟨more, hmore, rfl, hi⟩ := ih hs hc hh ht
    have idle : (c.handle plan e).Runs [] c := runs_handle_of_passesOver (hc.passesOver he)
    exact ⟨⟨c, e, [], c⟩ :: more, History.cons_iff.mpr ⟨rfl, idle, hmore⟩, rfl,
      .insert ⟨rfl, rfl⟩ hi⟩

/-- And it can have no others. -/
theorem History.exists_fewer {as bs : List Event}
    (h : Interspersed (Event.IsStrange plan.spec.protocol events) as bs) (hs : as ⊆ events)
    (hc : c.IsIntroduced plan events) (hh : History plan c more c')
    (ht : more.map (·.event) = bs) :
    ∃ turns, History plan c turns c' ∧ turns.map (·.event) = as ∧
      Interspersed Turn.IsIdle turns more := by
  induction h generalizing c more with
  | nil =>
    obtain rfl := List.map_eq_nil_iff.mp ht
    exact ⟨[], hh, rfl, .nil⟩
  | @cons e as bs _ ih =>
    obtain ⟨he, hrest⟩ := List.cons_subset.mp hs
    obtain ⟨u, more, rfl, rfl, rfl⟩ := List.map_eq_cons_iff.mp ht
    obtain ⟨rfl, hr, hh⟩ := History.cons_iff.mp hh
    obtain ⟨turns, hturns, rfl, hi⟩ := ih hrest ((runs_handle_iff.mp hr).introduced hc he) hh rfl
    exact ⟨u :: turns, History.cons_iff.mpr ⟨rfl, hr, hturns⟩, rfl, .cons u hi⟩
  | @insert e he as bs _ ih =>
    obtain ⟨u, more, rfl, rfl, rfl⟩ := List.map_eq_cons_iff.mp ht
    obtain ⟨rfl, hr, hh⟩ := History.cons_iff.mp hh
    rw [hc.handle_eq he] at hr
    obtain ⟨hcalls, hafter⟩ := runs_done_iff.mp hr
    rw [hafter] at hh
    obtain ⟨turns, hturns, rfl, hi⟩ := ih hs hc hh rfl
    exact ⟨turns, hturns, rfl, .insert ⟨hcalls, hafter⟩ hi⟩

/-- Let a controller be told of strangers, anywhere between the events of a queue. Then it works the
queue off with the very program that it would go through without them. And whether or not it stops
at the end of its cycle, the turns that it can have are those that it could have without them, and
it is left in the same state. -/
theorem strangers_ignored (plan : Plan) {events disturbed : List Event}
    (h : Interspersed (Event.IsStrange plan.spec.protocol events) events disturbed) :
    run plan {} disturbed = run plan {} events ∧
    (∀ turns c, History plan {} turns c → turns.map (·.event) = events →
      ∃ more, History plan {} more c ∧ more.map (·.event) = disturbed ∧ Agrees turns more) ∧
    ∀ more c, History plan {} more c → more.map (·.event) = disturbed →
      ∃ turns, History plan {} turns c ∧ turns.map (·.event) = events ∧ Agrees turns more := by
  have introduced : IsIntroduced plan events {} := nofun
  refine ⟨run_eq_of_interspersed h (List.Subset.refl _) introduced rfl, ?_, ?_⟩
  · intro turns c hh ht
    obtain ⟨more, hm, he, hi⟩ := hh.exists_more h (List.Subset.refl _) introduced ht
    exact ⟨more, hm, he, agrees_of_interspersed hi⟩
  · intro more c hh ht
    obtain ⟨turns, hm, he, hi⟩ := hh.exists_fewer h (List.Subset.refl _) introduced ht
    exact ⟨turns, hm, he, agrees_of_interspersed hi⟩

/-- A kettle next to the lamp. -/
def kettle : Peripheral := ⟨"dev-2", "11:22:33:44:55:66", some "Kettle"⟩

/-- The events of a cycle with the lamp. -/
def lampEvents : List Event :=
  [.adapterState .poweredOn, .discovered nameless { localName := "Lamp" } none,
    .connected nameless none, .disconnected nameless none]

/-- While the lamp is looked for, connected to and accessed, the kettle comes and goes. -/
def lampAndKettleEvents : List Event :=
  [.adapterState .poweredOn, .discovered kettle { localName := "Kettle" } none,
    .disconnected kettle (some "link lost"), .discovered nameless { localName := "Lamp" } none,
    .connected kettle (some "refused"), .disconnected kettle none, .connected nameless none,
    .disconnected kettle none, .disconnected nameless none]

/-- The kettle makes no difference to the lamp. -/
theorem strangers_ignored_kettle :
    Interspersed (Event.IsStrange Plan.lamp.spec.protocol lampEvents) lampEvents
        lampAndKettleEvents ∧
      run Plan.lamp {} lampAndKettleEvents = run Plan.lamp {} lampEvents := by
  have unheard : ∀ e ∈ lampEvents, ¬ e.Introduces Plan.lamp.spec.protocol kettle.id := by
    simp [lampEvents, Event.Introduces, nameless, kettle]
  have seen : Event.IsStrange Plan.lamp.spec.protocol lampEvents
      (.discovered kettle { localName := "Kettle" } none) := by
    show ¬ Plan.lamp.spec.protocol.Means (some "Kettle") kettle.address
    rw [← ProtocolIdentity.isMatch_iff]
    decide
  have refused : Event.IsStrange Plan.lamp.spec.protocol lampEvents
      (.connected kettle (some "refused")) := unheard
  have gone (text : Option String) : Event.IsStrange Plan.lamp.spec.protocol lampEvents
      (.disconnected kettle text) := unheard
  have inserted : Interspersed (Event.IsStrange Plan.lamp.spec.protocol lampEvents) lampEvents
      lampAndKettleEvents :=
    .cons _ <| .insert seen <| .insert (gone _) <| .cons _ <| .insert refused <|
      .insert (gone _) <| .cons _ <| .insert (gone _) <| .cons _ .nil
  exact ⟨inserted, (strangers_ignored Plan.lamp inserted).1⟩

end Cycle.Controller
end GattSync
