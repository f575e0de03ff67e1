import GattSync.Proofs.Device.Lifecycle

/-!
# Stories of a device

What happens to a device while callers may also abandon their calls (`Story`). An abandoned call
leaves the line, and what it has taken of the running loop is lost; nobody sees it happen. Which
calls can be abandoned is left open: if none can, the story is the life of the device.

Whatever is abandoned, the loops of a device are those of the calls to configure that have returned.
Each makes the calls of a loop with its own spec, all of them before it ends.
-/

namespace GattSync

open Program

namespace Device

open Resync

/-- What happens to a device after the past, while callers may abandon their calls. -/
inductive Goes (may : Device → Nat → Prop) (past : List Happening) (d : Device) :
    List Happening → Device → Prop
  | rest : Goes may past d [] d
  | snoc {hs : List Happening} {d₁ d₂ : Device} {x : Happening} (h : Goes may past d hs d₁)
      (hx : Happens (past ++ hs) d₁ x d₂) : Goes may past d (hs ++ [x]) d₂
  | abandoned {hs : List Happening} {d₁ : Device} (h : Goes may past d hs d₁) (caller : Nat)
      (hm : may d₁ caller) : Goes may past d hs (d₁.abandon caller)

/-- What has happened to a device since it was made, while callers may abandon their calls. -/
inductive Story (may : Device → Nat → Prop) (identity : DeviceIdentity) (config : SyncConfig) :
    List Happening → Device → Prop
  | created {d : Device} (h : Device.create identity config = .ok d) :
    Story may identity config [] d
  | snoc {hs : List Happening} {d d' : Device} {x : Happening}
      (h : Story may identity config hs d) (hx : Happens hs d x d') :
    Story may identity config (hs ++ [x]) d'
  | abandoned {hs : List Happening} {d : Device} (h : Story may identity config hs d)
      (caller : Nat) (hm : may d caller) : Story may identity config hs (d.abandon caller)

variable {may : Device → Nat → Prop} {identity : DeviceIdentity} {config : SyncConfig}
  {hs past before after more : List Happening} {d d' d₁ d₂ : Device} {x : Happening}

theorem Story.append (h : Story may identity config hs d) (hg : Goes may hs d more d') :
    Story may identity config (hs ++ more) d' := by
  induction hg with
  | rest => simpa using h
  | snoc _ hx ih =>
    rw [← List.append_assoc]
    exact ih.snoc hx
  | abandoned _ caller hm ih => exact ih.abandoned caller hm

/-- A life is a story in which no call is abandoned. -/
theorem Life.story (h : Life identity config hs d) :
    Story (fun _ _ => False) identity config hs d := by
  induction h with
  | created h => exact .created h
  | snoc _ hx ih => exact ih.snoc hx

theorem Story.mono {more : Device → Nat → Prop} (hm : ∀ d caller, may d caller → more d caller)
    (h : Story may identity config hs d) : Story more identity config hs d := by
  induction h with
  | created h => exact .created h
  | snoc _ hx ih => exact ih.snoc hx
  | abandoned _ caller hc ih => exact ih.abandoned caller (hm _ _ hc)

theorem story_spawned (may : Device → Nat → Prop) :
    Story may ⟨"default", "dev"⟩ {} [.entered 0 (.configure {} .empty), .granted,
      .returned (.configure {} .empty)] spawned :=
  life_spawned.story.mono nofun

/-! ## The line -/

/-- Only the call at the head of the line can have had its turn. -/
def IsOrdered (d : Device) : Prop := ∀ q ∈ d.line.tail, q.progress = .inLine

theorem IsOrdered.eq_head (h : d.IsOrdered) {p q : Pending} {rest : List Pending}
    (hl : d.line = p :: rest) (hq : q ∈ d.line) (hp : q.progress ≠ .inLine) : q = p := by
  rw [hl] at hq
  rcases List.mem_cons.mp hq with first | later
  · exact first
  · exact absurd (h q (by simpa [hl] using later)) hp

theorem IsOrdered.enter (h : d.IsOrdered) (caller : Nat) (call : Device.Call) :
    (d.enter caller call).IsOrdered := by
  intro q hq
  cases hl : d.line with
  | nil => simp [Device.enter, hl] at hq
  | cons p rest =>
    simp only [Device.enter, hl, List.cons_append, List.tail_cons, List.mem_append,
      List.mem_singleton] at hq
    rcases hq with behind | rfl
    · exact h q (by simpa [hl] using behind)
    · rfl

theorem IsOrdered.grant (h : d.IsOrdered) : d.grant.IsOrdered := by
  unfold Device.grant
  split
  · rename_i hl
    intro q hq
    exact h q (by simpa [hl] using hq)
  · exact h

theorem IsOrdered.complete (h : d.IsOrdered) : d.complete.IsOrdered := by
  have behind : d.complete.line = d.line.tail := by
    unfold Device.complete
    split <;> simp [*]
  intro q hq
  rw [behind] at hq
  exact h q (List.mem_of_mem_tail hq)

theorem IsOrdered.abandon (h : d.IsOrdered) (caller : Nat) : (d.abandon caller).IsOrdered := by
  intro q hq
  cases hl : d.line with
  | nil => simp [Device.abandon, hl] at hq
  | cons p rest =>
    have behind : q ∈ rest := by
      simp only [Device.abandon, hl, List.filter_cons] at hq
      split at hq
      · exact (List.mem_filter.mp hq).1
      · exact (List.mem_filter.mp (List.mem_of_mem_tail hq)).1
    exact h q (by simpa [hl] using behind)

theorem line_abandon (d : Device) (caller : Nat) :
    (d.abandon caller).line = d.line.filter fun p => p.caller != caller := rfl

/-- What has had its turn after an abandonment has had it before. -/
theorem IsOrdered.head_abandon (h : d.IsOrdered) {caller : Nat} {p : Pending}
    {rest : List Pending} (hl : (d.abandon caller).line = p :: rest) (hp : p.progress ≠ .inLine) :
    ∃ more, d.line = p :: more := by
  have kept : p ∈ (d.abandon caller).line := by simp [hl]
  have here : p ∈ d.line := (List.mem_filter.mp kept).1
  cases hd : d.line with
  | nil => simp [hd] at here
  | cons q more =>
    obtain rfl := h.eq_head hd here hp
    exact ⟨more, rfl⟩

theorem Happens.isOrdered (hx : Happens hs d x d') (h : d.IsOrdered) : d'.IsOrdered := by
  cases hx with
  | entered caller call => exact h.enter caller call
  | granted => exact h.grant
  | returned => exact h.complete
  | asked _ _ _ hv => cases hv <;> exact h
  | ended => exact h
  | disposed =>
    intro q hq
    rw [dispose, line_stop] at hq
    exact h q hq

theorem Story.isOrdered (h : Story may identity config hs d) : d.IsOrdered := by
  induction h with
  | created h =>
    obtain rfl := eq_of_create h
    exact nofun
  | snoc _ hx ih => exact hx.isOrdered ih
  | abandoned _ caller _ ih => exact ih.abandon caller

/-! ## What a device holds -/

/-- What the loops of a device have been given. -/
def specs (d : Device) : List (DeviceSpec × Status.Snapshot) :=
  d.loops.map fun l => (l.spec, l.initial)

/-- A flag of a loop is no part of what it was given. -/
theorem map_given_modify {f : Loop → Loop}
    (h : ∀ l, (f l).spec = l.spec ∧ (f l).initial = l.initial) (loops : List Loop) (i : Nat) :
    (loops.modify i f).map (fun l => (l.spec, l.initial)) =
      loops.map fun l => (l.spec, l.initial) := by
  induction loops generalizing i with
  | nil => cases i <;> rfl
  | cons l loops ih => cases i <;> simp [h, ih]

@[simp] theorem specs_stop (d : Device) : d.stop.specs = d.specs := by
  unfold stop
  cases d.signal with
  | none => rfl
  | some loop =>
    refine map_given_modify ?_ d.loops loop
    exact fun _ => ⟨rfl, rfl⟩

@[simp] theorem specs_endLoop (d : Device) (loop : Nat) : (d.endLoop loop).specs = d.specs := by
  refine map_given_modify ?_ d.loops loop
  exact fun _ => ⟨rfl, rfl⟩

theorem hasEnded_grant (d : Device) (k : Nat) : d.grant.hasEnded k = d.hasEnded k := by
  unfold grant
  split
  · exact hasEnded_stop k
  · rfl

theorem specs_grant (d : Device) : d.grant.specs = d.specs := by
  unfold grant
  split
  · exact specs_stop d
  · rfl

/-- What a returning call leaves of the loops. -/
theorem specs_complete {p : Pending} {rest : List Pending} (hl : d.line = p :: rest) :
    d.complete.specs = d.specs ++ configured [.returned p.call] := by
  obtain ⟨caller, call, progress⟩ := p
  unfold complete
  rw [hl]
  cases call with
  | shutdown => exact (List.append_nil _).symm
  | configure spec initial => simp [specs, spawn, configured]

theorem config_stop (d : Device) : d.stop.config = d.config := by
  unfold stop
  cases d.signal <;> rfl

theorem Serves.unchanged {loop : Nat} {call : Program.Call Resync.effects}
    (h : d.Serves loop call d') :
    d'.config = d.config ∧ d'.loops = d.loops := by
  cases h <;> exact ⟨rfl, rfl⟩

theorem Happens.config_eq (hx : Happens hs d x d') : d'.config = d.config := by
  cases hx with
  | granted =>
    unfold grant
    split
    · exact config_stop d
    · rfl
  | @returned p rest hl hr =>
    obtain ⟨caller, call, progress⟩ := p
    unfold complete
    rw [hl]
    cases call <;> rfl
  | asked _ _ _ hv => exact hv.unchanged.1
  | disposed => exact config_stop d
  | _ => rfl

theorem Story.config_eq (h : Story may identity config hs d) : d.config = config := by
  induction h with
  | created h =>
    obtain rfl := eq_of_create h
    rfl
  | snoc _ hx ih => rw [hx.config_eq, ih]
  | abandoned _ _ _ ih => exact ih

theorem configured_append : configured (before ++ after) = configured before ++ configured after :=
  List.filterMap_append

/-- The loops of a device are those of the calls to configure that have returned. -/
theorem Story.specs_eq (h : Story may identity config hs d) : d.specs = configured hs := by
  induction h with
  | created h =>
    obtain rfl := eq_of_create h
    rfl
  | @snoc hs d d' x h hx ih =>
    rw [configured_append, ← ih]
    cases hx with
    | entered caller call => exact (List.append_nil _).symm
    | granted => rw [specs_grant]; exact (List.append_nil _).symm
    | returned hl hr => exact specs_complete hl
    | asked _ _ _ hv => rw [specs, hv.unchanged.2]; exact (List.append_nil _).symm
    | ended => rw [specs_endLoop]; exact (List.append_nil _).symm
    | disposed => exact (specs_stop d).trans (List.append_nil _).symm
  | abandoned _ _ _ ih => exact ih

theorem Story.length_loops (h : Story may identity config hs d) :
    d.loops.length = (configured hs).length := by
  rw [← h.specs_eq, specs, List.length_map]

/-- What a loop was given is what its configure was called with. -/
theorem Story.settings_eq (h : Story may identity config hs d) {k : Nat} {l : Loop}
    {spec : DeviceSpec} {initial : Status.Snapshot} (hl : d.loops[k]? = some l)
    (hk : (configured hs)[k]? = some (spec, initial)) :
    l.settings d.config = ⟨config, spec, initial⟩ := by
  rw [← h.specs_eq, specs, List.getElem?_map, hl] at hk
  obtain ⟨rfl, rfl⟩ := Prod.mk.inj (Option.some.inj hk)
  rw [Loop.settings, h.config_eq]

/-- The loop that makes a call or ends. -/
def Happening.loop? : Happening → Option Nat
  | .asked k _ => some k
  | .ended k => some k
  | _ => none

theorem Happens.lt_of_loop? {k : Nat} (hx : Happens hs d x d') (hk : x.loop? = some k) :
    k < d.loops.length := by
  cases hx with
  | asked hl =>
    obtain rfl := Option.some.inj hk
    exact (List.getElem?_eq_some_iff.mp hl).1
  | ended hl =>
    obtain rfl := Option.some.inj hk
    exact (List.getElem?_eq_some_iff.mp hl).1
  | _ => cases hk

theorem Happens.canReturn {call : Device.Call} (hx : Happens hs d (.returned call) d') :
    d.canReturn := by
  generalize hr : Happening.returned call = x at hx
  cases hx with
  | returned _ h => exact h
  | _ => cases hr

theorem Story.lt_of_mem {k : Nat} (h : Story may identity config hs d) (hm : x ∈ hs)
    (hk : x.loop? = some k) : k < (configured hs).length := by
  induction h with
  | created => cases hm
  | @snoc hs d d' y h hx ih =>
    rw [configured_append, List.length_append]
    rcases List.mem_append.mp hm with earlier | last
    · exact Nat.lt_add_right _ (ih earlier)
    · obtain rfl := List.mem_singleton.mp last
      exact Nat.lt_add_right _ (h.length_loops ▸ hx.lt_of_loop? hk)
  | abandoned _ _ _ ih => exact ih hm

theorem callsOf_append (k : Nat) :
    callsOf k (before ++ after) = callsOf k before ++ callsOf k after := List.filterMap_append

theorem mem_callsOf {k : Nat} {call : Program.Call Resync.effects} :
    call ∈ callsOf k hs ↔ .asked k call ∈ hs := by
  unfold callsOf
  rw [List.mem_filterMap]
  constructor
  · rintro ⟨x, hx, hc⟩
    cases x with
    | asked j other =>
      by_cases same : j = k
      · simp only [same, if_true, Option.some.injEq] at hc
        rwa [← same, ← hc]
      · simp [same] at hc
    | _ => cases hc
  · intro h
    exact ⟨_, h, if_pos rfl⟩

/-- A loop that has not been spawned has made no calls. -/
theorem Story.callsOf_eq_nil {k : Nat} (h : Story may identity config hs d)
    (hk : (configured hs).length ≤ k) : callsOf k hs = [] := by
  refine List.filterMap_eq_nil_iff.mpr fun x hx => ?_
  cases x with
  | asked j call =>
    have early := h.lt_of_mem hx rfl
    exact if_neg (by omega)
  | _ => rfl

/-! ## Which loops have ended -/

/-- Whatever happens, but for the end of a loop and the return of a configure, the same loops have
not ended. -/
theorem Happens.hasEnded_eq (hx : Happens hs d x d') (hr : configured [x] = [])
    (he : ∀ k, x ≠ .ended k) (k : Nat) : d'.hasEnded k = d.hasEnded k := by
  cases hx with
  | entered => rfl
  | granted => exact hasEnded_grant d k
  | @returned p rest hl =>
    obtain ⟨caller, call, progress⟩ := p
    cases call with
    | configure => cases hr
    | shutdown => simp only [complete, hl, hasEnded]
  | asked _ _ _ hv => simp only [hasEnded, hv.unchanged.2]
  | ended => exact absurd rfl (he _)
  | disposed => exact hasEnded_stop k

/-- A configure that returns leaves one loop that has not ended, the one that it spawns. -/
theorem Story.hasEnded_of_configure {p : Pending} {rest : List Pending} {spec : DeviceSpec}
    {initial : Status.Snapshot} (h : Story may identity config hs d) (hl : d.line = p :: rest)
    (hc : p.call = .configure spec initial) (k : Nat) :
    d.complete.hasEnded k = if k = (configured hs).length then false else d.hasEnded k := by
  obtain ⟨caller, call, progress⟩ := p
  obtain rfl := hc
  have spawned : d.complete.hasEnded k = (d.spawn spec initial).hasEnded k := by
    simp only [complete, hl, hasEnded]
  rw [spawned, hasEnded_spawn, h.length_loops]

/-- The loops that have ended are those of which this has happened. -/
theorem Story.hasEnded_iff (h : Story may identity config hs d) {k : Nat}
    (hk : k < (configured hs).length) : d.hasEnded k = true ↔ .ended k ∈ hs := by
  induction h with
  | created => exact absurd hk (Nat.not_lt_zero k)
  | abandoned _ _ _ ih => exact ih hk
  | @snoc hs d d' x h hx ih =>
    rw [configured_append, List.length_append] at hk
    rw [List.mem_append, List.mem_singleton]
    by_cases he : ∃ j, x = .ended j
    · obtain ⟨j, rfl⟩ := he
      cases hx
      by_cases same : k = j
      · subst same
        simp [hasEnded_endLoop_self]
      · rw [hasEnded_endLoop_of_ne d same, ih (by simpa [configured] using hk)]
        simp [same]
    · have other : ∀ j, x ≠ .ended j := fun j hj => he ⟨j, hj⟩
      rw [or_iff_left (Ne.symm (other k))]
      cases hr : configured [x] with
      | nil =>
        rw [hx.hasEnded_eq hr other, ih (by simpa [hr] using hk)]
      | cons given more =>
        cases hx with
        | @returned p rest hl =>
          obtain ⟨caller, call, progress⟩ := p
          cases call with
          | shutdown => cases hr
          | configure spec initial =>
            rw [h.hasEnded_of_configure hl rfl]
            split
            · rename_i new
              have unseen : .ended k ∉ hs := fun hm =>
                absurd (h.lt_of_mem hm rfl) (by omega)
              simp [unseen]
            · rename_i old
              have known : k < (configured hs).length + 1 := hk
              exact ih (by omega)
        | _ => cases hr

/-! ## The calls of the loops -/

theorem callsOf_asked (k j : Nat) (call : Program.Call Resync.effects) :
    callsOf k (hs ++ [.asked j call]) = callsOf k hs ++ if j = k then [call] else [] := by
  rw [callsOf_append]
  by_cases h : j = k <;> simp [callsOf, h]

/-- A loop makes a call. -/
def Happening.isAsked : Happening → Bool
  | .asked _ _ => true
  | _ => false

theorem callsOf_of_not_asked (k : Nat) (hx : x.isAsked = false) :
    callsOf k (hs ++ [x]) = callsOf k hs := by
  rw [callsOf_append]
  cases x with
  | asked j call => cases hx
  | _ => exact List.append_nil _

theorem begins_nil (s : Settings) : s.Begins [] := ⟨[], some .launched, .nil⟩

/-- Every loop makes the calls of a loop with its own spec. -/
theorem Story.begins (h : Story may identity config hs d) {k : Nat} {spec : DeviceSpec}
    {initial : Status.Snapshot} (hk : (configured hs)[k]? = some (spec, initial)) :
    Settings.Begins ⟨config, spec, initial⟩ (callsOf k hs) := by
  induction h with
  | created => cases hk
  | abandoned _ _ _ ih => exact ih hk
  | @snoc hs d d' x h hx ih =>
    rw [configured_append] at hk
    cases hc : x.isAsked with
    | false =>
      rw [callsOf_of_not_asked k hc]
      by_cases early : k < (configured hs).length
      · rw [List.getElem?_append_left early] at hk
        exact ih hk
      · rw [h.callsOf_eq_nil (Nat.not_lt.mp early)]
        exact begins_nil _
    | true =>
      cases hx with
      | @asked j l call _ hl ha hb hv =>
        have given : (configured hs)[k]? = some (spec, initial) := by simpa [configured] using hk
        rw [callsOf_asked]
        by_cases same : j = k
        · subst same
          rw [if_pos rfl, ← h.settings_eq hl given]
          exact hb
        · rw [if_neg same, List.append_nil]
          exact ih given
      | _ => cases hc

/-- A loop that has ended has come to the end of its last phase, and makes no calls any more. -/
theorem Story.loops_of_ended (h : Story may identity config hs d) {k : Nat} {spec : DeviceSpec}
    {initial : Status.Snapshot} (hk : (configured hs)[k]? = some (spec, initial))
    (he : .ended k ∈ hs) :
    Phase.launched.Loops ⟨config, spec, initial⟩ (callsOf k hs) none := by
  induction h with
  | created => cases hk
  | abandoned _ _ _ ih => exact ih hk he
  | @snoc hs d d' x h hx ih =>
    by_cases early : .ended k ∈ hs
    · have given : (configured hs)[k]? = some (spec, initial) := by
        have spawned := h.lt_of_mem early rfl
        rwa [configured_append, List.getElem?_append_left spawned] at hk
      have finished := (h.hasEnded_iff (h.lt_of_mem early rfl)).mpr early
      rw [callsOf_append]
      have silent : callsOf k [x] = [] := by
        cases hx with
        | @asked j l call _ hl ha =>
          have other : j ≠ k := by
            rintro rfl
            cases (hasEnded_eq_false_iff.mpr ⟨l, hl, ha⟩).symm.trans finished
          simp [callsOf, other]
        | _ => rfl
      rw [silent, List.append_nil]
      exact ih given early
    · have last : x = .ended k := by simpa [early, eq_comm] using he
      subst last
      rw [callsOf_of_not_asked k rfl]
      have given : (configured hs)[k]? = some (spec, initial) := by simpa [configured] using hk
      cases hx with
      | ended hl ha hb =>
        rw [← h.settings_eq hl given]
        exact hb

end Device
end GattSync
