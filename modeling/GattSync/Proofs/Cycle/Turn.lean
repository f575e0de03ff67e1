import GattSync.Proofs.Cycle.Walk

/-!
# Turns of a controller

A controller has one turn for each event that it is given. `Controller.Step` says all that it can do
in a turn, one constructor for each way to go: the calls that it makes with their answers, and the
state that it is left in. These are exactly the runs of its program (`runs_handle_iff`), so what is
to be proved of a turn is proved by cases.

A history is the sequence of the turns that a controller has had (`Controller.History`). A
controller that works off a queue of events has had one turn for each event of a beginning of the
queue (`exists_history_of_runs`).
-/

namespace GattSync.Cycle

open Program

/-- A request to the session that has been answered. -/
def asked (r : Session.Request String) (x : r.Answer) : Call effects := ⟨.session r, some x⟩

theorem runs_asked {α : Type} (r : Session.Request String) (x : r.Answer) {f : r.Answer → Prog α}
    {rest : List (Call effects)} {a : α} (h : (f x).Runs rest a) :
    (Cycle.ask r >>= f).Runs (asked r x :: rest) a :=
  runs_perform_bind_iff.mpr ⟨x, rest, rfl, h⟩

namespace Controller

variable {plan : Plan} {c c' : Controller} {e : Event} {calls : List (Call effects)}

/-! ## What a controller does in a turn -/

/-- The peripheral is seen while it is looked for. -/
def selects (plan : Plan) (c : Controller) (p : Peripheral) (advertisement : Advertisement) :
    Bool :=
  c.connection == .scanning && plan.spec.protocol.isMatch advertisement.localName p.address

/-- The completion of a connection to this peripheral is of interest. -/
def awaits (c : Controller) (p : Peripheral) : Bool :=
  c.connection.awaitsConnection && c.isTarget p

/-- The peripheral is the selected one, and a connection to it has been requested or is there. -/
def isLinkedTo (c : Controller) (p : Peripheral) : Bool :=
  (c.connection == .connecting || c.connection == .connected) && c.isTarget p

/-- The event is of no concern to the controller. -/
def passesOver (plan : Plan) (c : Controller) : Event → Bool
  | .adapterState state =>
    state.isPoweredOn && !(c.connection == .idle || c.connection == .scanning)
  | .discovered p advertisement _ => !c.selects plan p advertisement
  | .connected p _ => !c.awaits p
  | .disconnected p _ => !c.isLinkedTo p

/-- The state after a scan has been asked for. -/
def scanned (c : Controller) : Except Error Unit → Controller
  | .ok _ => { c with connection := .scanning }
  | .error _ => c

/-- What a controller can do in one turn. -/
inductive Step (plan : Plan) (c : Controller) : Event → List (Call effects) → Controller → Prop
  | passedOver {e : Event} (h : c.passesOver plan e) : Step plan c e [] c
  /-- The adapter is on, and nothing has been selected. -/
  | searched (h : c.connection = .idle ∨ c.connection = .scanning) (x : Except Error Unit) :
    Step plan c (.adapterState .poweredOn) [asked (.scan []) x] (c.scanned x)
  /-- The adapter is not on. -/
  | paused {state : AdapterState} (h : state.isPoweredOn = false) (x : Except Error Unit) :
    Step plan c (.adapterState state) [asked .stopScanning x] c
  | selected {p : Peripheral} {advertisement : Advertisement} {rssi : Option Int}
      (h : c.selects plan p advertisement) (x : Except Error Unit) :
    Step plan c (.discovered p advertisement rssi)
      [asked .stopScanning x, asked (.connect p) (.ok ())]
      { c with connection := .connecting, target := some p }
  /-- A connection could not be requested. -/
  | refused {p : Peripheral} {advertisement : Advertisement} {rssi : Option Int}
      (h : c.selects plan p advertisement) (x : Except Error Unit) (fault : Error)
      (y : Except Error Unit) :
    Step plan c (.discovered p advertisement rssi)
      [asked .stopScanning x, asked (.connect p) (.error fault), asked (.scan []) y]
      (scanned { c with connection := .connecting, target := none } y)
  /-- A connection has failed. -/
  | failed {p : Peripheral} {text : String} (h : c.awaits p) (x : Except Error Unit) :
    Step plan c (.connected p (some text)) [asked (.scan []) x]
      (scanned { c with target := none } x)
  /-- A connection has been processed and released. -/
  | processed {p : Peripheral} {walk : List (Call effects)} (h : c.awaits p)
      (hw : (plan.process p).Runs walk ()) (x : Except Error Unit) :
    Step plan c (.connected p none) (walk ++ [asked (.cancelConnection p) x])
      { c with connection := .connected, target := some p }
  | finished {p : Peripheral} {text : Option String} (h : c.isLinkedTo p) :
    Step plan c (.disconnected p text) (if c.isFinished then [] else [⟨.finish, some ()⟩])
      { c with connection := .disconnected, isFinished := true }

theorem runs_startScanning_iff :
    c.startScanning.Runs calls c' ↔ ∃ x, calls = [asked (.scan []) x] ∧ c' = c.scanned x := by
  constructor
  · intro h
    obtain ⟨x, _, rfl, hx⟩ := runs_perform_bind_iff.mp h
    cases x <;> obtain ⟨rfl, rfl⟩ := runs_done_iff.mp hx <;> exact ⟨_, rfl, rfl⟩
  · rintro ⟨x, rfl, rfl⟩
    refine runs_perform_bind_iff.mpr ⟨x, [], rfl, ?_⟩
    cases x <;> exact .done _

/-! ## Turns and runs -/

theorem Step.of_onAdapterState {state : AdapterState}
    (h : (c.onAdapterState state).Runs calls c') : c.Step plan (.adapterState state) calls c' := by
  unfold onAdapterState at h
  cases hs : state.isPoweredOn with
  | false =>
    rw [hs] at h
    obtain ⟨x, _, rfl, hd⟩ := runs_perform_bind_iff.mp h
    obtain ⟨rfl, rfl⟩ := runs_done_iff.mp hd
    exact .paused hs x
  | true =>
    obtain rfl : state = .poweredOn := by
      cases state with
      | poweredOn => rfl
      | _ => cases hs
    cases hc : c.connection with
    | idle =>
      simp only [hs, hc, if_true] at h
      obtain ⟨x, rfl, rfl⟩ := runs_startScanning_iff.mp h
      exact .searched (.inl hc) x
    | scanning =>
      simp only [hs, hc, if_true] at h
      obtain ⟨x, rfl, rfl⟩ := runs_startScanning_iff.mp h
      exact .searched (.inr hc) x
    | _ =>
      simp only [hs, hc, if_true] at h
      obtain ⟨rfl, rfl⟩ := runs_done_iff.mp h
      exact .passedOver (by simp [passesOver, hs, hc])

theorem Step.of_onDiscovered {p : Peripheral} {advertisement : Advertisement} {rssi : Option Int}
    (h : (c.onDiscovered plan p advertisement).Runs calls c') :
    c.Step plan (.discovered p advertisement rssi) calls c' := by
  unfold onDiscovered at h
  cases hs : c.selects plan p advertisement with
  | false =>
    rw [if_neg (by simpa [selects] using hs)] at h
    obtain ⟨rfl, rfl⟩ := runs_done_iff.mp h
    exact .passedOver (by simp [passesOver, hs])
  | true =>
    rw [if_pos (by simpa [selects] using hs)] at h
    obtain ⟨x, _, rfl, hp⟩ := runs_perform_bind_iff.mp h
    obtain ⟨y, _, rfl, hq⟩ := runs_perform_bind_iff.mp hp
    cases y with
    | ok done =>
      obtain ⟨rfl, rfl⟩ := runs_done_iff.mp hq
      exact .selected hs x
    | error fault =>
      obtain ⟨z, rfl, rfl⟩ := runs_startScanning_iff.mp hq
      exact .refused hs x fault z

theorem Step.of_onConnected {p : Peripheral} {error : Option String}
    (h : (c.onConnected plan p error).Runs calls c') :
    c.Step plan (.connected p error) calls c' := by
  unfold onConnected at h
  cases ha : c.awaits p with
  | false =>
    rw [if_neg (by simpa [awaits] using ha)] at h
    obtain ⟨rfl, rfl⟩ := runs_done_iff.mp h
    exact .passedOver (by simp [passesOver, ha])
  | true =>
    rw [if_pos (by simpa [awaits] using ha)] at h
    cases error with
    | some text =>
      obtain ⟨x, rfl, rfl⟩ := runs_startScanning_iff.mp h
      exact .failed ha x
    | none =>
      obtain ⟨walk, _, _, rfl, hw, hr⟩ := runs_bind_iff.mp h
      obtain ⟨x, _, rfl, hd⟩ := runs_perform_bind_iff.mp hr
      obtain ⟨rfl, rfl⟩ := runs_done_iff.mp hd
      exact .processed ha hw x

theorem Step.of_onDisconnected {p : Peripheral} {text : Option String}
    (h : (c.onDisconnected p).Runs calls c') : c.Step plan (.disconnected p text) calls c' := by
  unfold onDisconnected at h
  cases hl : c.isLinkedTo p with
  | false =>
    rw [if_neg (by simpa [isLinkedTo] using hl)] at h
    obtain ⟨rfl, rfl⟩ := runs_done_iff.mp h
    exact .passedOver (by simp [passesOver, hl])
  | true =>
    rw [if_pos (by simpa [isLinkedTo] using hl)] at h
    have step : c.Step plan (.disconnected p text) _ _ := .finished hl
    cases hf : c.isFinished with
    | false =>
      simp only [hf] at h step
      obtain ⟨x, _, rfl, hd⟩ := runs_perform_bind_iff.mp h
      obtain ⟨rfl, rfl⟩ := runs_done_iff.mp hd
      exact step
    | true =>
      simp only [hf] at h step
      obtain ⟨rfl, rfl⟩ := runs_done_iff.mp h
      exact step

/-- An event that is of no concern leaves everything as it is. -/
theorem runs_handle_of_passesOver (h : c.passesOver plan e) : (c.handle plan e).Runs [] c := by
  cases e with
  | adapterState state =>
    simp only [passesOver, Bool.and_eq_true] at h
    show (c.onAdapterState state).Runs [] c
    rw [onAdapterState, if_pos h.1]
    cases hc : c.connection <;> first | exact .done c | simp [hc] at h
  | discovered p advertisement rssi =>
    simp only [passesOver, Bool.not_eq_true'] at h
    show (c.onDiscovered plan p advertisement).Runs [] c
    rw [onDiscovered, if_neg (by simpa [selects] using h)]
    exact .done c
  | connected p error =>
    simp only [passesOver, Bool.not_eq_true'] at h
    show (c.onConnected plan p error).Runs [] c
    rw [onConnected.eq_def, if_neg (by simpa [awaits] using h)]
    exact .done c
  | disconnected p text =>
    simp only [passesOver, Bool.not_eq_true'] at h
    show (c.onDisconnected p).Runs [] c
    rw [onDisconnected, if_neg (by simpa [isLinkedTo] using h)]
    exact .done c

theorem Step.runs_handle (h : c.Step plan e calls c') : (c.handle plan e).Runs calls c' := by
  cases h with
  | passedOver h => exact runs_handle_of_passesOver h
  | searched h x =>
    show (c.onAdapterState .poweredOn).Runs _ _
    have hs : c.startScanning.Runs _ _ := runs_startScanning_iff.mpr ⟨x, rfl, rfl⟩
    rcases h with hc | hc <;> simpa [onAdapterState, AdapterState.isPoweredOn, hc] using hs
  | @paused state h x =>
    show (c.onAdapterState state).Runs _ _
    rw [onAdapterState, if_neg (by simp [h])]
    exact runs_asked .stopScanning x (.done c)
  | @selected p advertisement _ h x =>
    show (c.onDiscovered plan p advertisement).Runs _ _
    rw [onDiscovered, if_pos (by simpa [selects] using h)]
    exact runs_asked .stopScanning x (runs_asked (.connect p) (.ok ()) (.done _))
  | @refused p advertisement _ h x fault y =>
    show (c.onDiscovered plan p advertisement).Runs _ _
    rw [onDiscovered, if_pos (by simpa [selects] using h)]
    exact runs_asked .stopScanning x
      (runs_asked (.connect p) (.error fault) (runs_startScanning_iff.mpr ⟨y, rfl, rfl⟩))
  | @failed p text h x =>
    show (c.onConnected plan p (some text)).Runs _ _
    rw [onConnected, if_pos (by simpa [awaits] using h)]
    exact runs_startScanning_iff.mpr ⟨x, rfl, rfl⟩
  | @processed p walk h hw x =>
    show (c.onConnected plan p none).Runs _ _
    rw [onConnected, if_pos (by simpa [awaits] using h)]
    exact runs_bind_iff.mpr ⟨walk, (), _, rfl, hw, runs_asked (.cancelConnection p) x (.done _)⟩
  | @finished p text h =>
    show (c.onDisconnected p).Runs _ _
    rw [onDisconnected, if_pos (by simpa [isLinkedTo] using h)]
    cases hf : c.isFinished with
    | false => exact runs_perform_bind_iff.mpr ⟨(), [], rfl, .done _⟩
    | true => exact .done _

/-- What a controller does in a turn are the runs of its program. -/
theorem runs_handle_iff : (c.handle plan e).Runs calls c' ↔ c.Step plan e calls c' := by
  constructor
  · intro h
    cases e with
    | adapterState state => exact .of_onAdapterState h
    | discovered p advertisement rssi => exact .of_onDiscovered h
    | connected p error => exact .of_onConnected h
    | disconnected p text => exact .of_onDisconnected h
  · exact Step.runs_handle

/-! ## Histories -/

/-- A turn that a controller has had. -/
structure Turn where
  before : Controller
  event : Event
  calls : List (Call effects)
  after : Controller

/-- From the first state to the last one, the controller has had these turns. -/
inductive History (plan : Plan) (c : Controller) : List Turn → Controller → Prop
  | nil : History plan c [] c
  | snoc {turns : List Turn} {before after : Controller} {e : Event} {calls : List (Call effects)}
      (h : History plan c turns before) (ht : (before.handle plan e).Runs calls after) :
    History plan c (turns ++ [⟨before, e, calls, after⟩]) after

theorem History.append {first rest : List Turn} {c₁ c₂ : Controller}
    (h : History plan c first c₁) (hr : History plan c₁ rest c₂) :
    History plan c (first ++ rest) c₂ := by
  induction hr with
  | nil => simpa using h
  | snoc _ ht ih =>
    rw [← List.append_assoc]
    exact ih.snoc ht

/-- A history up to any of its turns is a history. -/
theorem History.split {turns first rest : List Turn} {u : Turn} (h : History plan c turns c')
    (hs : turns = first ++ u :: rest) :
    History plan c first u.before ∧ u.before.Step plan u.event u.calls u.after ∧
      History plan u.after rest c' := by
  induction h generalizing rest with
  | nil => exact absurd hs (by simp)
  | @snoc turns before after e calls h ht ih =>
    rcases List.eq_nil_or_concat rest with rfl | ⟨rest, last, rfl⟩
    · obtain ⟨rfl, hu⟩ := List.append_inj' hs rfl
      obtain rfl := List.cons.inj hu |>.1
      exact ⟨h, runs_handle_iff.mp ht, .nil⟩
    · have hs : turns ++ [⟨before, e, calls, after⟩] = (first ++ u :: rest) ++ [last] := by
        simpa using hs
      obtain ⟨hturns, hlast⟩ := List.append_inj' hs rfl
      obtain rfl := List.cons.inj hlast |>.1
      obtain ⟨hf, hu, hr⟩ := ih hturns
      refine ⟨hf, hu, ?_⟩
      simpa using hr.snoc ht

theorem History.step_of_mem {turns : List Turn} {u : Turn} (h : History plan c turns c')
    (hu : u ∈ turns) : u.before.Step plan u.event u.calls u.after := by
  obtain ⟨first, rest, hs⟩ := List.append_of_mem hu
  exact (h.split hs).2.1

/-- What every turn keeps holds after every history. -/
theorem History.preserves {P : Controller → Prop} {turns : List Turn} (h : History plan c turns c')
    (hc : P c)
    (step : ∀ {before after e calls}, before.Step plan e calls after → P before → P after) :
    P c' := by
  induction h with
  | nil => exact hc
  | snoc _ ht ih => exact step (runs_handle_iff.mp ht) ih

/-- A controller that works off a queue has had one turn for each event of a beginning of it, and
has made no other calls. -/
theorem exists_history_of_runs {events : List Event} (h : (run plan c events).Runs calls c') :
    ∃ turns, History plan c turns c' ∧ turns.flatMap (·.calls) = calls ∧
      turns.map (·.event) <+: events := by
  induction events generalizing c calls with
  | nil =>
    obtain ⟨rfl, rfl⟩ := runs_done_iff.mp h
    exact ⟨[], .nil, rfl, List.nil_prefix⟩
  | cons e events ih =>
    obtain ⟨first, c₁, rest, rfl, he, hr⟩ := runs_bind_iff.mp h
    have turn : History plan c [⟨c, e, first, c₁⟩] c₁ := History.nil.snoc he
    cases hd : c₁.connection.isDone with
    | true =>
      rw [if_pos hd] at hr
      obtain ⟨rfl, rfl⟩ := runs_done_iff.mp hr
      exact ⟨_, turn, by simp, by simp⟩
    | false =>
      rw [if_neg (by simp [hd])] at hr
      obtain ⟨turns, hh, rfl, hp⟩ := ih hr
      exact ⟨_, turn.append hh, by simp, by simpa using hp⟩

/-! ## Histories that come about -/

/-- A controller can come to request a connection to any peripheral that the spec means. -/
theorem exists_history_connecting (plan : Plan) (p : Peripheral) (advertisement : Advertisement)
    (hm : plan.spec.protocol.isMatch advertisement.localName p.address) :
    ∃ turns, History plan {} turns { connection := .connecting, target := some p } := by
  have search : Step plan {} (.adapterState .poweredOn) [asked (.scan []) (.ok ())]
      { connection := .scanning } := .searched (.inl rfl) (.ok ())
  have select : Step plan { connection := .scanning } (.discovered p advertisement none)
      [asked .stopScanning (.ok ()), asked (.connect p) (.ok ())]
      { connection := .connecting, target := some p } :=
    .selected (by simp [selects, hm]) (.ok ())
  exact ⟨_, (History.nil.snoc search.runs_handle).snoc select.runs_handle⟩

/-- And it can come to be connected to it, also when nothing of it can be discovered. -/
theorem exists_history_connected (plan : Plan) (p : Peripheral) (advertisement : Advertisement)
    (hm : plan.spec.protocol.isMatch advertisement.localName p.address) :
    ∃ turns, History plan {} turns { connection := .connected, target := some p } := by
  obtain ⟨turns, h⟩ := exists_history_connecting plan p advertisement hm
  have walk : (plan.process p).Runs [asked (.setMtu p plan.mtu) (.ok ()),
      asked (.discoverServices p) (.error .notConnected)] () :=
    runs_asked _ _ (runs_asked (.discoverServices p) (.error .notConnected) (.done ()))
  have process : Step plan { connection := .connecting, target := some p } (.connected p none) _
      { connection := .connected, target := some p } :=
    .processed (by simp [awaits, Connection.awaitsConnection, isTarget]) walk (.ok ())
  exact ⟨_, h.snoc process.runs_handle⟩

end Controller

/-- A plan that takes any peripheral and accesses nothing of it. -/
def Plan.bare : Plan := { spec := {}, mtu := 500, window := .zero }

/-- A peripheral that has told no name. -/
def nameless : Peripheral := ⟨"dev-1", "AA:BB:CC:DD:EE:FF", none⟩

end GattSync.Cycle
