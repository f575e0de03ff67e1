import GattSync.Proofs.Cycle.Coherence
import GattSync.Proofs.Cycle.Requests

/-!
# The order of a controller's requests

What one controller asks of its session, from the first event to the last, comes in a fixed order
(`Orderly`). First it searches: it scans, stops scanning and requests connections, as often as it
takes. Then, once at most, it goes through a connection: the transfer unit, the services, the walk,
and at last the release, which comes whatever has failed before. After that nothing is left but to
stop scanning.

Each part is the work of certain turns. A turn that accepts a connection goes through it and
releases it; any other turn only searches. While a connection is requested, there is no scan until
the request has failed.
-/

namespace GattSync.Cycle.Controller

open Program

variable {plan : Plan} {c c' : Controller} {e : Event} {calls : List (Call effects)}
  {p : Peripheral} {turns : List Turn}

namespace Turn

/-- The peripheral whose connection is accepted in this turn. -/
def accepted? (u : Turn) : Option Peripheral :=
  match u.event with
  | .connected p none => if u.before.awaits p then some p else none
  | _ => none

/-- The connection to this peripheral is told to have failed. -/
def Fails (u : Turn) (p : Peripheral) : Prop :=
  ∃ q text, u.event = .connected q (some text) ∧ q.id = p.id

end Turn

/-- The requests of these turns come in order. -/
structure Orderly (plan : Plan) (turns : List Turn) : Prop where
  /-- A search, at most one connection, and nothing but stopping to scan. -/
  shape : ∃ search connection rest,
    requests (turns.flatMap (·.calls)) = search ++ connection ++ rest ∧
      (∀ r ∈ search, r.IsSearch) ∧ (connection = [] ∨ ∃ p, IsConnection plan p connection) ∧
      ∀ r ∈ rest, r = .stopScanning
  /-- A connection that is accepted is gone through and released at once. -/
  accepts : ∀ u ∈ turns, ∀ p, u.accepted? = some p → IsConnection plan p (requests u.calls)
  searches : ∀ u ∈ turns, u.accepted? = none → ∀ r ∈ requests u.calls, r.IsSearch
  /-- There are as many releases as there are accepted connections, of the same peripherals. -/
  releases : (requests (turns.flatMap (·.calls))).filterMap (·.released?) =
    turns.filterMap (·.accepted?)
  /-- The scan is stopped directly before a connection is requested. -/
  connects : ∀ before p after,
    requests (turns.flatMap (·.calls)) = before ++ .connect p :: after →
      before.getLast? = some .stopScanning
  /-- A connection that could be requested ends the turn, -/
  pauses : ∀ u ∈ turns, ∀ before p after,
    u.calls = before ++ asked (.connect p) (.ok ()) :: after → after = []
  /-- and no later turn scans unless the connection has failed. -/
  waits : ∀ first u middle v last p s x, turns = first ++ u :: (middle ++ v :: last) →
    asked (.connect p) (.ok ()) ∈ u.calls → asked (.scan s) x ∈ v.calls →
      ∃ w ∈ middle ++ [v], w.Fails p

/-! ## The requests of one turn -/

/-- A turn goes through the connection that it accepts. -/
theorem Step.accepts (h : c.Step plan e calls c')
    (ha : (⟨c, e, calls, c'⟩ : Turn).accepted? = some p) :
    IsConnection plan p (requests calls) ∧ c'.connection = .connected := by
  cases h with
  | @processed q walk h hw x =>
    obtain rfl : q = p := by simpa [Turn.accepted?, h] using ha
    exact ⟨isConnection_process hw x, rfl⟩
  | @passedOver e h =>
    cases e with
    | connected q text => cases text <;> simp_all [Turn.accepted?, passesOver]
    | _ => cases ha
  | _ => cases ha

/-- A turn that accepts no connection only searches. -/
theorem Step.searches (h : c.Step plan e calls c')
    (ha : (⟨c, e, calls, c'⟩ : Turn).accepted? = none) : ∀ r ∈ requests calls, r.IsSearch := by
  cases h with
  | processed h _ _ => simp [Turn.accepted?, h] at ha
  | finished _ =>
    rw [requests_finish]
    exact nofun
  | _ => simp [Session.Request.IsSearch]

/-- All calls of a turn that requests a connection. -/
theorem Step.calls_of_connect (h : c.Step plan e calls c') (hm : .connect p ∈ requests calls) :
    (∃ x, calls = [asked .stopScanning x, asked (.connect p) (.ok ())] ∧
      c'.connection = .connecting ∧ c'.target = some p) ∨
    ∃ x fault y, calls =
      [asked .stopScanning x, asked (.connect p) (.error fault), asked (.scan []) y] := by
  cases h with
  | selected _ x =>
    obtain rfl : p = _ := by simpa using hm
    exact .inl ⟨x, rfl, rfl, rfl⟩
  | refused _ x fault y =>
    obtain rfl : p = _ := by simpa using hm
    exact .inr ⟨x, fault, y, rfl⟩
  | processed _ hw x =>
    exact absurd hm (IsConnection.not_mem (isConnection_process hw x) id nofun nofun nofun)
  | finished _ =>
    rw [requests_finish] at hm
    exact nomatch hm
  | _ => simp at hm

theorem eq_stopScanning_of_connect {q : Peripheral}
    {rest before after : List (Session.Request String)}
    (hr : .stopScanning :: .connect q :: rest = before ++ .connect p :: after)
    (hm : .connect p ∉ rest) : before = [.stopScanning] := by
  rw [List.cons_eq_append_iff] at hr
  obtain ⟨-, hr⟩ | ⟨more, rfl, hr⟩ := hr
  · cases hr
  · rw [List.cons_eq_append_iff] at hr
    obtain ⟨rfl, -⟩ | ⟨more, rfl, rfl⟩ := hr
    · rfl
    · exact absurd (by simp) hm

/-- In its turn, a connection is requested once the scan has been stopped. -/
theorem Step.connects (h : c.Step plan e calls c') {before after : List (Session.Request String)}
    (hr : requests calls = before ++ .connect p :: after) : before = [.stopScanning] := by
  have requested : .connect p ∈ requests calls := by simp [hr]
  obtain ⟨x, rfl, -⟩ | ⟨x, fault, y, rfl⟩ := h.calls_of_connect requested
  · have hr : [.stopScanning, .connect p] = before ++ .connect p :: after := hr
    exact eq_stopScanning_of_connect hr List.not_mem_nil
  · have hr : [.stopScanning, .connect p, .scan []] = before ++ .connect p :: after := hr
    exact eq_stopScanning_of_connect hr (by simp)

/-- A connection that could be requested is the last thing in its turn, and it is waited for. -/
theorem Step.pauses (h : c.Step plan e calls c') {before after : List (Call effects)}
    (hr : calls = before ++ asked (.connect p) (.ok ()) :: after) :
    after = [] ∧ c'.connection = .connecting ∧ c'.target = some p := by
  have requested : .connect p ∈ requests calls := by simp [hr]
  obtain ⟨x, rfl, waits⟩ | ⟨x, fault, y, rfl⟩ := h.calls_of_connect requested
  · simp only [asked, List.cons_eq_append_iff] at hr
    obtain ⟨-, hr⟩ | ⟨_, -, ⟨-, hr⟩ | ⟨_, -, hr⟩⟩ := hr
    · cases hr
    · exact ⟨(List.cons.inj hr).2, waits⟩
    · simp at hr
  · simp [List.cons_eq_append_iff, asked] at hr

/-! ## While a connection is waited for -/

/-- A connection to this peripheral has been requested, and it has not failed. -/
def Waits (c : Controller) (p : Peripheral) : Prop :=
  c.connection ≠ .idle ∧ c.connection ≠ .scanning ∧ ∃ t, c.target = some t ∧ t.id = p.id

theorem Waits.id_eq {q : Peripheral} (hw : c.Waits p) (h : c.isTarget q) : q.id = p.id := by
  obtain ⟨-, -, t, ht, hid⟩ := hw
  obtain ⟨u, hu, hq⟩ := isTarget_iff.mp h
  obtain rfl := Option.some.inj (ht.symm.trans hu)
  exact hq.symm.trans hid

/-- Until the connection has failed it is waited for, and there is no scan. -/
theorem Step.waits (h : c.Step plan e calls c') (hw : c.Waits p) :
    (⟨c, e, calls, c'⟩ : Turn).Fails p ∨
      c'.Waits p ∧ ∀ services, .scan services ∉ requests calls := by
  cases h with
  | passedOver _ => exact .inr ⟨hw, fun _ => nofun⟩
  | searched h _ => exact absurd h (not_or.mpr ⟨hw.1, hw.2.1⟩)
  | paused _ _ => exact .inr ⟨hw, by simp⟩
  | selected h _ => exact absurd (connection_of_selects h) hw.2.1
  | refused h _ _ _ => exact absurd (connection_of_selects h) hw.2.1
  | @failed q text h _ =>
    exact .inl ⟨q, text, rfl, hw.id_eq (Bool.and_eq_true_iff.mp h).2⟩
  | @processed q walk h hp x =>
    refine .inr ⟨⟨nofun, nofun, q, rfl, hw.id_eq (Bool.and_eq_true_iff.mp h).2⟩, fun services => ?_⟩
    exact IsConnection.not_mem (isConnection_process hp x) id nofun nofun nofun
  | finished _ =>
    refine .inr ⟨⟨nofun, nofun, hw.2.2⟩, ?_⟩
    rw [requests_finish]
    exact fun _ => nofun

theorem History.waits (h : History plan c turns c') (hw : c.Waits p) :
    (∃ w ∈ turns, w.Fails p) ∨ c'.Waits p := by
  induction h with
  | nil => exact .inr hw
  | snoc _ ht ih =>
    rcases ih with ⟨w, hm, hf⟩ | hb
    · exact .inl ⟨w, List.mem_append_left _ hm, hf⟩
    · rcases (runs_handle_iff.mp ht).waits hb with hf | ⟨ha, -⟩
      · exact .inl ⟨_, List.mem_append_right _ (List.mem_singleton_self _), hf⟩
      · exact .inr ha

/-! ## Once there has been a connection -/

/-- A connection has been gone through. -/
def IsPast (c : Controller) : Prop := c.connection = .connected ∨ c.connection = .disconnected

/-- What is left then is to stop scanning. -/
theorem Step.stops (h : c.Step plan e calls c') (hc : c.IsPast) :
    c'.IsPast ∧ ∀ r ∈ requests calls, r = .stopScanning := by
  have unawaited : ∀ p, c.awaits p = false := by
    intro p
    rcases hc with hc | hc <;> simp [awaits, Connection.awaitsConnection, hc]
  cases h with
  | passedOver _ => exact ⟨hc, by simp⟩
  | searched h _ => rcases h with h | h <;> simp [IsPast, h] at hc
  | paused _ _ => exact ⟨hc, by simp⟩
  | selected h _ => simp [IsPast, connection_of_selects h] at hc
  | refused h _ _ _ => simp [IsPast, connection_of_selects h] at hc
  | failed h _ => simp [unawaited] at h
  | processed h _ _ => simp [unawaited] at h
  | finished _ =>
    rw [requests_finish]
    exact ⟨.inr rfl, by simp⟩

/-- A history is a search, or it has come to a connection and gone through it. -/
theorem History.shape (h : History plan {} turns c) :
    (∀ r ∈ requests (turns.flatMap (·.calls)), r.IsSearch) ∨
      c.IsPast ∧ ∃ search p connection rest,
        requests (turns.flatMap (·.calls)) = search ++ connection ++ rest ∧
          (∀ r ∈ search, r.IsSearch) ∧ IsConnection plan p connection ∧
          ∀ r ∈ rest, r = .stopScanning := by
  induction h with
  | nil => exact .inl nofun
  | @snoc turns before after e calls h ht ih =>
    have step := runs_handle_iff.mp ht
    rw [List.flatMap_append, requests_append, List.flatMap_singleton]
    rcases ih with hs | ⟨hp, search, p, connection, rest, hr, hs, hc, hl⟩
    · cases ha : (⟨before, e, calls, after⟩ : Turn).accepted? with
      | none =>
        exact .inl (List.forall_mem_append.mpr ⟨hs, step.searches ha⟩)
      | some p =>
        obtain ⟨hc, hp⟩ := step.accepts ha
        exact .inr ⟨.inl hp, _, p, _, [], (List.append_nil _).symm, hs, hc, nofun⟩
    · obtain ⟨hp, hn⟩ := step.stops hp
      refine .inr ⟨hp, search, p, connection, rest ++ requests calls, ?_, hs, hc, ?_⟩
      · rw [hr, List.append_assoc _ rest]
      · exact List.forall_mem_append.mpr ⟨hl, hn⟩

/-! ## The order of all requests -/

theorem Step.releases (h : c.Step plan e calls c') :
    (requests calls).filterMap (·.released?) =
      (⟨c, e, calls, c'⟩ : Turn).accepted?.toList := by
  cases ha : (⟨c, e, calls, c'⟩ : Turn).accepted? with
  | none => exact released_of_isSearch (h.searches ha)
  | some p => exact IsConnection.released (h.accepts ha).1

theorem History.releases (h : History plan c turns c') :
    (requests (turns.flatMap (·.calls))).filterMap (·.released?) =
      turns.filterMap (·.accepted?) := by
  induction h with
  | nil => rfl
  | @snoc turns before after e calls h ht ih =>
    rw [List.flatMap_append, requests_append, List.flatMap_singleton, List.filterMap_append,
      List.filterMap_append, ih, (runs_handle_iff.mp ht).releases]
    cases ha : (⟨before, e, calls, after⟩ : Turn).accepted? <;> simp [ha]

theorem History.connects (h : History plan c turns c') {first rest : List (Session.Request String)}
    (hr : requests (turns.flatMap (·.calls)) = first ++ .connect p :: rest) :
    first.getLast? = some .stopScanning := by
  induction h generalizing first rest with
  | nil => simp at hr
  | @snoc turns before after e calls h ht ih =>
    have step := runs_handle_iff.mp ht
    rw [List.flatMap_append, requests_append, List.flatMap_singleton,
      List.append_eq_append_iff] at hr
    -- the connection is requested in the last turn or before it
    rcases hr with ⟨more, rfl, hl⟩ | ⟨more, hf, hl⟩
    · rw [step.connects hl, List.getLast?_concat]
    · cases more with
      | nil =>
        have early : requests calls = [] ++ .connect p :: rest := hl.symm
        exact nomatch step.connects early
      | cons r more =>
        obtain ⟨rfl, -⟩ := List.cons.inj hl
        exact ih hf

/-- Whatever events a controller is given and whatever the session answers, the requests of its
turns come in order. So do those of a controller that works off a queue: it comes to an end whatever
the answers are, and its requests are those of the turns it has had. -/
theorem requests_orderly (plan : Plan) :
    (∀ turns c, History plan {} turns c → Orderly plan turns) ∧
    (∀ events (σ : Behaviour effects), ∃ calls c,
      (run plan {} events).Runs calls c ∧ σ.Gives [] calls) ∧
    ∀ events calls c, (run plan {} events).Runs calls c →
      ∃ turns, History plan {} turns c ∧ turns.flatMap (·.calls) = calls ∧
        turns.map (·.event) <+: events := by
  refine ⟨fun turns c h => ?_, fun events σ => exists_runs σ [] _,
    fun events calls c h => exists_history_of_runs h⟩
  constructor
  case shape =>
    rcases h.shape with hs | ⟨-, search, p, connection, rest, hr, hs, hc, hl⟩
    · exact ⟨_, [], [], by simp, hs, .inl rfl, nofun⟩
    · exact ⟨search, connection, rest, hr, hs, .inr ⟨p, hc⟩, hl⟩
  case accepts =>
    intro u hu p ha
    exact ((h.step_of_mem hu).accepts ha).1
  case searches =>
    intro u hu ha
    exact (h.step_of_mem hu).searches ha
  case releases => exact h.releases
  case connects =>
    intro first p rest hr
    exact h.connects hr
  case pauses =>
    intro u hu first p rest hr
    exact ((h.step_of_mem hu).pauses hr).1
  case waits =>
    intro first u middle v last p services x hs hu hv
    obtain ⟨-, step, following⟩ := h.split hs
    obtain ⟨earlier, later, hc⟩ := List.append_of_mem hu
    obtain ⟨-, hcon, ht⟩ := step.pauses hc
    have waiting : u.after.Waits p := ⟨by simp [hcon], by simp [hcon], p, ht, rfl⟩
    obtain ⟨between, scan, -⟩ := following.split rfl
    rcases between.waits waiting with ⟨w, hw, hf⟩ | hb
    · exact ⟨w, List.mem_append_left _ hw, hf⟩
    · rcases scan.waits hb with hf | ⟨-, hn⟩
      · exact ⟨v, List.mem_append_right _ (List.mem_singleton_self v), hf⟩
      · exact absurd (mem_requests.mpr ⟨_, hv⟩) (hn services)

/-- A connection whose services could not be discovered is gone through in order. -/
theorem requests_orderly_connected :
    ∃ turns c, History Plan.bare {} turns c ∧ c.connection = .connected ∧
      Orderly Plan.bare turns := by
  obtain ⟨turns, h⟩ := exists_history_connected Plan.bare nameless {} rfl
  exact ⟨turns, _, h, rfl, (requests_orderly Plan.bare).1 turns _ h⟩

end GattSync.Cycle.Controller
