import GattSync.Proofs.Cycle.Coherence
import GattSync.Proofs.Cycle.Requests

/-!
# Recovery from failed attempts

A controller that has selected nothing is to scan again once the adapter is powered on, whatever has
failed before (`Recovers`). It does so unless one scan has been lost: the one that it asks for by
itself, in the turn in which a connection has failed. When that scan cannot be started the
controller keeps waiting for a connection that it has given up (`IsStuck`), and there is no way out.
So a controller recovers exactly when no scan of that kind has been lost (`recovers_iff`).
-/

namespace GattSync.Cycle.Controller

open Program

variable {plan : Plan} {c c' : Controller} {e : Event} {calls : List (Call effects)}
  {turns : List Turn}

/-- When the adapter is powered on the controller scans, and when that succeeds the next peripheral
that the spec means is connected to. -/
structure Recovers (plan : Plan) (c : Controller) : Prop where
  scans : ∀ calls c', (c.handle plan (.adapterState .poweredOn)).Runs calls c' →
    ∃ x, calls = [asked (.scan []) x]
  takes : ∀ c', (c.handle plan (.adapterState .poweredOn)).Runs [asked (.scan []) (.ok ())] c' →
    c'.connection = .scanning ∧
      ∀ p advertisement rssi, plan.spec.protocol.isMatch advertisement.localName p.address →
        ∀ calls after, (c'.handle plan (.discovered p advertisement rssi)).Runs calls after →
          ∃ y, asked (.connect p) y ∈ calls

/-- The controller waits for a connection to nothing. -/
def IsStuck (c : Controller) : Prop := c.connection = .connecting ∧ c.target = none

/-- A scan has failed that was not asked for because of the adapter. -/
def Turn.LosesScan (u : Turn) : Prop :=
  (∃ fault, asked (.scan []) (.error fault) ∈ u.calls) ∧ ∀ state, u.event ≠ .adapterState state

theorem connection_of_scans {x : Except Error Unit}
    (h : (c.handle plan (.adapterState .poweredOn)).Runs [asked (.scan []) x] c') :
    c' = c.scanned x := by
  generalize hl : [asked (.scan []) x] = calls at h
  cases runs_handle_iff.mp h with
  | searched _ y =>
    simp [asked] at hl
    rw [hl]
  | passedOver _ => simp at hl
  | paused hp _ => simp [AdapterState.isPoweredOn] at hp

/-- While scanning, whatever the spec means is connected to. -/
theorem exists_connect (h : c.connection = .scanning) {p : Peripheral}
    {advertisement : Advertisement} {rssi : Option Int}
    (hm : plan.spec.protocol.isMatch advertisement.localName p.address)
    (hr : (c.handle plan (.discovered p advertisement rssi)).Runs calls c') :
    ∃ y, asked (.connect p) y ∈ calls := by
  cases runs_handle_iff.mp hr with
  | passedOver hp => simp [passesOver, selects, h, hm] at hp
  | selected _ x => exact ⟨.ok (), by simp⟩
  | refused _ x fault y => exact ⟨.error fault, by simp⟩

theorem recovers_of_searching (h : c.connection = .idle ∨ c.connection = .scanning) :
    c.Recovers plan where
  scans calls c' hr := by
    cases runs_handle_iff.mp hr with
    | passedOver hp => rcases h with h | h <;> simp [passesOver, AdapterState.isPoweredOn, h] at hp
    | searched _ x => exact ⟨x, rfl⟩
    | paused hp _ => simp [AdapterState.isPoweredOn] at hp
  takes c' hr := by
    obtain rfl := connection_of_scans hr
    exact ⟨rfl, fun p advertisement rssi hm calls after hr => exists_connect rfl hm hr⟩

theorem IsStuck.not_recovers (h : c.IsStuck) : ¬ c.Recovers plan := by
  intro hr
  have idle : c.passesOver plan (.adapterState .poweredOn) := by
    simp [passesOver, AdapterState.isPoweredOn, h.1]
  obtain ⟨x, hx⟩ := hr.scans [] c (runs_handle_of_passesOver idle)
  cases hx

/-- With nothing selected, a controller is searching or it is stuck. -/
theorem Coherent.recovers_iff_not_isStuck (hc : c.Coherent) (hd : c.connection ≠ .disconnected)
    (ht : c.target = none) : c.Recovers plan ↔ ¬ c.IsStuck := by
  constructor
  · intro hr hs
    exact hs.not_recovers hr
  · intro hs
    refine recovers_of_searching ?_
    cases hcon : c.connection with
    | idle => exact .inl rfl
    | scanning => exact .inr rfl
    | connecting => exact absurd ⟨hcon, ht⟩ hs
    | connected => simpa [ht] using hc.selected (.inl hcon)
    | disconnected => exact absurd hcon hd

/-! ## How a controller gets stuck -/

theorem IsStuck.target_not (h : c.IsStuck) (p : Peripheral) : c.isTarget p = false := by
  rw [isTarget, h.2]

/-- Nothing moves a controller that is stuck. -/
theorem Step.eq_of_isStuck (h : c.Step plan e calls c') (hs : c.IsStuck) : c' = c := by
  cases h with
  | passedOver _ => rfl
  | searched h _ => rcases h with h | h <;> simp [hs.1] at h
  | paused _ _ => rfl
  | selected h _ => exact absurd (connection_of_selects h) (by simp [hs.1])
  | refused h _ _ _ => exact absurd (connection_of_selects h) (by simp [hs.1])
  | failed h _ => simp [awaits, hs.target_not] at h
  | processed h _ _ => simp [awaits, hs.target_not] at h
  | finished h => simp [isLinkedTo, hs.target_not] at h

theorem isStuck_scanned_iff {x : Except Error Unit} (hc : c.connection = .connecting)
    (ht : c.target = none) : (c.scanned x).IsStuck ↔ ∃ fault, x = .error fault := by
  cases x with
  | ok done => simp [scanned, IsStuck]
  | error fault => simp [scanned, IsStuck, hc, ht]

/-- The turns that lose a scan leave a controller stuck, and no others do. -/
theorem Step.isStuck_iff_losesScan (h : c.Step plan e calls c') (hc : c.Coherent)
    (hs : ¬ c.IsStuck) : c'.IsStuck ↔ (⟨c, e, calls, c'⟩ : Turn).LosesScan := by
  cases h with
  | passedOver _ => simp [hs, Turn.LosesScan]
  | searched h x =>
    have after : ¬ (c.scanned x).IsStuck := fun hs => by
      rcases connection_scanned c x with hx | hx
      · rcases h with h | h <;> simp [hx.symm.trans hs.1] at h
      · cases hx.symm.trans hs.1
    simp [after, Turn.LosesScan]
  | paused _ _ => simp [hs, Turn.LosesScan]
  | @selected p _ _ _ x =>
    have after : ¬ IsStuck { c with connection := .connecting, target := some p } := nofun
    simp [after, Turn.LosesScan, asked]
  | refused _ x fault y =>
    rw [isStuck_scanned_iff rfl rfl]
    simp [Turn.LosesScan, asked, eq_comm]
  | failed h x =>
    rw [isStuck_scanned_iff (c := { c with target := none }) (hc.connecting_of_awaits h).1 rfl]
    simp [Turn.LosesScan, asked, eq_comm]
  | @processed p walk _ hw x =>
    have after : ¬ IsStuck { c with connection := .connected, target := some p } := nofun
    refine iff_of_false after fun ⟨⟨fault, hm⟩, _⟩ => ?_
    have unscanned : .scan [] ∉ requests (walk ++ [asked (.cancelConnection p) x]) :=
      IsConnection.not_mem (isConnection_process hw x) id nofun nofun nofun
    exact unscanned (mem_requests.mpr ⟨_, hm⟩)
  | finished _ =>
    have after : ¬ IsStuck { c with connection := .disconnected, isFinished := true } := nofun
    cases c.isFinished <;> simp [after, Turn.LosesScan, asked]

theorem History.isStuck_iff (h : History plan {} turns c) :
    c.IsStuck ↔ ∃ u ∈ turns, u.LosesScan := by
  induction h with
  | nil =>
    have unstuck : ¬ IsStuck {} := nofun
    simp [unstuck]
  | @snoc turns before after e calls h ht ih =>
    have step := runs_handle_iff.mp ht
    simp only [List.mem_append, List.mem_singleton, or_and_right, exists_or, exists_eq_left]
    rw [← ih]
    by_cases hs : before.IsStuck
    · obtain rfl := step.eq_of_isStuck hs
      exact iff_of_true hs (.inl hs)
    · rw [or_iff_right hs]
      exact step.isStuck_iff_losesScan h.coherent hs

/-! ## Exactly when a controller recovers -/

/-- After any history that leaves a controller with nothing selected before the end of its cycle,
it recovers exactly if no scan was lost in the turn of a failed connection. -/
theorem recovers_iff (h : History plan {} turns c) (hd : c.connection ≠ .disconnected)
    (ht : c.target = none) : c.Recovers plan ↔ ∀ u ∈ turns, ¬ u.LosesScan := by
  rw [h.coherent.recovers_iff_not_isStuck hd ht, h.isStuck_iff, not_exists]
  exact forall_congr' fun u => not_and

/-- The turns in which the first connection is refused, up to the scan that is asked for then. -/
def refusal (p : Peripheral) (fault : Error) (x : Except Error Unit) : List Turn :=
  let lone : Controller := { connection := .scanning }
  [⟨{}, .adapterState .poweredOn, [asked (.scan []) (.ok ())], lone⟩,
    ⟨lone, .discovered p {} none,
      [asked .stopScanning (.ok ()), asked (.connect p) (.error fault), asked (.scan []) x],
      scanned { connection := .connecting } x⟩]

theorem history_refusal (plan : Plan) {p : Peripheral}
    (hm : plan.spec.protocol.isMatch none p.address) (fault : Error) (x : Except Error Unit) :
    History plan {} (refusal p fault x) (scanned { connection := .connecting } x) := by
  have search : Step plan {} (.adapterState .poweredOn) [asked (.scan []) (.ok ())]
      { connection := .scanning } := .searched (.inl rfl) (.ok ())
  have refuse : Step plan { connection := .scanning } (.discovered p {} none) _ _ :=
    .refused (by simpa [selects] using hm) (.ok ()) fault x
  exact (History.nil.snoc search.runs_handle).snoc refuse.runs_handle

/-- A controller recovers from a connection that was refused if it could scan then. -/
theorem recovers_refusal :
    ∃ c, History .bare {} (refusal nameless .notConnected (.ok ())) c ∧
      c.connection ≠ .disconnected ∧ c.target = none ∧ c.Recovers .bare := by
  have h := history_refusal .bare (p := nameless) rfl .notConnected (.ok ())
  refine ⟨_, h, nofun, rfl, (recovers_iff h nofun rfl).mpr fun u hu hl => ?_⟩
  cases (h.isStuck_iff.mpr ⟨u, hu, hl⟩).1

/-- If it could not, it has selected nothing and does not recover. -/
theorem not_recovers_refusal :
    ∃ c, History .bare {} (refusal nameless .notConnected (.error .notConnected)) c ∧
      c.connection ≠ .disconnected ∧ c.target = none ∧ ¬ c.Recovers .bare := by
  have h := history_refusal .bare (p := nameless) rfl .notConnected (.error .notConnected)
  exact ⟨_, h, nofun, rfl, IsStuck.not_recovers ⟨rfl, rfl⟩⟩

end GattSync.Cycle.Controller
