import GattSync.Proofs.Cycle.Turn

/-!
# Coherence of a controller

The three parts of a controller's state move together. While it searches nothing is selected, once
it has been connected something is, and the end of the cycle has been told exactly when the target
has disconnected (`Coherent`). Every turn keeps this, so it holds after every history.

Two things follow. The completion of a connection is acted upon only while one is requested, for the
peripheral that it was requested for, although the test in the program lets it pass while scanning
as well. And the connection changes only in the few ways of `Connection.changes`, none of which
leads back from the end of a cycle (`connection_lifecycle`).
-/

namespace GattSync

/-- The ways in which the connection can change in one turn. -/
def Connection.changes : List (Connection × Connection) :=
  [(.idle, .scanning), (.scanning, .connecting), (.connecting, .scanning),
    (.connecting, .connected), (.connecting, .disconnected), (.connected, .disconnected)]

namespace Cycle.Controller

open Program

variable {plan : Plan} {c c' : Controller} {e : Event} {calls : List (Call effects)}
  {p : Peripheral} {turns : List Turn}

/-- The parts of a controller's state fit together. -/
structure Coherent (c : Controller) : Prop where
  unselected : c.connection = .idle ∨ c.connection = .scanning → c.target = none
  selected : c.connection = .connected ∨ c.connection = .disconnected → c.target.isSome
  finished_iff : c.isFinished = true ↔ c.connection = .disconnected

theorem coherent_initial : Coherent {} where
  unselected _ := rfl
  selected h := by rcases h with h | h <;> cases h
  finished_iff := by constructor <;> intro h <;> cases h

theorem isTarget_iff : c.isTarget p = true ↔ ∃ q, c.target = some q ∧ q.id = p.id := by
  unfold isTarget
  cases c.target <;> simp

/-- While nothing is selected, no completion is of interest. -/
theorem Coherent.connecting_of_awaits (hc : c.Coherent) (h : c.awaits p) :
    c.connection = .connecting ∧ ∃ q, c.target = some q ∧ q.id = p.id := by
  obtain ⟨ha, ht⟩ := Bool.and_eq_true_iff.mp h
  obtain ⟨q, hq, hid⟩ := isTarget_iff.mp ht
  refine ⟨?_, q, hq, hid⟩
  cases hcon : c.connection with
  | connecting => rfl
  | scanning => simp [hc.unselected (.inr hcon)] at hq
  | _ => simp [Connection.awaitsConnection, hcon] at ha

theorem connection_of_isLinkedTo (h : c.isLinkedTo p) :
    (c.connection = .connecting ∨ c.connection = .connected) ∧ c.target.isSome := by
  obtain ⟨hl, ht⟩ := Bool.and_eq_true_iff.mp h
  obtain ⟨q, hq, -⟩ := isTarget_iff.mp ht
  exact ⟨by simpa using hl, by simp [hq]⟩

theorem connection_of_selects {advertisement : Advertisement}
    (h : c.selects plan p advertisement) : c.connection = .scanning := by
  simpa using (Bool.and_eq_true_iff.mp h).1

/-- A scan that has been asked for with nothing selected leaves a coherent state, also if it has
failed. -/
theorem coherent_scanned (ht : c.target = none) (hf : c.isFinished = false)
    (hc : c.connection ≠ .connected ∧ c.connection ≠ .disconnected) (x : Except Error Unit) :
    (c.scanned x).Coherent := by
  cases x with
  | ok done => exact ⟨fun _ => ht, fun h => by simp [scanned] at h, by simp [scanned, hf]⟩
  | error fault =>
    exact ⟨fun _ => ht, fun h => absurd h (by simp [scanned, hc]), by simp [scanned, hf, hc]⟩

/-- The end of the cycle has not been told as long as the connection is another. -/
theorem Coherent.isFinished_eq_false (hc : c.Coherent) (h : c.connection ≠ .disconnected) :
    c.isFinished = false := by
  simpa using mt hc.finished_iff.mp h

theorem Step.coherent (h : c.Step plan e calls c') (hc : c.Coherent) : c'.Coherent := by
  cases h with
  | passedOver _ => exact hc
  | searched h x =>
    have hd : c.connection ≠ .connected ∧ c.connection ≠ .disconnected := by
      rcases h with h | h <;> simp [h]
    exact coherent_scanned (hc.unselected h) (hc.isFinished_eq_false hd.2) hd x
  | paused _ _ => exact hc
  | selected h x =>
    have hs := connection_of_selects h
    have hf := hc.isFinished_eq_false (by simp [hs])
    exact ⟨fun h => by simp at h, fun h => by simp at h, by simp [hf]⟩
  | refused h x fault y =>
    have hs := connection_of_selects h
    refine coherent_scanned ?_ ?_ ?_ y
    · rfl
    · exact hc.isFinished_eq_false (by simp [hs])
    · exact ⟨nofun, nofun⟩
  | failed h x =>
    obtain ⟨hs, -⟩ := hc.connecting_of_awaits h
    refine coherent_scanned ?_ ?_ ?_ x
    · rfl
    · exact hc.isFinished_eq_false (by simp [hs])
    · simp [hs]
  | processed h _ x =>
    obtain ⟨hs, -⟩ := hc.connecting_of_awaits h
    have hf := hc.isFinished_eq_false (by simp [hs])
    exact ⟨fun h => by simp at h, fun _ => rfl, by simp [hf]⟩
  | finished h =>
    exact ⟨fun h => by simp at h, fun _ => (connection_of_isLinkedTo h).2, by simp⟩

theorem History.coherent (h : History plan {} turns c) : c.Coherent :=
  h.preserves coherent_initial Step.coherent

/-! ## Changes of the connection -/

theorem connection_scanned (c : Controller) (x : Except Error Unit) :
    (c.scanned x).connection = c.connection ∨ (c.scanned x).connection = .scanning := by
  cases x with
  | ok done => exact .inr rfl
  | error fault => exact .inl rfl

theorem Step.connection_changes (h : c.Step plan e calls c') (hc : c.Coherent) :
    c'.connection = c.connection ∨ (c.connection, c'.connection) ∈ Connection.changes := by
  cases h with
  | passedOver _ => exact .inl rfl
  | searched h x =>
    rcases connection_scanned c x with hx | hx
    · exact .inl hx
    · rcases h with h | h
      · rw [hx, h]
        exact .inr (by decide)
      · exact .inl (hx.trans h.symm)
  | paused _ _ => exact .inl rfl
  | selected h x => simp [connection_of_selects h, Connection.changes]
  | refused h x fault y =>
    have hs := connection_of_selects h
    rcases connection_scanned { c with connection := .connecting, target := none } y with hx | hx
    · rw [hx, hs]
      simp [Connection.changes]
    · exact .inl (hx.trans hs.symm)
  | failed h x =>
    obtain ⟨hs, -⟩ := hc.connecting_of_awaits h
    rcases connection_scanned { c with target := none } x with hx | hx
    · exact .inl hx
    · rw [hx, hs]
      exact .inr (by decide)
  | processed h _ x =>
    obtain ⟨hs, -⟩ := hc.connecting_of_awaits h
    simp [hs, Connection.changes]
  | finished h =>
    rcases (connection_of_isLinkedTo h).1 with hl | hl <;> simp [hl, Connection.changes]

/-- What has been connected stays so until it disconnects, and then for good. -/
theorem History.connected_or_disconnected (h : History plan c turns c') (hc : c.Coherent) :
    (c.connection = .connected → c'.connection = .connected ∨ c'.connection = .disconnected) ∧
      (c.connection = .disconnected → c'.connection = .disconnected) := by
  induction h with
  | nil => exact ⟨.inl, id⟩
  | @snoc turns before after e calls h ht ih =>
    have hb : before.Coherent := h.preserves hc Step.coherent
    have last : before.connection = .disconnected → after.connection = .disconnected := by
      intro hd
      rcases (runs_handle_iff.mp ht).connection_changes hb with hx | hx
      · exact hx.trans hd
      · simp [hd, Connection.changes] at hx
    refine ⟨fun hcon => ?_, fun hd => last (ih.2 hd)⟩
    rcases ih.1 hcon with hd | hd
    · rcases (runs_handle_iff.mp ht).connection_changes hb with hx | hx
      · exact .inl (hx.trans hd)
      · simp [hd, Connection.changes] at hx
        exact .inr hx
    · exact .inr (last hd)

/-- In every state that a controller can be in, its parts fit together, completions are acted upon
only for the connection that is requested, and the connection changes only in certain ways: it is
never left once it is there but for its end, which is final. -/
theorem connection_lifecycle (h : History plan {} turns c) :
    c.Coherent ∧
    (∀ p error calls c', (c.handle plan (.connected p error)).Runs calls c' →
      calls ≠ [] ∨ c' ≠ c → c.connection = .connecting ∧ ∃ q, c.target = some q ∧ q.id = p.id) ∧
    (∀ e calls c', (c.handle plan e).Runs calls c' →
      c'.connection = c.connection ∨ (c.connection, c'.connection) ∈ Connection.changes) ∧
    ∀ more c', History plan c more c' →
      (c.connection = .connected → c'.connection = .connected ∨ c'.connection = .disconnected) ∧
      (c.connection = .disconnected → c'.connection = .disconnected) := by
  have hc := h.coherent
  refine ⟨hc, ?_, fun e calls c' hr => (runs_handle_iff.mp hr).connection_changes hc,
    fun more c' hm => hm.connected_or_disconnected hc⟩
  intro p error calls c' hr acts
  cases runs_handle_iff.mp hr with
  | passedOver _ => exact absurd acts (by simp)
  | failed ha _ => exact hc.connecting_of_awaits ha
  | processed ha _ _ => exact hc.connecting_of_awaits ha

/-- A connection whose services could not be discovered. -/
theorem connection_lifecycle_connected :
    ∃ turns c, History Plan.bare {} turns c ∧ c.connection = .connected ∧ c.Coherent := by
  obtain ⟨turns, h⟩ := exists_history_connected Plan.bare nameless {} rfl
  exact ⟨turns, _, h, rfl, (connection_lifecycle h).1⟩

end Cycle.Controller
end GattSync
