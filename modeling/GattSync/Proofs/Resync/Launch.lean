import GattSync.Config.Codec
import GattSync.Proofs.Resync.Overture

/-!
# Launching a loop

A loop that is launched looks at the clock and sets its ticker a period ahead. If the clock can
count that far, the first cycle is begun, comes to its end and publishes. Otherwise the loop ends
there, without a cycle (`launch_publishes_iff`).

Whether a configuration can be run is decided without the clock: its interval has to be more than
nothing, and its timeout longer than its window (`SyncConfig.validate_eq_ok_iff`). So intervals are
let through that no clock can count, and no loop with one of them ever publishes.
-/

namespace GattSync

namespace Resync

open Program

variable {s : Settings} {calls : List (Call effects)} {next : Option Phase}
  {σ : Behaviour effects}

/-- The reading of the clock at which a loop is launched. -/
def launch (σ : Behaviour effects) : Duration := σ [] .now

/-- A loop that the clock cannot count a period ahead for makes no call but to look at it. -/
theorem loops_out_of_range
    (hr : Ticker.clockRange ≤ (launch σ + s.config.syncInterval).seconds)
    (h : Phase.launched.Loops s calls next) (hg : σ.Gives [] calls) :
    calls = [] ∧ next = some .launched ∨ calls = [⟨.now, some (launch σ)⟩] ∧ next = none := by
  induction h with
  | nil => exact .inl ⟨rfl, rfl⟩
  | @snoc mid next calls more _ ht ih =>
    obtain ⟨before, after⟩ := Behaviour.gives_append.mp hg
    rcases ih before with ⟨rfl, hm⟩ | ⟨-, hm⟩
    · obtain rfl := Option.some.inj hm
      obtain ⟨now, rfl, rfl⟩ := Phase.calls_launched (ht.runs rfl)
      obtain rfl : now = launch σ := after.1 now rfl
      rw [Ticker.start?_eq_none_iff.mpr hr]
      exact .inr ⟨rfl, rfl⟩
    · cases hm

/-- A loop that the clock can count a period ahead for has a whole cycle. -/
theorem exists_first_cycle (n : Nat)
    (hr : (launch σ + s.config.syncInterval).seconds < Ticker.clockRange) :
    ∃ calls ticker, Phase.launched.Loops s calls (some (.resting ticker)) ∧ σ.Gives [] calls ∧
      IsSpan s.config.publishPoint (marks calls) ∧ ∀ call ∈ calls.take n, call.2.isSome := by
  let ticker : Ticker := ⟨s.config.syncInterval, launch σ + s.config.syncInterval⟩
  have completes : (Phase.begun ticker).Completes s σ [⟨.now, some (launch σ)⟩] (n - 1) :=
    Phase.completes_begun
  obtain ⟨calls, ticker', cycle, given, answered⟩ := completes
  refine ⟨_, ticker', (Phase.loops_launched hr).cycles cycle,
    ⟨fun _ hx => (Option.some.inj hx).symm, given⟩, cycle.ahead, ?_⟩
  cases n with
  | zero => simp
  | succ n => exact List.forall_mem_cons.mpr ⟨rfl, answered⟩

/-- Whatever a configuration is, and whatever a loop is told: it publishes exactly if the clock can
count a period further than where it was launched. It then has a whole cycle, and otherwise it ends
when it has looked at the clock. Whether the configuration can be run has nothing to do with it. -/
theorem launch_publishes_iff (s : Settings) (σ : Behaviour effects) :
    (s.config.validate = .ok () ↔
      .zero < s.config.syncInterval ∧ s.config.observationWindow < s.config.timeout) ∧
    ((∃ calls next, Phase.launched.Loops s calls next ∧ σ.Gives [] calls ∧
        .publication ∈ marks calls) ↔
      (launch σ + s.config.syncInterval).seconds < Ticker.clockRange) ∧
    ((launch σ + s.config.syncInterval).seconds < Ticker.clockRange → ∀ n, ∃ calls ticker,
      Phase.launched.Loops s calls (some (.resting ticker)) ∧ σ.Gives [] calls ∧
      IsSpan s.config.publishPoint (marks calls) ∧ ∀ call ∈ calls.take n, call.2.isSome) ∧
    (Ticker.clockRange ≤ (launch σ + s.config.syncInterval).seconds → ∀ calls next,
      Phase.launched.Loops s calls next → σ.Gives [] calls →
      calls = [] ∧ next = some .launched ∨ calls = [⟨.now, some (launch σ)⟩] ∧ next = none) := by
  refine ⟨SyncConfig.validate_eq_ok_iff, ⟨?_, fun hr => ?_⟩, fun hr n => exists_first_cycle n hr,
    fun hr _ _ h hg => loops_out_of_range hr h hg⟩
  · rintro ⟨calls, next, h, hg, hm⟩
    refine Nat.lt_of_not_le fun hr => ?_
    rcases loops_out_of_range hr h hg with ⟨rfl, -⟩ | ⟨rfl, -⟩ <;> cases hm
  · obtain ⟨calls, ticker, h, hg, span, -⟩ := exists_first_cycle 0 hr
    exact ⟨calls, _, h, hg, span.publication_mem⟩

/-- With the interval that a configuration has by default, a loop that is launched when the clock
begins publishes. -/
theorem launch_publishes_iff_quiet :
    (launch quiet + ({} : SyncConfig).syncInterval).seconds < Ticker.clockRange ∧
      ∃ calls ticker, Phase.launched.Loops ⟨{}, {}, {}⟩ calls (some (.resting ticker)) ∧
        quiet.Gives [] calls ∧ IsSpan .afterCycle (marks calls) := by
  have range : (launch quiet + ({} : SyncConfig).syncInterval).seconds < Ticker.clockRange := by
    decide
  obtain ⟨calls, ticker, h, hg, span, -⟩ :=
    (launch_publishes_iff ⟨{}, {}, {}⟩ quiet).2.2.1 range 0
  exact ⟨range, calls, ticker, h, hg, span⟩

/-- The configuration with the longest interval that a text can give. -/
def endless : SyncConfig := { syncInterval := .ofSeconds 18446744073709551615 }

theorem ofText_endless :
    SyncConfig.ofText "\x7b\"syncInterval\": 18446744073709551615\x7d" = .ok endless := by
  have read : (SyncConfig.ofText "\x7b\"syncInterval\": 18446744073709551615\x7d").toOption =
      some endless := by decide +kernel
  generalize SyncConfig.ofText "\x7b\"syncInterval\": 18446744073709551615\x7d" = given at read
  cases given with
  | error e => cases read
  | ok c => rw [Option.some.inj read]

theorem clockRange_le_endless (now : Duration) :
    Ticker.clockRange ≤ (now + endless.syncInterval).seconds := by
  have alone : Ticker.clockRange ≤ endless.syncInterval.seconds := by decide
  exact Nat.le_trans alone (Nat.div_le_div_right (Nat.le_add_left _ _))

/-- A configuration with the longest interval is read from its text, which takes it to be one that
can be run. Wherever the clock stands, a loop with it ends when it has looked at the clock, and
never publishes. -/
theorem launches_nothing :
    SyncConfig.ofText "\x7b\"syncInterval\": 18446744073709551615\x7d" = .ok endless ∧
      endless.validate = .ok () ∧
      ∀ (spec : DeviceSpec) (initial : Status.Snapshot) (σ : Behaviour effects),
        (Phase.run ⟨endless, spec, initial⟩ .launched).Runs [⟨.now, some (launch σ)⟩] none ∧
        ∀ calls next, Phase.launched.Loops ⟨endless, spec, initial⟩ calls next →
          σ.Gives [] calls → .publication ∉ marks calls := by
  refine ⟨ofText_endless, SyncConfig.validate_eq_ok_iff.mpr (by decide), ?_⟩
  intro spec initial σ
  have unstarted := Phase.runs_launched ⟨endless, spec, initial⟩ (launch σ)
  rw [Ticker.start?_eq_none_iff.mpr (clockRange_le_endless (launch σ))] at unstarted
  refine ⟨unstarted, fun calls next h hg => ?_⟩
  rcases loops_out_of_range (clockRange_le_endless (launch σ)) h hg with ⟨rfl, -⟩ | ⟨rfl, -⟩ <;>
    exact List.not_mem_nil

end Resync
end GattSync
