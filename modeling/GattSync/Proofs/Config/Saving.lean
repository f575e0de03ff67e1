import GattSync.Proofs.Config.Codec

/-!
# Saving configurations

What a configuration is saved as is its encoding, in which durations are whole seconds. So what is
read back has its durations cut (`SyncConfig.cut`), and whether it can be run is decided anew: a
configuration that can be run may not be afterwards. It has to have an interval of at least one
second, and a timeout that exceeds the window by more than what is left of their seconds
(`SyncConfig.saving`).
-/

namespace GattSync

namespace Duration

/-- The duration without what is left of a second. -/
def whole (d : Duration) : Duration := ofSeconds d.seconds

variable {d e : Duration}

theorem whole_le (d : Duration) : d.whole ≤ d := Nat.div_mul_le_self d.nanos 1000000000

theorem lt_whole_add (d : Duration) : d < d.whole + ofSeconds 1 := by
  simp only [lt_iff, nanos_add, whole, ofSeconds, seconds]
  omega

theorem isZero_whole : d.whole.isZero = true ↔ d.seconds = 0 := by
  rw [isZero, beq_iff_eq]
  exact Nat.mul_eq_zero.trans (or_iff_left (by decide))

theorem whole_le_whole_iff : d.whole ≤ e.whole ↔ d.seconds ≤ e.seconds :=
  Nat.mul_le_mul_right_iff (by decide)

theorem seconds_le_of_lt (h : d < e) : d.seconds ≤ e.seconds :=
  Nat.div_le_div_right (Nat.le_of_lt h)

end Duration

namespace SyncConfig

/-- The durations are ones that there are: of less than `2 ^ 64` seconds. -/
structure IsCountable (c : SyncConfig) : Prop where
  syncInterval : c.syncInterval.seconds < 2 ^ 64
  timeout : c.timeout.seconds < 2 ^ 64
  observationWindow : c.observationWindow.seconds < 2 ^ 64

/-- The configuration with its durations in whole seconds. -/
def cut (c : SyncConfig) : SyncConfig :=
  { c with
    syncInterval := c.syncInterval.whole
    timeout := c.timeout.whole
    observationWindow := c.observationWindow.whole }

/-- The durations of the other configuration fall short of those of this one by less than a second,
and all else is the same. -/
structure IsNearly (c other : SyncConfig) : Prop where
  syncInterval : other.syncInterval ≤ c.syncInterval ∧
    c.syncInterval < other.syncInterval + .ofSeconds 1
  timeout : other.timeout ≤ c.timeout ∧ c.timeout < other.timeout + .ofSeconds 1
  observationWindow : other.observationWindow ≤ c.observationWindow ∧
    c.observationWindow < other.observationWindow + .ofSeconds 1
  mtu : other.mtu = c.mtu
  publishPoint : other.publishPoint = c.publishPoint
  statusSeed : other.statusSeed = c.statusSeed

variable {c : SyncConfig}

theorem isNearly_cut (c : SyncConfig) : c.IsNearly c.cut where
  syncInterval := ⟨Duration.whole_le _, Duration.lt_whole_add _⟩
  timeout := ⟨Duration.whole_le _, Duration.lt_whole_add _⟩
  observationWindow := ⟨Duration.whole_le _, Duration.lt_whole_add _⟩
  mtu := rfl
  publishPoint := rfl
  statusSeed := rfl

theorem isWhole_cut (h : c.IsCountable) : c.cut.IsWhole :=
  ⟨⟨_, h.syncInterval, rfl⟩, ⟨_, h.timeout, rfl⟩, ⟨_, h.observationWindow, rfl⟩⟩

/-- The two are saved alike. -/
theorem toJson_cut (c : SyncConfig) : c.cut.toJson = c.toJson := by
  simp [toJson, cut, Duration.whole, seconds_ofSeconds]

/-- What is read back is the cut configuration, if that can be run. -/
theorem ofText_render (h : c.IsCountable) :
    ofText c.toJson.render = c.cut.validate.map fun () => c.cut := by
  have back : (Json.parse? c.toJson.render >>= ofJson?) = some c.cut := by
    rw [← toJson_cut]
    exact Json.survives c.cut.isLegible_toJson (ofJson?_toJson (isWhole_cut h))
  rw [ofText, back]

/-- The faults of a cut configuration show in the seconds. -/
theorem fault?_cut (c : SyncConfig) : c.cut.fault? =
    if c.syncInterval.seconds = 0 then some .zeroInterval
    else if c.timeout.seconds = 0 then some .zeroTimeout
    else if c.timeout.seconds ≤ c.observationWindow.seconds then
      some (.timeoutWithinWindow c.timeout.whole c.observationWindow.whole)
    else none := by
  simp only [fault?, cut, Duration.isZero_whole, Duration.whole_le_whole_iff]

theorem ofText_render_of_fault? {fault : Fault} (h : c.IsCountable)
    (hf : c.cut.fault? = some fault) :
    ofText c.toJson.render = .error (.config fault.message) := by
  rw [ofText_render h, validate, hf]
  rfl

theorem ofText_render_of_valid (h : c.IsCountable) (hf : c.cut.fault? = none) :
    ofText c.toJson.render = .ok c.cut := by
  rw [ofText_render h, validate, hf]
  rfl

/-- What becomes of a configuration that is saved: it is read back as nearly the same, or refused
for what its seconds are. -/
structure Saving (c : SyncConfig) : Prop where
  survives (hi : 1 ≤ c.syncInterval.seconds)
    (ht : c.observationWindow.seconds < c.timeout.seconds) :
    ∃ other, ofText c.toJson.render = .ok other ∧ c.IsNearly other
  /-- The interval is less than a second. -/
  interval (hi : c.syncInterval.seconds = 0) :
    ofText c.toJson.render = .error (.config Fault.zeroInterval.message)
  /-- The timeout is less than a second. -/
  timeout (hi : 1 ≤ c.syncInterval.seconds) (ht : c.timeout.seconds = 0) :
    ofText c.toJson.render = .error (.config Fault.zeroTimeout.message)
  /-- The timeout and the window end within the same second. -/
  window (hi : 1 ≤ c.syncInterval.seconds) (ht : 1 ≤ c.timeout.seconds)
    (hw : c.timeout.seconds ≤ c.observationWindow.seconds) :
    c.timeout.seconds = c.observationWindow.seconds ∧
      ofText c.toJson.render =
        .error (.config (Fault.timeoutWithinWindow c.timeout.whole c.timeout.whole).message)

/-- A configuration that can be run survives being saved, but for parts of seconds, if it has an
interval of a second and the seconds of its timeout exceed those of its window. Otherwise it is
refused. -/
theorem saving (countable : c.IsCountable) (valid : c.validate = .ok ()) : Saving c := by
  have faults := c.fault?_cut
  constructor
  case survives =>
    intro hi ht
    have some_time : c.timeout.seconds ≠ 0 := Nat.ne_of_gt (Nat.lt_of_le_of_lt (Nat.zero_le _) ht)
    rw [if_neg (Nat.ne_of_gt hi), if_neg some_time, if_neg (Nat.not_le_of_gt ht)] at faults
    exact ⟨c.cut, ofText_render_of_valid countable faults, c.isNearly_cut⟩
  case interval =>
    intro hi
    rw [if_pos hi] at faults
    exact ofText_render_of_fault? countable faults
  case timeout =>
    intro hi ht
    rw [if_neg (Nat.ne_of_gt hi), if_pos ht] at faults
    exact ofText_render_of_fault? countable faults
  case window =>
    intro hi ht hw
    -- Cutting keeps the order of the two, so that they can only have come to be equal.
    have same : c.timeout.seconds = c.observationWindow.seconds :=
      Nat.le_antisymm hw (Duration.seconds_le_of_lt (validate_eq_ok_iff.mp valid).2)
    have alike : c.observationWindow.whole = c.timeout.whole :=
      congrArg Duration.ofSeconds same.symm
    rw [if_neg (Nat.ne_of_gt hi), if_neg (Nat.ne_of_gt ht), if_pos hw, alike] at faults
    exact ⟨same, ofText_render_of_fault? countable faults⟩

/-- With a timeout that is less than a second longer than the window, but ends in a later one. -/
def uneven : SyncConfig :=
  { syncInterval := .ofMillis 1500, timeout := .ofMillis 6200, observationWindow := .ofMillis 5900 }

theorem saving_uneven : uneven.IsCountable ∧ uneven.validate = .ok () ∧
    ∃ other, ofText uneven.toJson.render = .ok other ∧ uneven.IsNearly other := by
  have countable : uneven.IsCountable := ⟨by decide, by decide, by decide⟩
  have valid : uneven.validate = .ok () := validate_eq_ok_iff.mpr (by decide)
  exact ⟨countable, valid, (saving countable valid).survives (by decide) (by decide)⟩

/-- With two cycles a second. -/
def hasty : SyncConfig := { syncInterval := .ofMillis 500 }

/-- It can be run, but once saved it is refused for having no interval. -/
theorem hasty_refused : hasty.IsCountable ∧ hasty.validate = .ok () ∧
    hasty.toJson.render = "\x7b\"syncInterval\":0,\"timeout\":60,\"mtu\":500," ++
      "\"observationWindow\":5,\"publishPoint\":\"afterCycle\",\"statusSeed\":\"initial\"\x7d" ∧
    ofText hasty.toJson.render = .error (.config "sync interval must be non-zero") := by
  have countable : hasty.IsCountable := ⟨by decide, by decide, by decide⟩
  refine ⟨countable, validate_eq_ok_iff.mpr (by decide), by decide +kernel, ?_⟩
  exact ofText_render_of_fault? countable rfl

end SyncConfig
end GattSync
