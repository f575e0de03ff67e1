import GattSync.Error

/-!
# Configuration of the resync loop
-/

namespace GattSync

/-- When the status of a cycle is published. -/
inductive PublishPoint where
  /-- When the session has been stopped, so that each cycle reports its own results. -/
  | afterCycle
  /-- As soon as the session has been started. -/
  | onStart
  deriving DecidableEq, Repr, Inhabited

/-- What the status of a cycle starts from. -/
inductive StatusSeed where
  /-- The status given along with the spec. -/
  | initial
  /-- The status published last. -/
  | previous
  | empty
  deriving DecidableEq, Repr, Inhabited

/-- How the loop runs. -/
structure SyncConfig where
  /-- Time between the starts of two cycles. -/
  syncInterval : Duration := .ofSeconds 15
  /-- The longest a cycle waits for the peripheral to disconnect. -/
  timeout : Duration := .ofSeconds 60
  /-- Transfer unit asked for after connecting. -/
  mtu : UInt16 := 500
  /-- How long a connection is held for notifications. -/
  observationWindow : Duration := .ofSeconds 5
  publishPoint : PublishPoint := .afterCycle
  statusSeed : StatusSeed := .initial
  deriving DecidableEq, Repr, Inhabited

namespace SyncConfig

/-- Why a configuration cannot be run. -/
inductive Fault where
  | zeroInterval
  | zeroTimeout
  | timeoutWithinWindow (timeout window : Duration)
  deriving DecidableEq, Repr

def Fault.message : Fault → String
  | .zeroInterval => "sync interval must be non-zero"
  | .zeroTimeout => "timeout must be non-zero"
  | .timeoutWithinWindow timeout window =>
    "timeout " ++ timeout.text ++ " must exceed observation window " ++ window.text

/-- The first fault of a configuration, if it has one. -/
def fault? (c : SyncConfig) : Option Fault :=
  if c.syncInterval.isZero then some .zeroInterval
  else if c.timeout.isZero then some .zeroTimeout
  else if c.timeout ≤ c.observationWindow then
    some (.timeoutWithinWindow c.timeout c.observationWindow)
  else none

/-- Refuses a configuration that cannot be run. -/
def validate (c : SyncConfig) : Except Error Unit :=
  match c.fault? with
  | some fault => .error (.config fault.message)
  | none => .ok ()

/-- A configuration can be run if its cycles are some time apart and leave time for the window. -/
theorem validate_eq_ok_iff {c : SyncConfig} :
    c.validate = .ok () ↔ .zero < c.syncInterval ∧ c.observationWindow < c.timeout := by
  have interval : c.syncInterval.isZero = false ↔ .zero < c.syncInterval := by
    simp [Duration.isZero, Duration.lt_iff, Duration.zero, Nat.pos_iff_ne_zero]
  rw [← interval]
  unfold validate fault?
  cases c.syncInterval.isZero with
  | true => simp
  | false =>
    by_cases window : c.timeout ≤ c.observationWindow
    · have within : ¬ c.observationWindow < c.timeout := Nat.not_lt_of_le window
      cases c.timeout.isZero <;> simp [window, within]
    · have beyond : c.observationWindow < c.timeout := Nat.lt_of_not_le window
      have some_time : c.timeout.isZero = false :=
        beq_false_of_ne (Nat.ne_of_gt (Nat.lt_of_le_of_lt (Nat.zero_le _) beyond))
      simp [window, beyond, some_time]

end SyncConfig
end GattSync
