import GattSync.Config.Codec
import GattSync.Proofs.Json.Records
import Mathlib.Algebra.Group.Nat.Defs

/-!
# Configurations and their encodings

A configuration is decoded from its encoding if its durations are whole seconds below `2 ^ 64`, as
those of every decoded configuration are (`SyncConfig.IsWhole`): what a duration has beyond whole
seconds is not written.
-/

namespace GattSync

open Json

theorem PublishPoint.ofJson?_toJson (p : PublishPoint) : ofJson? p.toJson = some p := by
  cases p <;> rfl

theorem PublishPoint.isLegible_toJson (p : PublishPoint) : p.toJson.IsLegible :=
  isLegible_ofText p.name

theorem StatusSeed.ofJson?_toJson (s : StatusSeed) : ofJson? s.toJson = some s := by
  cases s <;> rfl

theorem StatusSeed.isLegible_toJson (s : StatusSeed) : s.toJson.IsLegible := isLegible_ofText s.name

namespace SyncConfig

/-- The duration is one of the whole seconds that can be given. -/
def IsSeconds (d : Duration) : Prop := ∃ n < 2 ^ 64, d = .ofSeconds n

/-- All durations are. -/
structure IsWhole (c : SyncConfig) : Prop where
  syncInterval : IsSeconds c.syncInterval
  timeout : IsSeconds c.timeout
  observationWindow : IsSeconds c.observationWindow

theorem seconds_ofSeconds (n : Nat) : (Duration.ofSeconds n).seconds = n :=
  Nat.mul_div_cancel n (by decide)

theorem seconds?_ofNat {d : Duration} (h : IsSeconds d) : seconds? (ofNat d.seconds) = some d := by
  obtain ⟨n, lt, rfl⟩ := h
  have read : asNat? (Nat.pow 2 64) (ofNat n) = some n := asNat?_ofNat lt
  rw [seconds?, seconds_ofSeconds, read]
  rfl

theorem isSeconds_of_given {d : Duration} (h : Given seconds? d) : IsSeconds d := by
  obtain ⟨v, h⟩ := h
  obtain ⟨n, hn, rfl⟩ := Option.map_eq_some_iff.mp h
  cases v with
  | numeral m =>
    simp only [asNat?, Numeral.toNat?, Option.ite_none_left_eq_some, Option.ite_none_right_eq_some,
      Option.some.injEq] at hn
    obtain ⟨-, lt, rfl⟩ := hn
    exact ⟨_, lt, rfl⟩
  | _ => cases hn

theorem isSeconds_of_optional? {d default : Duration} {field : Option Json}
    (h : optional? seconds? default field = some d) (hd : IsSeconds default) : IsSeconds d := by
  rcases given_of_optional? h with rfl | given
  · exact hd
  · exact isSeconds_of_given given

theorem transferUnit?_ofNat (n : UInt16) : transferUnit? (ofNat n.toNat) = some n := by
  rw [transferUnit?, asNat?_ofNat n.toNat_lt]
  exact congrArg some UInt16.ofNat_toNat

theorem toJson_eq (c : SyncConfig) : c.toJson =
    record ["syncInterval", "timeout", "mtu", "observationWindow", "publishPoint", "statusSeed"]
      [ofNat c.syncInterval.seconds, ofNat c.timeout.seconds, ofNat c.mtu.toNat,
        ofNat c.observationWindow.seconds, c.publishPoint.toJson, c.statusSeed.toJson] := rfl

variable {c : SyncConfig}

theorem ofJson?_toJson (h : c.IsWhole) : ofJson? c.toJson = some c := by
  rw [ofJson?, toJson_eq, asFields?_record (by decide) rfl]
  simp [optional?, seconds?_ofNat h.syncInterval, seconds?_ofNat h.timeout, transferUnit?_ofNat,
    seconds?_ofNat h.observationWindow, PublishPoint.ofJson?_toJson, StatusSeed.ofJson?_toJson]

theorem isWhole_of_given (h : Given ofJson? c) : c.IsWhole := by
  obtain ⟨v, h⟩ := h
  obtain ⟨fields, -, h⟩ := Option.bind_eq_some_iff.mp h
  split at h
  · obtain ⟨interval, hi, h⟩ := Option.bind_eq_some_iff.mp h
    obtain ⟨timeout, ht, h⟩ := Option.bind_eq_some_iff.mp h
    obtain ⟨mtu, -, h⟩ := Option.bind_eq_some_iff.mp h
    obtain ⟨window, hw, h⟩ := Option.bind_eq_some_iff.mp h
    obtain ⟨point, -, h⟩ := Option.bind_eq_some_iff.mp h
    obtain ⟨seed, -, h⟩ := Option.bind_eq_some_iff.mp h
    obtain rfl := Option.some.inj h
    exact ⟨isSeconds_of_optional? hi ⟨15, by decide, rfl⟩,
      isSeconds_of_optional? ht ⟨60, by decide, rfl⟩,
      isSeconds_of_optional? hw ⟨5, by decide, rfl⟩⟩
  · cases h

theorem isLegible_toJson (c : SyncConfig) : c.toJson.IsLegible := by
  rw [toJson_eq]
  apply isLegible_record
  simp [isLegible_ofNat, PublishPoint.isLegible_toJson, StatusSeed.isLegible_toJson]

end SyncConfig
end GattSync
