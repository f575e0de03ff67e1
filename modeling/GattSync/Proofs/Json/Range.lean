import GattSync.Json.Numeral
import GattSync.Proofs.Decimal.Magnitude

/-!
# Numerals give finite numbers

The number that a numeral gives is finite (`isFinite_of_toFloat?`). A multiplication by a power of
ten is refused if it overflows. A division by one is not checked, and need not be: 64 bits of digits
are far below the largest number, and they do not grow when they are divided by two or more.

Up to `10 ^ 22` the powers of ten are looked up; the others are computed, and rounded. The largest
of them would have room to be rounded up to infinity, and is checked by itself not to be.
-/

namespace GattSync.Json.Numeral

open GattSync.Decimal GattSync.Decimal.Magnitude Float.Model.UnpackedFloat

theorem isTwoOrMore_powerOfTen_of_le :
    ∀ n ≤ 22, 0 < n → IsTwoOrMore (powerOfTen n).toModel.unpack := by
  decide +kernel

theorem powerOfTen_of_gt {n : Nat} (gt : 22 < n) (lt : n < largestPower) : (powerOfTen n).toModel =
    .pack (roundWithAccuracy .binary64 .positive (2 ^ 53 * 10 ^ n) (-53) .exact) := by
  have lt : n < 308 := lt
  have computed : powerOfTen n = .ofModel (.ofScientific 1 n) := dif_neg fun table => by omega
  rw [computed]
  show Float.Model.pack (Float.Model.UnpackedFloat.ofScientific .binary64 1 n) = _
  unfold Float.Model.UnpackedFloat.ofScientific
  rw [dif_neg Nat.one_ne_zero, if_neg (by show ¬(n : Int) > 2048; omega),
    if_neg (by show ¬(n : Int) < -2048; omega), if_pos (Int.natCast_nonneg n)]
  rfl

theorem isTwoOrMore_powerOfTen_of_gt {n : Nat} (gt : 22 < n) (lt : n < largestPower) :
    IsTwoOrMore (powerOfTen n).toModel.unpack := by
  have nonzero : 10 ^ n ≠ 0 := Nat.ne_of_gt (Nat.pow_pos (by decide))
  have least : 1 ≤ (10 ^ n).log2 := (Nat.le_log2 nonzero).mpr <|
    Nat.le_trans (by decide) (Nat.pow_le_pow_right (by decide) gt)
  have most : (10 ^ n).log2 < 1023 := (Nat.log2_lt nonzero).mpr <|
    Nat.lt_of_le_of_lt (Nat.pow_le_pow_right (by decide) (Nat.le_of_lt_succ lt)) (by decide +kernel)
  have product := log2_two_pow_mul nonzero 53
  rw [powerOfTen_of_gt gt lt]
  exact isTwoOrMore_of_wide (by omega) (by omega) (by omega) _

theorem isTwoOrMore_powerOfTen {n : Nat} (pos : 0 < n) (le : n ≤ largestPower) :
    IsTwoOrMore (powerOfTen n).toModel.unpack := by
  by_cases table : n ≤ 22
  · exact isTwoOrMore_powerOfTen_of_le n table pos
  · rcases Nat.lt_or_eq_of_le le with lt | rfl
    · exact isTwoOrMore_powerOfTen_of_gt (Nat.lt_of_not_le table) lt
    · decide +kernel

theorem isFinite_powerOfTen {n : Nat} (le : n ≤ largestPower) : (powerOfTen n).isFinite = true := by
  rcases Nat.eq_zero_or_pos n with rfl | pos
  · decide +kernel
  · exact (isTwoOrMore_powerOfTen pos le).isFinite

theorem isBelow_div_powerOfTen {x : Float} {n : Nat} (h : IsBelow 65 x.toModel.unpack) (pos : 0 < n)
    (le : n ≤ largestPower) : IsBelow 65 (x / powerOfTen n).toModel.unpack :=
  isBelow_div h (isTwoOrMore_powerOfTen pos le) (by decide) (by decide)

/-- A small number stays small however often it is divided. -/
theorem isBelow_divideByPower {x : Float} {n : Nat} (h : IsBelow 65 x.toModel.unpack)
    (pos : 0 < n) : IsBelow 65 (divideByPower x n).toModel.unpack := by
  fun_induction divideByPower x n with
  | case1 x n le => exact isBelow_div_powerOfTen h pos le
  | case2 => exact h
  | case3 x n gt ne ih =>
    apply ih
    · exact isBelow_div_powerOfTen h (by decide) (Nat.le_refl largestPower)
    · exact Nat.sub_pos_of_lt (Nat.lt_of_not_le gt)

theorem isFinite_of_scale? {significand : Nat} {exponent : Int} {x : Float}
    (h : scale? significand exponent = some x) : x.isFinite = true := by
  have small := isBelow_toFloat significand.toUInt64
  unfold scale? at h
  dsimp only at h
  split at h
  · case isTrue negative =>
    obtain rfl := Option.some.inj h
    exact (isBelow_divideByPower small (by omega)).isFinite
  · split at h
    · case isTrue le =>
      split at h
      · cases h
      · case isFalse finite =>
        obtain rfl := Option.some.inj h
        exact isFinite_mul small.isFinite (isFinite_powerOfTen le) (by simpa using finite)
    · split at h
      · obtain rfl := Option.some.inj h
        exact small.isFinite
      · cases h

theorem isFinite_of_toFloat? {n : Numeral} {x : Float} (h : n.toFloat? = some x) :
    x.isFinite = true := by
  obtain ⟨y, scaled, rfl⟩ := Option.map_eq_some_iff.mp h
  have finite := isFinite_of_scale? scaled
  split
  · exact isFinite_neg finite
  · exact finite

end GattSync.Json.Numeral
