import Mathlib.Algebra.Group.Nat.Defs

/-!
# Zeros

A binary64 number equals zero if its mantissa and its exponent have no bits. There are two such
numbers, which differ in their sign (`beq_zero_iff`).
-/

namespace GattSync.Decimal

open Float.Model Float.Model.UnpackedFloat

variable {b : BitVec Format.binary64.numBits} {s : Sign} {u : UnpackedFloat} {x : Float}

/-- What is unpacked as zero has no bits but the one of its sign. -/
theorem toNat_of_unpack_eq_zero (h : unpack .binary64 b = .zero s) :
    b.toNat = 0 ∨ b.toNat = 2 ^ 63 := by
  have size : b.toNat < 2 ^ 64 := b.isLt
  unfold UnpackedFloat.unpack at h
  dsimp only at h
  by_cases top : unpackExponent b = -1#_
  · rw [if_pos top] at h
    split at h <;> cases h
  by_cases exponent : unpackExponent b = 0#_
  · by_cases mantissa : unpackMantissa b = 0#_
    · have low : b.toNat % 2 ^ 52 = 0 := by
        have bits := congrArg BitVec.toNat mantissa
        simpa [unpackMantissa] using bits
      have high : b.toNat / 2 ^ 52 % 2 ^ 11 = 0 := by
        have bits := congrArg BitVec.toNat exponent
        simpa [unpackExponent, Nat.shiftRight_eq_div_pow] using bits
      omega
    · rw [if_neg top, if_pos exponent, dif_neg mantissa] at h
      cases h
  · rw [if_neg top, if_neg exponent] at h
    cases h

theorem exists_eq_zero_of_beq (h : u.beq (.zero .positive) = true) : ∃ s, u = .zero s := by
  cases u with
  | zero s => exact ⟨s, rfl⟩
  | notANumber => cases h
  | infinity s => cases s <;> cases h
  | finite s => cases s <;> cases h

/-- The numbers that equal zero are the zeros of either sign. -/
theorem beq_zero_iff : (x == 0.0) = true ↔ x = 0.0 ∨ x = -0.0 := by
  constructor
  · intro h
    obtain ⟨s, unpacked⟩ : ∃ s, x.toModel.unpack = .zero s := exists_eq_zero_of_beq h
    obtain ⟨⟨bits, valid⟩⟩ := x
    rcases toNat_of_unpack_eq_zero unpacked with zero | sign
    · obtain rfl : bits = 0 := UInt64.toNat_inj.mp zero
      exact .inl rfl
    · obtain rfl : bits = 0x8000000000000000 := UInt64.toNat_inj.mp sign
      exact .inr rfl
  · rintro (rfl | rfl) <;> decide

end GattSync.Decimal
