import GattSync.Spec.Basic
import Mathlib.Data.List.Forall2

/-!
# Whom an identity means

An identity means a peripheral that advertises the identity's name, character by character, and
whose address is the identity's address up to the case of the letters A to Z (`Means`). A field that
is left empty does not filter. This is what the test of a discovered peripheral decides
(`isMatch_iff`).
-/

namespace GattSync

/-- The first character is a capital letter from A to Z, and the second one is the same letter in
lower case. -/
def IsCapitalOf (c d : Char) : Prop := ∃ k < 26, c.toNat = 'A'.toNat + k ∧ d.toNat = 'a'.toNat + k

/-- The characters are equal up to the case of the letters A to Z. -/
def SameLetter (c d : Char) : Prop := c = d ∨ IsCapitalOf c d ∨ IsCapitalOf d c

/-- A peripheral that advertises this name at this address is meant. -/
structure ProtocolIdentity.Means (i : ProtocolIdentity) (localName : Option String)
    (address : String) : Prop where
  name : i.name = "" ∨ localName = some i.name
  address : i.macAddress = "" ∨ List.Forall₂ SameLetter i.macAddress.toList address.toList

/-! ## Letters -/

theorem toNat_toLower (c : Char) :
    c.toLower.toNat = if 65 ≤ c.toNat ∧ c.toNat ≤ 90 then c.toNat + 32 else c.toNat := by
  have bounds : c.val ≥ 'A'.val ∧ c.val ≤ 'Z'.val ↔ 65 ≤ c.toNat ∧ c.toNat ≤ 90 := by
    simp only [ge_iff_le, UInt32.le_iff_toNat_le]
    exact Iff.rfl
  unfold Char.toLower
  split
  · rename_i capital
    rw [if_pos (bounds.mp capital)]
    have small : c.toNat ≤ 90 := (bounds.mp capital).2
    show (c.val + 32).toNat = c.val.toNat + 32
    rw [UInt32.toNat_add]
    exact Nat.mod_eq_of_lt (Nat.lt_of_le_of_lt (Nat.add_le_add_right small 32) (by decide))
  · rename_i other
    rw [if_neg (mt bounds.mpr other)]

theorem toLower_eq_toLower_iff {c d : Char} : c.toLower = d.toLower ↔ SameLetter c d := by
  rw [← Char.toNat_inj, toNat_toLower, toNat_toLower, SameLetter, ← Char.toNat_inj]
  have capitalA : 'A'.toNat = 65 := rfl
  have smallA : 'a'.toNat = 97 := rfl
  simp only [IsCapitalOf, capitalA, smallA]
  constructor
  · intro h
    split at h <;> split at h
    · exact .inl (by omega)
    · exact .inr (.inl ⟨c.toNat - 65, by omega, by omega, by omega⟩)
    · exact .inr (.inr ⟨d.toNat - 65, by omega, by omega, by omega⟩)
    · exact .inl h
  · rintro (h | ⟨k, hk, hc, hd⟩ | ⟨k, hk, hd, hc⟩)
    · rw [h]
    · rw [if_pos (by omega), if_neg (by omega)]
      omega
    · rw [if_neg (by omega), if_pos (by omega)]
      omega

theorem foldCase_eq_foldCase_iff {s t : String} :
    foldCase s = foldCase t ↔ List.Forall₂ SameLetter s.toList t.toList := by
  rw [foldCase, foldCase, ← List.forall₂_eq_eq_eq, List.forall₂_map_left_iff,
    List.forall₂_map_right_iff]
  simp only [toLower_eq_toLower_iff]

/-! ## The test of a peripheral -/

namespace ProtocolIdentity

variable {i : ProtocolIdentity} {localName : Option String} {address : String}

theorem isMatch_iff : i.isMatch localName address = true ↔ i.Means localName address := by
  unfold isMatch
  rw [Bool.and_eq_true_iff, Bool.or_eq_true_iff, Bool.or_eq_true_iff, beq_iff_eq, beq_iff_eq,
    String.isEmpty_iff, String.isEmpty_iff, foldCase_eq_foldCase_iff]
  exact ⟨fun h => ⟨h.1, h.2⟩, fun h => ⟨h.name, h.address⟩⟩

end ProtocolIdentity
end GattSync
