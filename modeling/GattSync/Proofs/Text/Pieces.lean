import GattSync.Text.Octets

/-!
# Pieces and their octets

The tests for well-formed sequences in numbers, and the characters that these sequences are the
UTF-8 forms of. Cutting a string of octets into its pieces therefore loses nothing
(`flatMap_octets_pieces`).
-/

namespace GattSync.Text

theorem toNat_ofNat {n : Nat} (h : n.isValidChar) : (Char.ofNat n).toNat = n := by
  rw [Char.ofNat, dif_pos h]
  rfl

namespace Octets

/-! ## Characters and their octets -/

theorem ofNat_eq {n : Nat} {a : UInt8} (h : n = a.toNat) : UInt8.ofNat n = a := by
  rw [h, UInt8.ofNat_toNat]

theorem isTail_iff {b : UInt8} : isTail b ↔ 0x80 ≤ b.toNat ∧ b.toNat ≤ 0xbf := by
  simp [isTail, UInt8.le_iff_toNat_le]

theorem isPair_iff {a b : UInt8} :
    isPair a b ↔ 0xc2 ≤ a.toNat ∧ a.toNat ≤ 0xdf ∧ isTail b := by
  simp [isPair, UInt8.le_iff_toNat_le, and_assoc]

theorem isTriple_iff {a b c : UInt8} :
    isTriple a b c ↔ isTail c ∧
      (a.toNat = 0xe0 ∧ 0xa0 ≤ b.toNat ∧ b.toNat ≤ 0xbf ∨
        0xe1 ≤ a.toNat ∧ a.toNat ≤ 0xec ∧ isTail b ∨
        a.toNat = 0xed ∧ 0x80 ≤ b.toNat ∧ b.toNat ≤ 0x9f ∨
        0xee ≤ a.toNat ∧ a.toNat ≤ 0xef ∧ isTail b) := by
  simp [isTriple, UInt8.le_iff_toNat_le, ← UInt8.toNat_inj, and_assoc, or_assoc]

theorem isQuad_iff {a b c d : UInt8} :
    isQuad a b c d ↔ isTail c ∧ isTail d ∧
      (a.toNat = 0xf0 ∧ 0x90 ≤ b.toNat ∧ b.toNat ≤ 0xbf ∨
        0xf1 ≤ a.toNat ∧ a.toNat ≤ 0xf3 ∧ isTail b ∨
        a.toNat = 0xf4 ∧ 0x80 ≤ b.toNat ∧ b.toNat ≤ 0x8f) := by
  simp [isQuad, UInt8.le_iff_toNat_le, ← UInt8.toNat_inj, and_assoc, or_assoc]

/-- One octet is the character of its number. -/
theorem utf8EncodeChar_ofNat {a : UInt8} (h : a < 0x80) :
    String.utf8EncodeChar (Char.ofNat a.toNat) = [a] := by
  have small : a.toNat < 128 := h
  have value : (Char.ofNat a.toNat).val.toNat = a.toNat := toNat_ofNat (by omega)
  rw [String.utf8EncodeChar]
  simp only [value]
  rw [if_pos (by omega), UInt8.ofNat_toNat]

theorem utf8EncodeChar_pair {a b : UInt8} (h : isPair a b) :
    String.utf8EncodeChar (pair a b) = [a, b] := by
  rw [isPair_iff, isTail_iff] at h
  have value : (pair a b).val.toNat = a.toNat % 32 * 64 + b.toNat % 64 :=
    toNat_ofNat (by unfold low; omega)
  unfold String.utf8EncodeChar
  simp only [value]
  rw [if_neg (by omega), if_pos (by omega)]
  congr 1
  · exact ofNat_eq (by omega)
  congr 1
  exact ofNat_eq (by omega)

theorem utf8EncodeChar_triple {a b c : UInt8} (h : isTriple a b c) :
    String.utf8EncodeChar (triple a b c) = [a, b, c] := by
  simp only [isTriple_iff, isTail_iff] at h
  have value : (triple a b c).val.toNat =
      (a.toNat % 16 * 64 + b.toNat % 64) * 64 + c.toNat % 64 :=
    toNat_ofNat (by unfold low; omega)
  unfold String.utf8EncodeChar
  simp only [value]
  rw [if_neg (by omega), if_neg (by omega), if_pos (by omega)]
  congr 1
  · exact ofNat_eq (by omega)
  congr 1
  · exact ofNat_eq (by omega)
  congr 1
  exact ofNat_eq (by omega)

theorem utf8EncodeChar_quad {a b c d : UInt8} (h : isQuad a b c d) :
    String.utf8EncodeChar (quad a b c d) = [a, b, c, d] := by
  simp only [isQuad_iff, isTail_iff] at h
  have value : (quad a b c d).val.toNat =
      ((a.toNat % 8 * 64 + b.toNat % 64) * 64 + c.toNat % 64) * 64 + d.toNat % 64 :=
    toNat_ofNat (by unfold low; omega)
  unfold String.utf8EncodeChar
  simp only [value]
  rw [if_neg (by omega), if_neg (by omega), if_neg (by omega)]
  congr 1
  · exact ofNat_eq (by omega)
  congr 1
  · exact ofNat_eq (by omega)
  congr 1
  · exact ofNat_eq (by omega)
  congr 1
  exact ofNat_eq (by omega)

end Octets

/-- The octets that an element of a payload consists of. -/
def Piece.octets : Piece → Bytes
  | .char c => String.utf8EncodeChar c
  | .octet b => [b]

/-- Cutting a payload into pieces loses nothing. -/
theorem flatMap_octets_pieces (payload : Bytes) :
    (pieces payload).flatMap Piece.octets = payload := by
  fun_induction pieces payload with
  | case1 => rfl
  | case2 a l h ih => simp [Piece.octets, Octets.utf8EncodeChar_ofNat h, ih]
  | case3 a h => rfl
  | case4 a h b m hp ih => simp [Piece.octets, Octets.utf8EncodeChar_pair hp, ih]
  | case5 a h b hp ih => simp [Piece.octets, ih]
  | case6 a h b hp c n ht ih => simp [Piece.octets, Octets.utf8EncodeChar_triple ht, ih]
  | case7 a h b hp c ht ih => simp [Piece.octets, ih]
  | case8 a h b hp c ht d o hq ih => simp [Piece.octets, Octets.utf8EncodeChar_quad hq, ih]
  | case9 a h b hp c ht d o hq ih => simp [Piece.octets, ih]

end GattSync.Text
