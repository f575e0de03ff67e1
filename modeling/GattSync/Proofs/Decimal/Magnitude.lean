import Mathlib.Algebra.Group.Nat.Defs

/-!
# Binary64 numbers that stay finite

How far a quotient or a converted whole number can be from overflowing. A number is below a power of
two if its mantissa and its exponent show it (`Fits`). Shifting a mantissa to the exponent that it
is rounded at keeps it below, and rounding it up at most doubles the bound, so that the quotient by
a number of two or more stays below what the dividend was below (`isBelow_div`). For a product there
is no such bound: it is finite, or it is packed as infinite (`isFinite_mul`).

That a number is two or more after it has been rounded and packed rests on its 53 bits being kept
(`isTwoOrMore_of_wide`), which they are unless it is too small to have as many.
-/

namespace GattSync.Decimal.Magnitude

open Float.Model Float.Model.UnpackedFloat

/-- The number `mantissa * 2 ^ exponent` is below `2 ^ bound`, and one unit of its last place is not
above. -/
def Fits (bound : Int) (mantissa : Nat) (exponent : Int) : Prop :=
  ∃ width : Nat, mantissa < 2 ^ width ∧ width + exponent ≤ bound

/-- The number is finite and below `2 ^ bound`. -/
def IsBelow (bound : Int) : UnpackedFloat → Prop
  | .zero _ => True
  | .finite _ m e _ => Fits bound m e
  | _ => False

variable {m n : Nat} {e bound : Int} {a : Accuracy}

theorem log2_two_pow_mul (h : n ≠ 0) (k : Nat) : (2 ^ k * n).log2 = k + n.log2 := by
  induction k with
  | zero => rw [Nat.pow_zero, Nat.one_mul, Nat.zero_add]
  | succ k ih =>
    have nonzero : 2 ^ k * n ≠ 0 := Nat.mul_ne_zero (Nat.ne_of_gt (Nat.two_pow_pos k)) h
    rw [Nat.pow_succ', Nat.mul_assoc, Nat.log2_two_mul nonzero, ih]
    omega

/-! ## Rounding -/

theorem mantissa_shiftRight (em : ExtendedMantissa) (n : Nat) :
    (em >>> n).mantissa = em.mantissa / 2 ^ n := by
  induction n with
  | zero => exact (Nat.div_one em.mantissa).symm
  | succ n ih =>
    show (em >>> n).mantissa / 2 = _
    rw [ih, Nat.div_div_eq_div_mul, Nat.pow_succ]

theorem mantissa_ofMantissaAndAccuracy (m : Nat) (a : Accuracy) :
    (ExtendedMantissa.ofMantissaAndAccuracy m a).mantissa = m := by
  cases a with
  | exact => rfl
  | inexact o => cases o <;> rfl

theorem roundedMantissa_le (em : ExtendedMantissa) : em.roundedMantissa ≤ em.mantissa + 1 := by
  obtain ⟨m, r, s⟩ := em
  cases r <;> cases s <;>
    simp [ExtendedMantissa.roundedMantissa, ExtendedMantissa.accuracy, Accuracy.roundToNearestEven]
  omega

theorem le_roundedMantissa (em : ExtendedMantissa) : em.mantissa ≤ em.roundedMantissa := by
  obtain ⟨m, r, s⟩ := em
  cases r <;> cases s <;>
    simp [ExtendedMantissa.roundedMantissa, ExtendedMantissa.accuracy, Accuracy.roundToNearestEven]

/-- Shifted to the exponent that it is rounded at, a number is below what it was below. -/
theorem Fits.shift (h : Fits bound m e) (low : -1074 ≤ bound) :
    Fits bound (shiftToTargetExponent .binary64 m e a).1.mantissa
      (shiftToTargetExponent .binary64 m e a).2 := by
  obtain ⟨width, small, le⟩ := h
  show Fits bound (ExtendedMantissa.ofMantissaAndAccuracy m a >>>
    (Format.binary64.targetExponent (totalExponent m e) - e).toNat).mantissa (e + _)
  rw [mantissa_shiftRight, mantissa_ofMantissaAndAccuracy]
  have log : m.log2 < width ∨ m = 0 := by
    by_cases zero : m = 0
    · exact .inr zero
    · exact .inl ((Nat.log2_lt zero).mpr small)
  have target : Format.binary64.targetExponent (totalExponent m e) =
      max ((m.log2 : Int) + 1 + e - 53) (-1074) := rfl
  generalize ht : Format.binary64.targetExponent (totalExponent m e) = t at target ⊢
  by_cases far : (t - e).toNat ≤ width
  · refine ⟨width - (t - e).toNat, ?_, by omega⟩
    apply Nat.div_lt_of_lt_mul
    rwa [← Nat.pow_add, Nat.add_sub_cancel' far]
  · refine ⟨0, ?_, ?_⟩
    · rw [Nat.div_eq_of_lt (Nat.lt_of_lt_of_le small (Nat.pow_le_pow_right Nat.two_pos (by omega)))]
      exact Nat.one_pos
    · rcases log with log | rfl
      · omega
      · rw [Nat.log2_zero] at target
        omega

/-- A mantissa of 53 bits and more is shifted to 53 bits, unless the number is too small. -/
theorem shift_of_wide (wide : 52 ≤ m.log2) (normal : -1022 ≤ m.log2 + e) :
    (shiftToTargetExponent .binary64 m e a).1.mantissa.log2 = 52 ∧
      (shiftToTargetExponent .binary64 m e a).2 = m.log2 + e - 52 := by
  have nonzero : m ≠ 0 := by
    rintro rfl
    exact absurd wide (by decide)
  have target : Format.binary64.targetExponent (totalExponent m e) = m.log2 + e - 52 := by
    show max ((m.log2 : Int) + 1 + e - 53) (-1074) = _
    omega
  have places : (Format.binary64.targetExponent (totalExponent m e) - e).toNat = m.log2 - 52 := by
    omega
  constructor
  · show (ExtendedMantissa.ofMantissaAndAccuracy m a >>>
      (Format.binary64.targetExponent (totalExponent m e) - e).toNat).mantissa.log2 = 52
    rw [mantissa_shiftRight, mantissa_ofMantissaAndAccuracy, places]
    obtain ⟨least, most⟩ := (Nat.log2_eq_iff nonzero).mp rfl
    have least : 2 ^ 52 ≤ m / 2 ^ (m.log2 - 52) := by
      rwa [Nat.le_div_iff_mul_le (Nat.two_pow_pos _), ← Nat.pow_add, Nat.add_sub_cancel' wide]
    apply (Nat.log2_eq_iff (Nat.ne_of_gt (Nat.lt_of_lt_of_le (Nat.two_pow_pos 52) least))).mpr
    refine ⟨least, Nat.div_lt_of_lt_mul ?_⟩
    rwa [← Nat.pow_add, ← Nat.add_assoc, Nat.sub_add_cancel wide]
  · show e + ((Format.binary64.targetExponent (totalExponent m e) - e).toNat : Int) = _
    omega

/-- Rounding at most doubles the bound. -/
theorem isBelow_roundWithAccuracy (h : Fits bound m e) (low : -1074 ≤ bound) (s : Sign) :
    IsBelow (bound + 1) (roundWithAccuracy .binary64 s m e a) := by
  have shifted := h.shift (a := a) low
  unfold roundWithAccuracy
  generalize shiftToTargetExponent .binary64 m e a = first at shifted ⊢
  obtain ⟨em, e₁⟩ := first
  have rounded : Fits (bound + 1) em.roundedMantissa e₁ := by
    obtain ⟨width, small, le⟩ := shifted
    dsimp only at small
    refine ⟨width + 1, Nat.lt_of_le_of_lt (roundedMantissa_le em) ?_, by omega⟩
    rw [Nat.pow_succ]
    omega
  have final := rounded.shift (a := .exact) (by omega)
  dsimp only
  generalize shiftToTargetExponent .binary64 em.roundedMantissa e₁ .exact = second at final ⊢
  obtain ⟨em₂, e₂⟩ := second
  dsimp only
  by_cases zero : em₂.mantissa = 0
  · rw [dif_pos zero]
    trivial
  · rw [dif_neg zero]
    exact final

/-- A number that is not too small is rounded to 53 bits, and at most to the next power of two. -/
theorem round_of_wide (wide : 52 ≤ m.log2) (normal : -1022 ≤ m.log2 + e) (s : Sign) :
    ∃ n f pos, roundWithAccuracy .binary64 s m e a = .finite s n f pos ∧ n.log2 = 52 ∧
      m.log2 + e ≤ 52 + f ∧ 51 + f ≤ m.log2 + e := by
  obtain ⟨bits, exponent⟩ := shift_of_wide (a := a) wide normal
  unfold roundWithAccuracy
  generalize shiftToTargetExponent .binary64 m e a = first at bits exponent ⊢
  obtain ⟨em, e₁⟩ := first
  dsimp only at bits exponent ⊢
  have nonzero : em.mantissa ≠ 0 := by
    intro zero
    rw [zero] at bits
    exact absurd bits (by decide)
  obtain ⟨least, most⟩ := (Nat.log2_eq_iff nonzero).mp bits
  have up := le_roundedMantissa em
  have next := roundedMantissa_le em
  generalize em.roundedMantissa = r at up next
  have wide : 52 ≤ r.log2 := (Nat.le_log2 (by omega)).mpr (by omega)
  have narrow : r.log2 < 54 := (Nat.log2_lt (by omega)).mpr (by omega)
  obtain ⟨bits, exponent⟩ := shift_of_wide (m := r) (e := e₁) (a := .exact) wide (by omega)
  generalize shiftToTargetExponent .binary64 r e₁ .exact = second at bits exponent ⊢
  have nonzero : second.1.mantissa ≠ 0 := by
    intro zero
    rw [zero] at bits
    exact absurd bits (by decide)
  rw [dif_neg nonzero]
  exact ⟨_, _, _, rfl, bits, by omega, by omega⟩

/-! ## Packing -/

theorem IsBelow.isFinite {u : UnpackedFloat} (h : IsBelow bound u) : u.isFinite = true := by
  cases u with
  | zero | finite => rfl
  | infinity | notANumber => exact h.elim

/-- What fields are unpacked as, unless their exponent is the largest one. -/
theorem unpack_cases {b : BitVec Format.binary64.numBits} {x : BitVec 11}
    (hx : unpackExponent b = x) (number : x ≠ -1#11) :
    (x = 0#11 ∧ ∃ s, unpack .binary64 b = .zero s) ∨
      ∃ s m e pos, unpack .binary64 b = .finite s m e pos ∧
      ((x = 0#11 ∧ m < 2 ^ 52 ∧ e = -1074) ∨
        (x ≠ 0#11 ∧ 2 ^ 52 ≤ m ∧ m < 2 ^ 53 ∧ e = (x.toNat : Int) - 1075)) := by
  unfold UnpackedFloat.unpack
  dsimp only
  rw [hx, if_neg number]
  by_cases subnormal : x = 0#11
  · rw [if_pos subnormal]
    by_cases zero : unpackMantissa b = BitVec.ofNat _ 0
    · rw [dif_pos zero]
      exact .inl ⟨subnormal, _, rfl⟩
    · rw [dif_neg zero]
      have pos : 0 < (unpackMantissa b).toNat :=
        Nat.pos_of_ne_zero fun eq => zero (BitVec.eq_of_toNat_eq eq)
      refine .inr ⟨_, _, _, pos, rfl, .inl ⟨subnormal, (unpackMantissa b).isLt, ?_⟩⟩
      rw [subnormal]
      rfl
  · rw [if_neg subnormal]
    have hidden : 2 ^ 52 ≤ (1#1 ++ unpackMantissa b).toNat := by
      rw [BitVec.toNat_append]
      exact Nat.left_le_or
    have pos := Nat.lt_of_lt_of_le (Nat.two_pow_pos 52) hidden
    exact .inr ⟨_, _, _, pos, rfl, .inr ⟨subnormal, hidden, (1#1 ++ unpackMantissa b).isLt, rfl⟩⟩

/-- Fields with an exponent that is not the largest one are a finite number. -/
theorem isBelow_unpack_packComponents {s : Sign} {x : BitVec 11} {f : BitVec 52}
    (finite : x.toNat < 2047) (low : -1022 ≤ bound)
    (le : x ≠ 0#11 → (x.toNat : Int) - 1022 ≤ bound) :
    IsBelow bound (unpack .binary64 (packComponents .binary64 s x f)) := by
  have notAll : x ≠ -1#11 := by
    rintro rfl
    exact absurd finite (by decide)
  have exponent : unpackExponent (packComponents .binary64 s x f) = x :=
    unpackExponent_packComponents
  rcases unpack_cases exponent notAll with ⟨-, s, zero⟩ | ⟨s, m, e, pos, unpacked, fields⟩
  · rw [zero]
    trivial
  · rw [unpacked]
    rcases fields with ⟨-, small, rfl⟩ | ⟨some, -, small, rfl⟩
    · exact ⟨52, small, by omega⟩
    · have := le some
      exact ⟨53, small, by omega⟩

/-- A number with an exponent that is not too large is packed into fields that are a number. -/
theorem pack_eq_packComponents (s : Sign) (pos : 0 < m) (room : e ≤ 971) :
    ∃ (x : BitVec 11) (f : BitVec 52),
      UnpackedFloat.pack .binary64 (.finite s m e pos) = packComponents .binary64 s x f ∧
        x.toNat < 2047 ∧ (x ≠ 0#11 → m.log2 = 52 ∧ (x.toNat : Int) = e + 1075) ∧
        (m.log2 = 52 → -1075 ≤ e → (x.toNat : Int) = e + 1075) := by
  obtain ⟨biased, hb⟩ : ∃ biased, biased = (e + (1023 : Nat) + (52 : Nat)).toNat := ⟨_, rfl⟩
  have kept : (BitVec.ofNat 11 biased).toNat = biased := by
    rw [BitVec.toNat_ofNat]
    exact Nat.mod_eq_of_lt (by omega)
  have packed : UnpackedFloat.pack .binary64 (.finite s m e pos) =
      if m.log2 + 1 = 53 then
        packComponents .binary64 s (BitVec.ofNat 11 biased) (BitVec.ofNat 52 m)
      else packComponents .binary64 s 0#11 (BitVec.ofNat 52 m) := by
    rw [hb]
    exact if_neg (by show ¬2048 ≤ (e + (1023 : Nat) + (52 : Nat)).toNat + 1; omega)
  rw [packed]
  split
  · case isTrue normal =>
    refine ⟨_, _, rfl, by omega, fun nonzero => ⟨Nat.succ.inj normal, ?_⟩, fun _ _ => by omega⟩
    have positive : biased ≠ 0 := by
      rintro rfl
      exact nonzero rfl
    omega
  · case isFalse narrow =>
    exact ⟨_, _, rfl, by decide, fun ne => absurd rfl ne,
      fun wide => absurd (congrArg (· + 1) wide) narrow⟩

/-- A small number is as small when it has been packed. -/
theorem isBelow_unpack_pack {u : UnpackedFloat} (h : IsBelow bound u) (low : -1022 ≤ bound)
    (high : bound ≤ 971) : IsBelow bound (Float.Model.pack u).unpack := by
  show IsBelow bound (unpack .binary64 (UnpackedFloat.pack .binary64 u))
  cases u with
  | infinity | notANumber => exact h.elim
  | zero s =>
    exact isBelow_unpack_packComponents (x := 0#11) (by decide) low fun ne => absurd rfl ne
  | finite s m e pos =>
    obtain ⟨width, small, le⟩ := h
    have wide : m.log2 < width := (Nat.log2_lt (Nat.ne_of_gt pos)).mpr small
    obtain ⟨x, f, packed, number, normal, -⟩ := pack_eq_packComponents s pos
      (show e ≤ 971 by omega)
    rw [packed]
    apply isBelow_unpack_packComponents number low
    intro ne
    have := normal ne
    omega

/-- The number is finite, and its exponent is not above those that numbers are packed with. -/
def HasRoom : UnpackedFloat → Prop
  | .zero _ => True
  | .finite _ _ e _ => e ≤ 971
  | _ => False

theorem isFinite_unpack_pack {u : UnpackedFloat} (h : HasRoom u) :
    (Float.Model.pack u).unpack.isFinite = true := by
  cases u with
  | infinity | notANumber => exact h.elim
  | zero s =>
    have packed : IsBelow 0 (Float.Model.pack (.zero s)).unpack :=
      isBelow_unpack_pack trivial (by decide) (by decide)
    exact packed.isFinite
  | finite s m e pos =>
    obtain ⟨x, f, packed, number, -⟩ := pack_eq_packComponents s pos h
    show (unpack .binary64 (UnpackedFloat.pack .binary64 _)).isFinite = true
    rw [packed]
    have small : IsBelow 1024 (unpack .binary64 (packComponents .binary64 s x f)) :=
      isBelow_unpack_packComponents number (by decide) fun _ => by omega
    exact small.isFinite

theorem hasRoom_unpack {b : BitVec Format.binary64.numBits}
    (h : (unpack .binary64 b).isFinite = true) : HasRoom (unpack .binary64 b) := by
  obtain ⟨x, exponent⟩ : ∃ x : BitVec 11, unpackExponent b = x := ⟨_, rfl⟩
  by_cases all : x = -1#11
  · unfold UnpackedFloat.unpack at h
    dsimp only at h
    rw [exponent, if_pos all] at h
    split at h <;> cases h
  · have bounded : x.toNat ≠ 2047 := fun eq => all (BitVec.eq_of_toNat_eq eq)
    rcases unpack_cases exponent all with ⟨-, s, zero⟩ | ⟨s, m, e, pos, unpacked, fields⟩
    · rw [zero]
      trivial
    · rw [unpacked]
      show e ≤ 971
      omega

/-! ## Operations -/

/-- Converted whole numbers are small. -/
theorem isBelow_toFloat (n : UInt64) : IsBelow 65 n.toFloat.toModel.unpack := by
  apply isBelow_unpack_pack _ (by decide) (by decide)
  show IsBelow 65 (UnpackedFloat.normalize .binary64 n.toNat 0 .positive)
  unfold UnpackedFloat.normalize
  split
  · case _ negative => exact absurd (Int.compare_eq_lt.mp negative) (by omega)
  · trivial
  · obtain ⟨places, hp⟩ : ∃ places, places =
        (0 - Format.binary64.targetExponent (totalExponent (n.toNat : Int).toNat 0)).toNat :=
      ⟨_, rfl⟩
    show IsBelow (64 + 1) (roundWithAccuracy .binary64 .positive
      ((n.toNat : Int).toNat <<< (0 - Format.binary64.targetExponent _ : Int).toNat)
      (0 - ((0 - Format.binary64.targetExponent _ : Int).toNat : Int)) .exact)
    rw [← hp]
    apply isBelow_roundWithAccuracy _ (by decide)
    refine ⟨64 + places, ?_, by omega⟩
    rw [Int.toNat_natCast, Nat.shiftLeft_eq, Nat.pow_add]
    exact Nat.mul_lt_mul_of_pos_right n.toNat_lt (Nat.two_pow_pos places)

/-- The number is finite and at least two. -/
def IsTwoOrMore : UnpackedFloat → Prop
  | .finite _ m e _ => 1 ≤ m.log2 + e
  | _ => False

instance : (u : UnpackedFloat) → Decidable (IsTwoOrMore u)
  | .finite _ m e _ => inferInstanceAs (Decidable (1 ≤ (m.log2 : Int) + e))
  | .zero _ => isFalse id
  | .infinity _ => isFalse id
  | .notANumber => isFalse id

theorem IsTwoOrMore.isFinite {u : UnpackedFloat} (h : IsTwoOrMore u) : u.isFinite = true := by
  cases u with
  | finite => rfl
  | zero | infinity | notANumber => exact h.elim

/-- The mantissa and the exponent of the quotient by a number of two or more fit in half of what
those of the dividend fit in. -/
theorem fits_divCore {m₁ m₂ : Nat} {e₁ e₂ : Int} (pos₁ : 0 < m₁) (pos₂ : 0 < m₂)
    (h₁ : Fits bound m₁ e₁) (h₂ : 1 ≤ m₂.log2 + e₂) (low : -1000 ≤ bound) :
    Fits (bound - 1) (divCore .binary64 m₁ e₁ m₂ e₂).1 (divCore .binary64 m₁ e₁ m₂ e₂).2.1 := by
  obtain ⟨width, small, le⟩ := h₁
  have log₁ : m₁.log2 < width := (Nat.log2_lt (Nat.ne_of_gt pos₁)).mpr small
  have log₂ : 2 ^ m₂.log2 ≤ m₂ := Nat.log2_self_le (Nat.ne_of_gt pos₂)
  obtain ⟨target, ht⟩ : ∃ target, target = min (e₁ - e₂)
      (max ((m₁.log2 + 1 + e₁) - (m₂.log2 + 1 + e₂) - 53) (-1074)) := ⟨_, rfl⟩
  obtain ⟨places, hp⟩ : ∃ places, places = (e₁ - e₂ - target).toNat := ⟨_, rfl⟩
  have core : divCore .binary64 m₁ e₁ m₂ e₂ = ((m₁ <<< places) / m₂, target,
      accuracyOfFraction ((m₁ <<< places) % m₂) m₂) := by
    rw [hp, ht]
    rfl
  have shifted : m₁ <<< places < 2 ^ (width + places) := by
    rw [Nat.shiftLeft_eq, Nat.pow_add]
    exact Nat.mul_lt_mul_of_pos_right small (Nat.two_pow_pos places)
  rw [core]
  dsimp only
  by_cases near : m₂.log2 ≤ width + places
  · refine ⟨width + places - m₂.log2, ?_, by omega⟩
    apply Nat.div_lt_of_lt_mul
    calc m₁ <<< places < 2 ^ m₂.log2 * 2 ^ (width + places - m₂.log2) := by
          rwa [← Nat.pow_add, Nat.add_sub_cancel' near]
      _ ≤ m₂ * 2 ^ (width + places - m₂.log2) := Nat.mul_le_mul_right _ log₂
  · refine ⟨0, ?_, by omega⟩
    have larger : m₁ <<< places < m₂ := Nat.lt_of_lt_of_le
      (Nat.lt_of_lt_of_le shifted (Nat.pow_le_pow_right Nat.two_pos (by omega))) log₂
    rw [Nat.div_eq_of_lt larger]
    exact Nat.one_pos

/-- A number of 53 bits that is at least two is so when it has been packed. -/
theorem isTwoOrMore_unpack_pack {s : Sign} {pos : 0 < m} (bits : m.log2 = 52) (low : -51 ≤ e)
    (high : e ≤ 971) : IsTwoOrMore (Float.Model.pack (.finite s m e pos)).unpack := by
  obtain ⟨x, f, packed, number, -, normal⟩ := pack_eq_packComponents s pos high
  have field := normal bits (by omega)
  have notAll : x ≠ -1#11 := by
    rintro rfl
    exact absurd number (by decide)
  have exponent : unpackExponent (packComponents .binary64 s x f) = x :=
    unpackExponent_packComponents
  show IsTwoOrMore (unpack .binary64 (UnpackedFloat.pack .binary64 (.finite s m e pos)))
  rw [packed]
  have nonzero : x ≠ 0#11 := by
    rintro rfl
    have zero : (0#11).toNat = 0 := rfl
    omega
  rcases unpack_cases exponent notAll with ⟨zero, -⟩ | ⟨s, n, g, pos, unpacked, fields⟩
  · exact absurd zero nonzero
  · rw [unpacked]
    rcases fields with ⟨zero, -⟩ | ⟨-, least, -, rfl⟩
    · exact absurd zero nonzero
    · have wide : 52 ≤ n.log2 := (Nat.le_log2 (Nat.ne_of_gt pos)).mpr least
      show 1 ≤ (n.log2 : Int) + (x.toNat - 1075)
      omega

theorem isTwoOrMore_of_wide (wide : 52 ≤ m.log2) (low : 1 ≤ m.log2 + e) (high : m.log2 + e ≤ 1022)
    (s : Sign) : IsTwoOrMore (Float.Model.pack (roundWithAccuracy .binary64 s m e a)).unpack := by
  have normal : -1022 ≤ m.log2 + e := by omega
  obtain ⟨n, f, pos, rounded, bits, least, most⟩ := round_of_wide (a := a) wide normal s
  rw [rounded]
  exact isTwoOrMore_unpack_pack bits (by omega) (by omega)

/-- A quotient by a number of two or more is below what the dividend is below. -/
theorem isBelow_div {x y : Float} (hx : IsBelow bound x.toModel.unpack)
    (hy : IsTwoOrMore y.toModel.unpack) (low : -1000 ≤ bound) (high : bound ≤ 971) :
    IsBelow bound (x / y).toModel.unpack := by
  apply isBelow_unpack_pack _ (by omega) high
  generalize x.toModel.unpack = u at hx
  generalize y.toModel.unpack = v at hy
  cases v with
  | zero | infinity | notANumber => exact hy.elim
  | finite s₂ m₂ e₂ pos₂ =>
    cases u with
    | infinity | notANumber => exact hx.elim
    | zero => trivial
    | finite s₁ m₁ e₁ pos₁ =>
      have rounded := isBelow_roundWithAccuracy (fits_divCore pos₁ pos₂ hx hy low) (by omega)
        (a := (divCore .binary64 m₁ e₁ m₂ e₂).2.2) (s₁ / s₂)
      rwa [Int.sub_add_cancel] at rounded

/-! ## Finite numbers -/

theorem isFinite_neg {x : Float} (h : x.isFinite = true) : (-x).isFinite = true := by
  apply isFinite_unpack_pack
  have room : HasRoom x.toModel.unpack := hasRoom_unpack h
  generalize x.toModel.unpack = u at room
  cases u with
  | zero s => trivial
  | finite s m e pos => exact room
  | infinity | notANumber => exact room.elim

theorem isFinite_roundWithAccuracy (s : Sign) (m : Nat) (e : Int) (a : Accuracy) :
    (roundWithAccuracy .binary64 s m e a).isFinite = true := by
  have fits : Fits (max (m.log2 + 1 + e) (-1074)) m e := ⟨m.log2 + 1, Nat.lt_log2_self, by omega⟩
  exact (isBelow_roundWithAccuracy fits (by omega) s).isFinite

theorem isFinite_product {u v : UnpackedFloat} (hu : u.isFinite = true) (hv : v.isFinite = true) :
    (UnpackedFloat.mul .binary64 u v).isFinite = true := by
  cases u with
  | infinity | notANumber => cases hu
  | zero => cases v with
    | infinity | notANumber => cases hv
    | zero | finite => rfl
  | finite => cases v with
    | infinity | notANumber => cases hv
    | zero => rfl
    | finite => apply isFinite_roundWithAccuracy

/-- What is not packed as a number is packed as infinite. -/
theorem isInf_unpack_pack {u : UnpackedFloat} (h : u.isFinite = true) (room : ¬HasRoom u) :
    (Float.Model.pack u).unpack.isInf = true := by
  cases u with
  | infinity | notANumber => cases h
  | zero s => exact absurd trivial room
  | finite s m e pos =>
    have packed :
        UnpackedFloat.pack .binary64 (.finite s m e pos) = packedInfinity .binary64 s := by
      apply if_pos
      show 2048 ≤ (e + (1023 : Nat) + (52 : Nat)).toNat + 1
      unfold HasRoom at room
      omega
    show (unpack .binary64 (UnpackedFloat.pack .binary64 _)).isInf = true
    rw [packed]
    cases s <;> rfl

/-- A product of finite numbers that is not infinite is finite. -/
theorem isFinite_mul {x y : Float} (hx : x.isFinite = true) (hy : y.isFinite = true)
    (h : (x * y).isInf = false) : (x * y).isFinite = true := by
  apply isFinite_unpack_pack
  refine Classical.byContradiction fun absent => ?_
  exact Bool.false_ne_true (h.symm.trans (isInf_unpack_pack (isFinite_product hx hy) absent))

end GattSync.Decimal.Magnitude
