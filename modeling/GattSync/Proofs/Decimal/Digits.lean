import GattSync.Decimal.Binary64
import Mathlib.Algebra.Group.Nat.Defs

/-!
# Decimal digits

The digits of a number denote it, and the first of them is zero only where it is the only one. At
the front of a text they are taken up to what is none, or as many as are asked for
(`takeDigits_append`).
-/

namespace GattSync.Decimal

@[simp] theorem digit?_digitChar (d : Fin 10) : digit? (digitChar d) = some d := by
  decide +revert

theorem digitChar_ne_of_digit? {d : Fin 10} {c : Char} (h : digit? c = none) : digitChar d ≠ c := by
  rintro rfl
  simp at h

theorem ofDigits_concat (ds : List (Fin 10)) (d : Fin 10) :
    ofDigits (ds ++ [d]) = ofDigits ds * 10 + d.val :=
  List.foldl_append

@[simp] theorem ofDigits_digits (n : Nat) : ofDigits (digits n) = n := by
  fun_induction digits n with
  | case1 n h => exact Nat.zero_add n
  | case2 n h ih =>
    rw [ofDigits_concat, ih]
    exact Nat.div_add_mod' n 10

theorem ofDigits_lt (ds : List (Fin 10)) : ofDigits ds < 10 ^ ds.length := by
  have go (n : Nat) : ds.foldl (fun n d => n * 10 + d.val) n < (n + 1) * 10 ^ ds.length := by
    induction ds generalizing n with
    | nil => simp
    | cons d ds ih =>
      have next : (n * 10 + d.val + 1) * 10 ^ ds.length ≤ (n + 1) * 10 * 10 ^ ds.length :=
        Nat.mul_le_mul_right _ (by omega)
      rw [List.foldl_cons, List.length_cons, Nat.pow_succ', ← Nat.mul_assoc]
      exact Nat.lt_of_lt_of_le (ih _) next
  exact Nat.lt_of_lt_of_eq (go 0) (by rw [Nat.zero_add, Nat.one_mul])

theorem digits_ne_nil (n : Nat) : digits n ≠ [] := by
  rw [digits]
  split <;> simp

/-- A number below a power of ten has no more digits than the power says, if it says any. -/
theorem length_digits_le {n k : Nat} (h : n < 10 ^ (k + 1)) : (digits n).length ≤ k + 1 := by
  fun_induction digits n generalizing k with
  | case1 n lt => exact Nat.le_add_left 1 k
  | case2 n ge ih =>
    cases k with
    | zero => omega
    | succ k =>
      rw [Nat.pow_succ] at h
      rw [List.length_append]
      exact Nat.succ_le_succ (ih (by omega))

theorem exists_digits_eq_cons {n : Nat} (h : n ≠ 0) : ∃ d ds, digits n = d :: ds ∧ d ≠ 0 := by
  fun_induction digits n with
  | case1 n lt => exact ⟨⟨n, lt⟩, [], rfl, fun zero => h (congrArg Fin.val zero)⟩
  | case2 n ge ih =>
    obtain ⟨d, ds, hd, ne⟩ := ih (by omega)
    rw [hd]
    exact ⟨d, _, rfl, ne⟩

/-! ## Digits at the front of a text -/

section Taking

variable {limit : Nat} {ds : List (Fin 10)} {s : List Char}

/-- Digits are taken up to what is none, or as many as are asked for. -/
theorem takeDigits_append (enough : ds.length ≤ limit)
    (ends : ds.length = limit ∨ ∀ c ∈ s.head?, digit? c = none) :
    takeDigits limit (ds.map digitChar ++ s) = (ds, s) := by
  induction ds generalizing limit with
  | nil =>
    match limit, s, ends with
    | 0, _, _ => rfl
    | _ + 1, [], _ => rfl
    | _ + 1, c :: s, .inr h => simp [takeDigits, h c rfl]
  | cons d ds ih =>
    obtain ⟨limit, rfl⟩ := Nat.exists_eq_succ_of_ne_zero (Nat.ne_of_gt (Nat.zero_lt_of_lt enough))
    have rest := ih (Nat.le_of_succ_le_succ enough) (ends.imp_left Nat.succ.inj)
    simp [takeDigits, rest]

theorem takeAllDigits_append (ds : List (Fin 10)) (h : ∀ c ∈ s.head?, digit? c = none) :
    takeAllDigits (ds.map digitChar ++ s) = (ds, s) :=
  takeDigits_append (by simp) (.inr h)

theorem takeAllDigits_map (ds : List (Fin 10)) : takeAllDigits (ds.map digitChar) = (ds, []) := by
  simpa using takeAllDigits_append ds (s := []) nofun

theorem length_takeDigits_le (limit : Nat) (s : List Char) :
    (takeDigits limit s).1.length ≤ limit := by
  fun_induction takeDigits limit s with
  | case1 => exact Nat.le_refl 0
  | case2 => exact Nat.zero_le _
  | case3 limit c s d hd ih => exact Nat.succ_le_succ ih
  | case4 => exact Nat.zero_le _

end Taking

end GattSync.Decimal
