import GattSync.Decimal.Shortest

/-!
# The digits sought are not zero

The interval around a positive number lies above zero on every decimal grid, so that no hit is zero:
the shortest decimal has the coefficient zero only for zero itself, and then no exponent.
-/

namespace GattSync.Decimal

namespace Shortest

variable {i : Interval} {m n : Nat} {e : Int}

theorem Interval.lower_ofBinary_pos (h : m ≠ 0) (e : Int) : 0 < (Interval.ofBinary m e).lower := by
  unfold Interval.ofBinary
  apply Nat.mul_pos
  · split <;> omega
  · exact Nat.two_pow_pos _

theorem Interval.lower_inUnits_pos (h : 0 < i.lower) (e : Int) : 0 < (i.inUnits e).lower :=
  Nat.mul_pos h (Nat.pow_pos (Nat.succ_pos 9))

theorem Interval.contains_zero (h : 0 < i.lower) : i.contains 0 = false := by
  have below : ¬ i.lower ≤ 0 := Nat.not_le.mpr h
  unfold Interval.contains
  split <;> simp [below]

theorem le_roundHalfEven (num den : Nat) : num / den ≤ roundHalfEven num den := by
  unfold roundHalfEven
  dsimp only
  split
  · exact Nat.le_refl _
  · split
    · exact Nat.le_succ _
    · split
      · exact Nat.le_refl _
      · exact Nat.le_succ _

theorem Interval.neighbour?_ne_zero (h : 0 < i.lower) (found : i.neighbour? = some n) : n ≠ 0 := by
  unfold Interval.neighbour? at found
  dsimp only at found
  have below : i.contains (i.value / i.den) = true → i.value / i.den ≠ 0 := by
    intro hit zero
    rw [zero, contains_zero h] at hit
    cases hit
  split at found
  · case _ hit _ =>
    obtain rfl := Option.some.inj found
    exact Nat.ne_of_gt (Nat.lt_of_lt_of_le (Nat.pos_of_ne_zero (below hit)) (le_roundHalfEven _ _))
  · case _ hit _ =>
    obtain rfl := Option.some.inj found
    exact below hit
  · obtain rfl := Option.some.inj found
    exact Nat.succ_ne_zero _
  · cases found

theorem coefficient_search_ne_zero (h : 0 < i.lower) {grids count : Nat} {s : Scientific}
    (found : search i e grids count = some s) : s.coefficient ≠ 0 := by
  induction grids generalizing count with
  | zero => cases found
  | succ grids ih =>
    unfold search at found
    dsimp only at found
    split at found
    · case _ hit =>
      obtain rfl := Option.some.inj found
      exact Interval.neighbour?_ne_zero (Interval.lower_inUnits_pos h _) hit
    · exact ih found

theorem coefficient_strip_ne_zero (h : n ≠ 0) (e : Int) : (strip n e).coefficient ≠ 0 := by
  fun_induction strip n e with
  | case1 n e zeros ih => exact ih (by omega)
  | case2 n e => exact h

end Shortest

/-- Only zero itself has the coefficient zero, and it has no exponent. -/
theorem exponent_shortest_eq_zero {m : Nat} {e : Int} (h : (shortest m e).coefficient = 0) :
    (shortest m e).exponent = 0 := by
  unfold shortest at h ⊢
  split
  · rfl
  · case _ positive =>
    rw [if_neg positive] at h
    dsimp only at h ⊢
    split
    · case _ s found =>
      rw [found] at h
      have digits := Shortest.coefficient_search_ne_zero
        (Shortest.Interval.lower_ofBinary_pos positive e) found
      exact absurd h (Shortest.coefficient_strip_ne_zero digits s.exponent)
    · rfl

end GattSync.Decimal
