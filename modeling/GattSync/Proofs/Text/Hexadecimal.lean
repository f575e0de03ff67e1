import GattSync.Text.Payload
import GattSync.Uuid
import Mathlib.Algebra.Group.Nat.Defs

/-!
# Hexadecimal numbers

A number that is written with so many hexadecimal digits reads back, but for what does not fit in
them (`hexNumber?_hex`).
-/

namespace GattSync.Text.Payload

open Uuid

/-- A digit is read as the number it was written for. -/
theorem hexValue?_hexDigit {n : Nat} (h : n < 16) : hexValue? (hexDigit n) = some n := by
  revert n
  decide

theorem length_hex (width n : Nat) : (hex width n).length = width := by
  induction width generalizing n with
  | zero => rfl
  | succ width ih => rw [hex, List.length_append, ih, List.length_singleton]

/-- Every character of a hexadecimal number is one of the sixteen digits. -/
theorem exists_eq_hexDigit_of_mem_hex {width n : Nat} {c : Char} (h : c ∈ hex width n) :
    ∃ d < 16, c = hexDigit d := by
  induction width generalizing n with
  | zero => cases h
  | succ width ih =>
    rw [hex, List.mem_append, List.mem_singleton] at h
    rcases h with higher | rfl
    · exact ih higher
    · exact ⟨n % 16, Nat.mod_lt n (by decide), rfl⟩

theorem hexNumberFrom?_append (acc : Nat) (cs more : List Char) :
    hexNumberFrom? acc (cs ++ more) =
      (hexNumberFrom? acc cs).bind fun n => hexNumberFrom? n more := by
  induction cs generalizing acc with
  | nil => rfl
  | cons c cs ih =>
    rw [List.cons_append, hexNumberFrom?, hexNumberFrom?]
    cases hexValue? c with
    | none => rfl
    | some d => exact ih _

/-- Only digits make up a number. -/
theorem exists_hexValue?_of_mem {acc n : Nat} {cs : List Char} {c : Char}
    (h : hexNumberFrom? acc cs = some n) (hc : c ∈ cs) : ∃ d, hexValue? c = some d := by
  induction cs generalizing acc with
  | nil => cases hc
  | cons first cs ih =>
    obtain ⟨d, hd, rest⟩ := Option.bind_eq_some_iff.mp h
    rcases List.mem_cons.mp hc with rfl | later
    · exact ⟨d, hd⟩
    · exact ih rest later

theorem hexNumberFrom?_hex (acc width n : Nat) :
    hexNumberFrom? acc (hex width n) = some (acc * 16 ^ width + n % 16 ^ width) := by
  induction width generalizing n with
  | zero => simp [hex, hexNumberFrom?, Nat.mod_one]
  | succ width ih =>
    have last : hexValue? (hexDigit (n % 16)) = some (n % 16) :=
      hexValue?_hexDigit (Nat.mod_lt n (by decide))
    rw [hex, hexNumberFrom?_append, ih]
    simp only [Option.bind_some, hexNumberFrom?, last, Option.some.injEq]
    rw [Nat.pow_succ', Nat.mod_mul, Nat.mul_left_comm]
    omega

/-- A number reads back, as far as its digits go. -/
theorem hexNumber?_hex (width n : Nat) :
    hexNumber? (hex (width + 1) n) = some (n % 16 ^ (width + 1)) := by
  have written := hexNumberFrom?_hex 0 (width + 1) n
  rw [Nat.zero_mul, Nat.zero_add] at written
  cases hs : hex (width + 1) n with
  | nil => simpa [hs] using length_hex (width + 1) n
  | cons c cs => rwa [hs] at written

end GattSync.Text.Payload
