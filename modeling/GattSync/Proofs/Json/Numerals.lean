import GattSync.Json.Numeral
import GattSync.Proofs.Decimal.Digits
import GattSync.Proofs.Decimal.Shortest
import Mathlib.Data.Option.Basic

/-!
# Numerals as they are written

A numeral that keeps to the grammar is read back from its text (`ofChars?_render`). The numerals
that numbers are written by keep to it: that of a whole number, which is read as the same number
(`toNat?_ofNat`), and that of a binary64 number (`isGrammatical_ofFloat?`), whose digits do not
begin with a zero since the interval that they are sought in lies above zero.
-/

namespace GattSync.Json.Numeral

open GattSync.Decimal

/-! ## Text -/

/-- The numeral is one of the grammar: its whole part does not begin with a zero unless it is one,
and its exponent has digits. -/
structure IsGrammatical (n : Numeral) : Prop where
  whole : isWhole n.whole = true
  exponent : ∀ e, n.exponent = some e → e.digits ≠ [] ∧ ∀ c, e.sign = some c → c = '+' ∨ c = '-'

variable {ds : List (Fin 10)} {s : List Char} {n : Numeral}

theorem exponentOfChars?_render {e : Exponent} (digits : e.digits ≠ [])
    (sign : ∀ c, e.sign = some c → c = '+' ∨ c = '-') :
    exponentOfChars? (e.sign.toList ++ e.digits.map digitChar) = some e := by
  obtain ⟨mark, ds⟩ := e
  obtain ⟨d, ds, rfl⟩ := List.exists_cons_of_ne_nil digits
  have taken := takeAllDigits_map (d :: ds)
  rw [List.map_cons] at taken
  cases mark with
  | none =>
    have plus : digitChar d ≠ '+' := digitChar_ne_of_digit? (by decide)
    have minus : digitChar d ≠ '-' := digitChar_ne_of_digit? (by decide)
    simp [exponentOfChars?, taken, plus, minus]
  | some c =>
    obtain rfl | rfl := sign c rfl <;> simp [exponentOfChars?, taken]

/-- The end of a numeral, from its `e` on. -/
def exponentText : Option Exponent → List Char
  | none => []
  | some e => 'e' :: (e.sign.toList ++ e.digits.map digitChar)

/-- The end of a numeral, from its point on. -/
def fractionText (ds : List (Fin 10)) (e : Option Exponent) : List Char :=
  (if ds = [] then [] else '.' :: ds.map digitChar) ++ exponentText e

theorem render_eq (n : Numeral) : n.render =
    (if n.negative then ['-'] else []) ++
      (n.whole.map digitChar ++ fractionText n.fraction n.exponent) := by
  unfold render fractionText exponentText
  cases n.exponent <;> simp

theorem digit?_head_exponentText {e : Option Exponent} :
    ∀ c ∈ (exponentText e).head?, digit? c = none := by
  cases e with
  | none => exact nofun
  | some e =>
    rintro c ⟨⟩
    decide

theorem digit?_head_fractionText {e : Option Exponent} :
    ∀ c ∈ (fractionText ds e).head?, digit? c = none := by
  unfold fractionText
  split
  · exact digit?_head_exponentText
  · rintro c ⟨⟩
    decide

/-- A numeral of the grammar is read as it was written. -/
theorem ofChars?_render (h : n.IsGrammatical) : ofChars? n.render = some n := by
  obtain ⟨negative, whole, fraction, exponent⟩ := n
  obtain ⟨hw, he⟩ := h
  dsimp only at hw he
  obtain ⟨d, ds, rfl⟩ : ∃ d ds, whole = d :: ds := by
    cases whole with
    | nil => cases hw
    | cons d ds => exact ⟨d, ds, rfl⟩
  have minus : digitChar d ≠ '-' := digitChar_ne_of_digit? (by decide)
  have wholeTaken := takeAllDigits_append (d :: ds) (s := fractionText fraction exponent)
    digit?_head_fractionText
  have fractionTaken := takeAllDigits_append fraction (s := exponentText exponent)
    digit?_head_exponentText
  have power : ∀ e, exponent = some e →
      exponentOfChars? (e.sign.toList ++ e.digits.map digitChar) = some e :=
    fun e eq => exponentOfChars?_render (he e eq).1 (he e eq).2
  rw [List.map_cons, List.cons_append] at wholeTaken
  rw [render_eq]
  cases fraction with
  | nil =>
    cases exponent <;> cases negative <;>
      simp_all [ofChars?, fractionText, exponentText, guard]
  | cons f fs =>
    rw [List.map_cons, List.cons_append] at fractionTaken
    cases exponent <;> cases negative <;>
      simp_all [ofChars?, fractionText, exponentText, guard]

/-! ## Whole numbers -/

theorem isWhole_digits (n : Nat) : isWhole (digits n) = true := by
  by_cases zero : n = 0
  · subst zero
    decide +kernel
  · obtain ⟨d, ds, hd, ne⟩ := exists_digits_eq_cons zero
    rw [hd]
    cases ds with
    | nil => rfl
    | cons e ds => simpa [isWhole] using ne

theorem isGrammatical_ofNat (n : Nat) : (ofNat n).IsGrammatical :=
  ⟨isWhole_digits n, nofun⟩

/-- A whole number is read back, below any limit that it is below. -/
theorem toNat?_ofNat {limit n : Nat} (h : n < limit) : (ofNat n).toNat? limit = some n := by
  simp [toNat?, ofNat, h]

/-! ## Binary64 numbers -/

/-- Digits that do not begin with a zero, or are one digit, make up a whole part also when they are
cut off behind the first one. -/
theorem isWhole_take_digits (n k : Nat) : isWhole ((digits n).take (k + 1)) = true := by
  have whole := isWhole_digits n
  generalize digits n = ds at whole
  match ds, k, whole with
  | [_], _, _ => simp [isWhole]
  | _ :: _ :: _, 0, _ => rfl
  | d :: e :: ds, k + 1, whole => simpa [isWhole] using whole

/-- So they do with zeros behind them, if they are not a zero. -/
theorem isWhole_digits_append {n k : Nat} (h : n = 0 → k = 0) :
    isWhole (digits n ++ List.replicate k 0) = true := by
  by_cases zero : n = 0
  · rw [h zero, List.replicate_zero, List.append_nil]
    exact isWhole_digits n
  · obtain ⟨d, ds, hd, ne⟩ := exists_digits_eq_cons zero
    rw [hd, List.cons_append]
    cases ds ++ List.replicate k 0 with
    | nil => rfl
    | cons e ds => simpa [isWhole] using ne

theorem isGrammatical_ofScientific (negative : Bool) {s : Scientific}
    (h : s.coefficient = 0 → s.exponent = 0) : (ofScientific negative s).IsGrammatical := by
  unfold ofScientific
  dsimp only
  split
  · split
    · exact ⟨isWhole_digits_append fun zero => by rw [h zero]; rfl, nofun⟩
    · split
      · exact ⟨isWhole_take_digits _ _, nofun⟩
      · exact ⟨rfl, nofun⟩
  · refine ⟨isWhole_take_digits _ 0, fun e eq => ?_⟩
    obtain rfl := Option.some.inj eq
    refine ⟨digits_ne_nil _, fun c eq => ?_⟩
    obtain rfl := Option.some.inj eq
    split
    · exact .inr rfl
    · exact .inl rfl

theorem isGrammatical_ofFloat? {x : Float} (h : ofFloat? x = some n) : n.IsGrammatical := by
  unfold ofFloat? at h
  split at h
  · obtain rfl := Option.some.inj h
    exact isGrammatical_ofScientific _ exponent_shortest_eq_zero
  · cases h

end GattSync.Json.Numeral
