import GattSync.Time.Rfc3339
import GattSync.Proofs.Decimal.Digits
import GattSync.Proofs.Text.Trimming
import GattSync.Proofs.Time.Calendar
import Mathlib.Data.Option.Basic

/-!
# Moments as they are written

A moment that was read is read back from its text (`read?_write`). Nothing else is written that
could not be read: a leap second stands behind the last second of a minute, as offsets from UTC are
whole minutes, and the day lies in the range that reading allows (`IsWritable`).
-/

namespace GattSync.Rfc3339

open Decimal

variable {rest : List Char} {n width : Nat}

/-! ## Numbers -/

/-- The digits that a number is written with, those that only fill it up among them. -/
def paddedDigits (width n : Nat) : List (Fin 10) := (padded width n).filterMap digit?

theorem paddedDigits_eq (width n : Nat) :
    paddedDigits width n = List.replicate (width - (digits n).length) 0 ++ digits n := by
  have zero : digit? '0' = some 0 := rfl
  have written : digit? ∘ digitChar = some := funext digit?_digitChar
  rw [paddedDigits, padded, List.filterMap_append, List.filterMap_replicate_of_some zero,
    List.filterMap_map, written, List.filterMap_some, List.length_map]

theorem padded_eq (width n : Nat) : padded width n = (paddedDigits width n).map digitChar := by
  rw [paddedDigits_eq]
  simp [padded, digitChar]

theorem ofDigits_paddedDigits (width n : Nat) : ofDigits (paddedDigits width n) = n := by
  have zeros (k : Nat) :
      (List.replicate k (0 : Fin 10)).foldl (fun n d => n * 10 + d.val) 0 = 0 := by
    induction k with
    | zero => rfl
    | succ k ih => exact ih
  rw [paddedDigits_eq, ofDigits, List.foldl_append, zeros]
  exact ofDigits_digits n

theorem length_paddedDigits (h : n < 10 ^ (width + 1)) :
    (paddedDigits (width + 1) n).length = width + 1 := by
  have := length_digits_le h
  rw [paddedDigits_eq, List.length_append, List.length_replicate]
  omega

theorem isBlank_digitChar (d : Fin 10) : Text.isBlank (digitChar d) = false := by
  decide +revert

/-- A number that fills its width is read, whatever comes behind it. -/
theorem number?_padded (rest : List Char) (h : n < 10 ^ (width + 1)) :
    number? (width + 1) (padded (width + 1) n ++ rest) = some (n, rest) := by
  have length := length_paddedDigits h
  have taken := takeDigits_append (s := rest) length.le (.inl length)
  have value := ofDigits_paddedDigits (width + 1) n
  rw [padded_eq]
  generalize paddedDigits (width + 1) n = ds at *
  cases ds with
  | nil => cases length
  | cons d ds =>
    rw [number?, List.map_cons, List.cons_append, Text.trimStart_cons (isBlank_digitChar d),
      ← List.cons_append, ← List.map_cons, taken]
    exact congrArg (fun n => some (n, rest)) value

theorem paddedDigits_ne_nil (width n : Nat) : paddedDigits width n ≠ [] := by
  rw [paddedDigits_eq]
  exact List.append_ne_nil_of_right_ne_nil _ (digits_ne_nil n)

/-- A number is taken whole if a hyphen ends it. -/
theorem takeAllDigits_padded (width n : Nat) (rest : List Char) :
    takeAllDigits (padded width n ++ '-' :: rest) = (paddedDigits width n, '-' :: rest) := by
  rw [padded_eq]
  apply takeAllDigits_append
  rintro c ⟨⟩
  decide

theorem year?_padded (h : n < 10 ^ (3 + 1)) (rest : List Char) :
    year? (padded (3 + 1) n ++ '-' :: rest) = some ((n : Int), '-' :: rest) := by
  have read := number?_padded ('-' :: rest) h
  have length := length_paddedDigits h
  rw [padded_eq] at read ⊢
  generalize paddedDigits (3 + 1) n = ds at *
  cases ds with
  | nil => cases length
  | cons d ds =>
    have minus : digitChar d ≠ '-' := digitChar_ne_of_digit? (by decide)
    have plus : digitChar d ≠ '+' := digitChar_ne_of_digit? (by decide)
    rw [List.map_cons, List.cons_append] at read ⊢
    rw [year?, Text.trimStart_cons (isBlank_digitChar d)]
    split
    · case _ eq => exact absurd (List.cons.inj eq).1 minus
    · case _ eq => exact absurd (List.cons.inj eq).1 plus
    · rw [read]
      rfl

/-- A year is read, with a hyphen behind it. -/
theorem year?_yearText (year : Int) (rest : List Char) :
    year? (yearText year ++ '-' :: rest) = some (year, '-' :: rest) := by
  unfold yearText
  split
  · case isTrue short =>
    rw [year?_padded (by omega), Int.toNat_of_nonneg short.1]
  · case isFalse long =>
    have taken := takeAllDigits_padded 4 year.natAbs rest
    have value := ofDigits_paddedDigits 4 year.natAbs
    have nonempty := paddedDigits_ne_nil 4 year.natAbs
    generalize paddedDigits 4 year.natAbs = ds at *
    cases ds with
    | nil => exact absurd rfl nonempty
    | cons d ds =>
      split
      · case isTrue before =>
        rw [List.cons_append, year?, Text.trimStart_cons (by decide)]
        simp only [taken, value]
        exact congrArg (fun y => some (y, '-' :: rest)) (by omega)
      · case isFalse after =>
        rw [List.cons_append, year?, Text.trimStart_cons (by decide)]
        simp only [taken, value]
        exact congrArg (fun y => some (y, '-' :: rest)) (by omega)

theorem mark?_cons {c : Char} (h : Text.isBlank c = false) : mark? c (c :: rest) = some rest := by
  rw [mark?, Text.trimStart_cons h]
  exact if_pos rfl

/-- A group of decimals is read as so many nanoseconds. -/
theorem fraction?_padded {k m : Nat} (most : k + 1 ≤ 9) (h : m < 10 ^ (k + 1)) :
    fraction? ('.' :: padded (k + 1) m ++ ['Z']) = some (m * 10 ^ (9 - (k + 1)), ['Z']) := by
  have length := length_paddedDigits h
  have taken : takeDigits 9 ((paddedDigits (k + 1) m).map digitChar ++ ['Z']) =
      (paddedDigits (k + 1) m, ['Z']) := by
    refine takeDigits_append (length.le.trans most) (.inr ?_)
    rintro c ⟨⟩
    decide
  have value := ofDigits_paddedDigits (k + 1) m
  rw [padded_eq, List.cons_append, fraction?]
  generalize paddedDigits (k + 1) m = ds at *
  cases ds with
  | nil => cases length
  | cons d ds =>
    rw [taken]
    show some (ofDigits (d :: ds) * Nat.pow 10 (9 - (d :: ds).length), _) = _
    rw [value, length]
    rfl

/-- The decimals of a second are read. -/
theorem fraction?_fractionText (h : n < 1000000000) :
    fraction? (fractionText n ++ ['Z']) = some (n, ['Z']) := by
  unfold fractionText
  split
  · case isTrue zero => exact congrArg (fun n => some (n, ['Z'])) zero.symm
  split
  · case isTrue millis =>
    rw [fraction?_padded (k := 2) (by decide) (by omega)]
    exact congrArg (fun n => some (n, ['Z'])) (Nat.div_mul_cancel (Nat.dvd_of_mod_eq_zero millis))
  split
  · case isTrue micros =>
    rw [fraction?_padded (k := 5) (by decide) (by omega)]
    exact congrArg (fun n => some (n, ['Z'])) (Nat.div_mul_cancel (Nat.dvd_of_mod_eq_zero micros))
  · rw [fraction?_padded (k := 8) (by decide) h]
    exact congrArg (fun n => some (n, ['Z'])) (Nat.mul_one n)

/-! ## Moments -/

/-- The moment can be written so that it can be read: it has less than a second in nanoseconds, or
less than two in the last second of a minute, and its day is one of those that can be given. -/
structure IsWritable (t : Timestamp) : Prop where
  nanos : t.nanos < 1000000000 ∨ t.nanos < 2000000000 ∧ t.seconds % 60 = 59
  first : firstDay ≤ t.seconds / Timestamp.secondsPerDay
  last : t.seconds / Timestamp.secondsPerDay ≤ lastDay

variable {t : Timestamp}

theorem bounds_of_isValid {d : Date} (h : d.isValid = true) :
    d.month < 10 ^ 2 ∧ d.day < 10 ^ 2 := by
  simp only [Date.isValid, Bool.and_eq_true, decide_eq_true_eq] at h
  have days : Date.daysInMonth d.year d.month ≤ 31 := by
    unfold Date.daysInMonth
    split
    · split <;> decide
    iterate 4 decide
    exact Nat.le_refl 31
  omega

theorem secondOfDay_lt (t : Timestamp) : t.secondOfDay < 86400 := by
  unfold Timestamp.secondOfDay Timestamp.secondsPerDay
  omega

/-- A moment is found again by its day and its second of it. -/
theorem ofDate_date (t : Timestamp) :
    (Timestamp.ofDate t.date t.secondOfDay).seconds = t.seconds := by
  unfold Timestamp.ofDate Timestamp.date Timestamp.secondOfDay Timestamp.secondsPerDay
  rw [Date.toDays_ofDays]
  dsimp only
  omega

/-- The nanoseconds make a leap second of the last second of a minute, or they make none. -/
theorem IsWritable.leap (h : IsWritable t) : t.nanos / 1000000000 ≤ 1 ∧
    (t.nanos / 1000000000 = 1 → t.secondOfDay % 60 = 59) := by
  have := h.nanos
  unfold Timestamp.secondOfDay Timestamp.secondsPerDay
  omega

theorem toList_write (t : Timestamp) : (write t).toList =
    yearText t.date.year ++ '-' :: (padded 2 t.date.month ++ '-' ::
      (padded 2 t.date.day ++ 'T' :: (padded 2 (t.secondOfDay / 3600) ++ ':' ::
        (padded 2 (t.secondOfDay / 60 % 60) ++ ':' ::
          (padded 2 (t.secondOfDay % 60 + t.nanos / 1000000000) ++
            (fractionText (t.nanos % 1000000000) ++ ['Z'])))))) := by
  simp [write]

theorem bind_of_eq_some {α β : Type} {x : Option α} {a : α} {f : α → Option β} {b : Option β}
    (hx : x = some a) (hf : f a = b) : (x >>= f) = b := by
  subst hx
  exact hf

/-- A moment that can be written is read back from its text. -/
theorem read?_write (h : IsWritable t) : read? (write t) = some t := by
  have valid : t.date.isValid = true := Date.isValid_ofDays _
  have days : t.date.toDays = t.seconds / Timestamp.secondsPerDay := Date.toDays_ofDays _
  obtain ⟨month, day⟩ := bounds_of_isValid valid
  have small := secondOfDay_lt t
  have leap := h.leap
  have hyphen (rest : List Char) : mark? '-' ('-' :: rest) = some rest := mark?_cons (by decide)
  have colon (rest : List Char) : mark? ':' (':' :: rest) = some rest := mark?_cons (by decide)
  have two {n : Nat} (lt : n < 10 ^ 2) (rest : List Char) :
      number? 2 (padded 2 n ++ rest) = some (n, rest) := number?_padded rest lt
  rw [read?, toList_write]
  -- Each field is read from the front of what the fields before it have left.
  apply bind_of_eq_some (year?_yearText _ _)
  apply bind_of_eq_some (hyphen _)
  apply bind_of_eq_some (two month _)
  apply bind_of_eq_some (hyphen _)
  apply bind_of_eq_some (two day _)
  apply bind_of_eq_some (if_pos (.inl rfl))
  apply bind_of_eq_some (two (by omega) _)
  apply bind_of_eq_some (colon _)
  apply bind_of_eq_some (two (by omega) _)
  apply bind_of_eq_some (colon _)
  apply bind_of_eq_some (two (by omega) _)
  apply bind_of_eq_some (fraction?_fractionText (by omega))
  apply bind_of_eq_some (a := (0, [])) rfl
  apply bind_of_eq_some (if_pos rfl)
  have whole : t.secondOfDay / 3600 * 3600 + t.secondOfDay / 60 % 60 * 60 +
      (t.secondOfDay % 60 + t.nanos / 1000000000 -
        (t.secondOfDay % 60 + t.nanos / 1000000000) / 60) = t.secondOfDay := by
    omega
  have nanos : t.nanos % 1000000000 +
      (t.secondOfDay % 60 + t.nanos / 1000000000) / 60 * 1000000000 = t.nanos := by
    omega
  dsimp only
  rw [whole, nanos, show (⟨t.date.year, t.date.month, t.date.day⟩ : Date) = t.date from rfl,
    ofDate_date, Int.sub_zero, days]
  have inRange : (decide (firstDay ≤ t.seconds / Timestamp.secondsPerDay) &&
      decide (t.seconds / Timestamp.secondsPerDay ≤ lastDay)) = true := by
    simp [h.first, h.last]
  refine bind_of_eq_some (if_pos ?_)
    (bind_of_eq_some (if_pos inRange) (bind_of_eq_some (if_pos inRange) rfl))
  simp only [valid, Bool.true_and, Bool.and_eq_true, decide_eq_true_eq]
  omega

/-! ## What is read -/

/-- Decimals are less than a second. -/
theorem fraction?_lt {s rest : List Char} (h : fraction? s = some (n, rest)) : n < 1000000000 := by
  unfold fraction? at h
  split at h
  · case _ s =>
    have short := length_takeDigits_le 9 s
    split at h
    · cases h
    · case _ ds _ _ taken =>
      obtain ⟨rfl, -⟩ := Prod.ext_iff.mp (Option.some.inj h)
      rw [taken] at short
      dsimp only at short ⊢
      calc ofDigits ds * Nat.pow 10 (9 - ds.length)
          < 10 ^ ds.length * 10 ^ (9 - ds.length) :=
            Nat.mul_lt_mul_of_pos_right (ofDigits_lt ds) (Nat.pow_pos (by decide))
        _ = 1000000000 := by
            rw [← Nat.pow_add, Nat.add_sub_cancel' short]
  · obtain ⟨rfl, -⟩ := Prod.ext_iff.mp (Option.some.inj h)
    exact Nat.succ_pos 999999999

theorem hoursMinutes?_dvd {s rest : List Char} (h : hoursMinutes? s = some (n, rest)) :
    n % 60 = 0 := by
  obtain ⟨⟨hours, s⟩, -, h⟩ := Option.bind_eq_some_iff.mp h
  obtain ⟨⟨minutes, s⟩, -, h⟩ := Option.bind_eq_some_iff.mp h
  obtain ⟨rfl, -⟩ := Prod.ext_iff.mp (Option.some.inj h)
  dsimp only
  omega

/-- Offsets are whole minutes. -/
theorem offset?_dvd {s rest : List Char} {offset : Int} (h : offset? s = some (offset, rest)) :
    offset % 60 = 0 := by
  unfold offset? at h
  split at h
  · cases h
    rfl
  · cases h
    rfl
  iterate 3
    obtain ⟨⟨m, rest⟩, hm, eq⟩ := Option.map_eq_some_iff.mp h
    have := hoursMinutes?_dvd hm
    obtain ⟨rfl, -⟩ := Prod.ext_iff.mp eq
    dsimp only
    omega
  · split at h
    · cases h
      rfl
    · cases h
  · cases h

theorem of_guard {p : Prop} [Decidable p] {u : Unit} (h : (guard p : Option Unit) = some u) :
    p := by
  by_contra not
  simp [guard, not] at h

/-- What was read can be written. -/
theorem isWritable_of_read? {text : String} (h : read? text = some t) : IsWritable t := by
  obtain ⟨⟨year, s⟩, -, h⟩ := Option.bind_eq_some_iff.mp h
  obtain ⟨s, -, h⟩ := Option.bind_eq_some_iff.mp h
  obtain ⟨⟨month, s⟩, -, h⟩ := Option.bind_eq_some_iff.mp h
  obtain ⟨s, -, h⟩ := Option.bind_eq_some_iff.mp h
  obtain ⟨⟨day, s⟩, -, h⟩ := Option.bind_eq_some_iff.mp h
  dsimp only at h
  split at h
  · obtain ⟨-, -, h⟩ := Option.bind_eq_some_iff.mp h
    obtain ⟨⟨hour, s⟩, -, h⟩ := Option.bind_eq_some_iff.mp h
    obtain ⟨s, -, h⟩ := Option.bind_eq_some_iff.mp h
    obtain ⟨⟨minute, s⟩, -, h⟩ := Option.bind_eq_some_iff.mp h
    obtain ⟨s, -, h⟩ := Option.bind_eq_some_iff.mp h
    obtain ⟨⟨second, s⟩, -, h⟩ := Option.bind_eq_some_iff.mp h
    obtain ⟨⟨nanos, s⟩, decimals, h⟩ := Option.bind_eq_some_iff.mp h
    obtain ⟨⟨offset, s⟩, minutes, h⟩ := Option.bind_eq_some_iff.mp h
    obtain ⟨-, -, h⟩ := Option.bind_eq_some_iff.mp h
    obtain ⟨_, fields, h⟩ := Option.bind_eq_some_iff.mp h
    obtain ⟨-, -, h⟩ := Option.bind_eq_some_iff.mp h
    obtain ⟨_, range, h⟩ := Option.bind_eq_some_iff.mp h
    have decimals := fraction?_lt decimals
    have minutes := offset?_dvd minutes
    have fields := of_guard fields
    have range := of_guard range
    obtain rfl := Option.some.inj h
    simp only [Bool.and_eq_true, decide_eq_true_eq] at fields range
    refine ⟨?_, range.1, range.2⟩
    by_cases leap : second = 60
    · subst leap
      right
      simp only [Timestamp.ofDate, Timestamp.secondsPerDay]
      omega
    · left
      dsimp only
      omega
  · cases h

end GattSync.Rfc3339
