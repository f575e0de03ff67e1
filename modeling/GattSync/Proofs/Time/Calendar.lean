import GattSync.Time.Timestamp
import Mathlib.Tactic.Ring

/-!
# Days and dates

Every day has a date (`isValid_ofDays`), by which it is found again (`toDays_ofDays`). Both follow
from where a day lies in its era (`exists_ofDays`): in which year from March to February, and on
which day of it, the last of which is there in leap years only.
-/

namespace GattSync.Date

/-- The days of the first `y` years of an era. -/
def daysBefore (y : Int) : Int := 365 * y + y / 4 - y / 100

/-- A day of an era lies in a century, in four years of it and on a day of these. -/
theorem exists_century {e : Int} (first : 0 ≤ e) (last : e < 146097) :
    ∃ c k s : Int, (0 ≤ c ∧ c ≤ 3) ∧ (0 ≤ k ∧ k ≤ 24) ∧ (0 ≤ s ∧ s ≤ 1460) ∧
      (k = 24 → s = 1460 → c = 3) ∧ e = 36524 * c + 1461 * k + s ∧
      e / 36524 - e / 146096 = c := by
  obtain ⟨c, r, hc, hr, he, hq⟩ : ∃ c r : Int, (0 ≤ c ∧ c ≤ 3) ∧ (0 ≤ r ∧ r ≤ 36524 ∧
      (r = 36524 → c = 3)) ∧ e = 36524 * c + r ∧ e / 36524 - e / 146096 = c :=
    ⟨e / 36524 - e / 146096, e - 36524 * (e / 36524 - e / 146096),
      by omega, by omega, by omega, rfl⟩
  exact ⟨c, r / 1461, r % 1461, hc, by omega, by omega, by omega, by omega, hq⟩

/-- One day too many is taken off in the last days of four years, which does no harm. -/
theorem yearOfFour_spec {c k s o j : Int} (hc : 0 ≤ c ∧ c ≤ 3) (hk : 0 ≤ k ∧ k ≤ 24)
    (hs : 0 ≤ s ∧ s ≤ 1460) (ho : o = (24 * c + k + s) / 1460) (hj : j = (s - o) / 365) :
    (0 ≤ j ∧ j ≤ 3) ∧ (0 ≤ s - 365 * j ∧ s - 365 * j ≤ 365) ∧
      (s - 365 * j = 365 → j = 3 ∧ s = 1460) := by
  omega

theorem daysBefore_eq {c k j : Int} (hk : 0 ≤ k ∧ k ≤ 24) (hj : 0 ≤ j ∧ j ≤ 3) :
    daysBefore (100 * c + 4 * k + j) = 36524 * c + 1461 * k + 365 * j := by
  unfold daysBefore
  omega

/-- The year of an era that a day is found to lie in is the one that it lies in. There is a 366th
day in the year only if the next year, in which its February lies, is a leap year. -/
theorem yearOfEra_spec {e y : Int} (first : 0 ≤ e) (last : e < 146097)
    (hy : y = (e - e / 1460 + e / 36524 - e / 146096) / 365) :
    (0 ≤ y ∧ y < 400) ∧ (0 ≤ e - daysBefore y ∧ e - daysBefore y ≤ 365) ∧
      (e - daysBefore y = 365 → y % 4 = 3 ∧ (y % 100 = 99 → y = 399)) := by
  obtain ⟨c, k, s, hc, hk, hs, final, he, hq⟩ := exists_century first last
  have day := yearOfFour_spec hc hk hs rfl rfl
  have fourYears : e / 1460 = 25 * c + k + (24 * c + k + s) / 1460 := by
    clear hy hq day
    omega
  generalize (24 * c + k + s) / 1460 = o at day fourYears
  have year : y = 100 * c + 4 * k + (s - o) / 365 := by
    have dividend : e - e / 1460 + e / 36524 - e / 146096 =
        s - o + 365 * (100 * c + 4 * k) := by
      rw [fourYears, Int.add_sub_assoc, hq, he]
      ring
    rw [hy, dividend, Int.add_mul_ediv_left _ _ (by decide), Int.add_comm]
  generalize (s - o) / 365 = j at day year
  subst year
  clear hy hq fourYears first last
  rw [daysBefore_eq hk day.1, he]
  refine ⟨by omega, by omega, fun leap => ?_⟩
  obtain ⟨rfl, rfl⟩ := day.2.2 (by omega)
  omega

/-- The date of a day of a year that is counted from March on. -/
def ofDayOfYear (year day : Int) : Date :=
  let shifted := (5 * day + 2) / 153
  let month := if shifted < 10 then shifted + 3 else shifted - 9
  ⟨year + (if month ≤ 2 then 1 else 0), month.toNat, (day - (153 * shifted + 2) / 5 + 1).toNat⟩

/-- Every day lies in a year of an era. -/
theorem exists_ofDays (days : Int) : ∃ era y day : Int, (0 ≤ y ∧ y < 400) ∧
    (0 ≤ day ∧ day ≤ 365) ∧ (day = 365 → y % 4 = 3 ∧ (y % 100 = 99 → y = 399)) ∧
      days = era * 146097 + daysBefore y + day - 719468 ∧
      ofDays days = ofDayOfYear (y + era * 400) day := by
  have first : 0 ≤ (days + 719468) % 146097 := Int.emod_nonneg _ (by decide)
  have last : (days + 719468) % 146097 < 146097 := Int.emod_lt_of_pos _ (by decide)
  obtain ⟨year, day, leap⟩ := yearOfEra_spec first last rfl
  exact ⟨(days + 719468) / 146097, _, _, year, day, leap, by omega, rfl⟩

/-- A month from March on, by its number. -/
theorem shifted_cases {day : Int} (h : 0 ≤ day ∧ day ≤ 365) : ∃ m : Int, m = (5 * day + 2) / 153 ∧
    (m = 0 ∨ m = 1 ∨ m = 2 ∨ m = 3 ∨ m = 4 ∨ m = 5 ∨ m = 6 ∨ m = 7 ∨ m = 8 ∨ m = 9 ∨ m = 10 ∨
      m = 11) :=
  ⟨_, rfl, by omega⟩

theorem toDays_ofDayOfYear {era y day : Int} (hy : 0 ≤ y ∧ y < 400) (hd : 0 ≤ day ∧ day ≤ 365) :
    (ofDayOfYear (y + era * 400) day).toDays = era * 146097 + daysBefore y + day - 719468 := by
  obtain ⟨m, hm, cases⟩ := shifted_cases hd
  unfold toDays ofDayOfYear daysBefore
  dsimp only
  rw [← hm]
  rcases cases with rfl | rfl | rfl | rfl | rfl | rfl | rfl | rfl | rfl | rfl | rfl | rfl <;>
    simp <;> omega

theorem isLeapYear_of_yearOfEra {era y : Int} (h : y % 4 = 3 ∧ (y % 100 = 99 → y = 399)) :
    isLeapYear (y + era * 400 + 1) = true := by
  have fourth : (y + era * 400 + 1) % 4 = 0 := by omega
  have hundredth : (y + era * 400 + 1) % 100 ≠ 0 ∨ (y + era * 400 + 1) % 400 = 0 := by omega
  simpa [isLeapYear, fourth] using hundredth

/-- The last day of February is reached in leap years only. -/
theorem isValid_ofDayOfYear {year day : Int} (hd : 0 ≤ day ∧ day ≤ 365)
    (leap : day = 365 → isLeapYear (year + 1) = true) : (ofDayOfYear year day).isValid = true := by
  obtain ⟨m, hm, cases⟩ := shifted_cases hd
  unfold isValid ofDayOfYear
  dsimp only
  rw [← hm]
  rcases cases with rfl | rfl | rfl | rfl | rfl | rfl | rfl | rfl | rfl | rfl | rfl | rfl
  iterate 11
    simp [daysInMonth]
    omega
  by_cases last : day = 365
  · simp [daysInMonth, leap last]
    omega
  · simp [daysInMonth]
    split <;> omega

theorem toDays_ofDays (days : Int) : (ofDays days).toDays = days := by
  obtain ⟨era, y, day, hy, hd, -, position, date⟩ := exists_ofDays days
  rw [date, toDays_ofDayOfYear hy hd, position]

theorem isValid_ofDays (days : Int) : (ofDays days).isValid = true := by
  obtain ⟨era, y, day, -, hd, leap, -, date⟩ := exists_ofDays days
  rw [date]
  exact isValid_ofDayOfYear hd fun last => isLeapYear_of_yearOfEra (leap last)

end GattSync.Date
