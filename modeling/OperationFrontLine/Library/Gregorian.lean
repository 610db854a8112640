import OperationFrontLine.Library.Periods
import Mathlib.Tactic

/-!
# The Gregorian calendar

The days of the proleptic Gregorian calendar are numbered from the first of January of the
year 1, which is day 0.
-/

namespace OperationFrontLine.Library

def IsLeap (year : ℕ) : Prop := (4 ∣ year ∧ ¬100 ∣ year) ∨ 400 ∣ year

instance (year : ℕ) : Decidable (IsLeap year) :=
  inferInstanceAs (Decidable ((4 ∣ year ∧ ¬100 ∣ year) ∨ 400 ∣ year))

def yearLength (year : ℕ) : ℕ := if IsLeap year then 366 else 365

def daysBeforeYear (year : ℕ) : ℕ :=
  365 * (year - 1) + (year - 1) / 4 - (year - 1) / 100 + (year - 1) / 400

def daysBeforeMonth (year month : ℕ) : ℕ :=
  [0, 31, 59, 90, 120, 151, 181, 212, 243, 273, 304, 334].getD (month - 1) 0 +
    if 2 < month ∧ IsLeap year then 1 else 0

def dayNumber (year month day : ℕ) : ℕ :=
  daysBeforeYear year + daysBeforeMonth year month + (day - 1)

theorem daysBeforeYear_succ {year : ℕ} (positive : 1 ≤ year) :
    daysBeforeYear (year + 1) = daysBeforeYear year + yearLength year := by
  obtain ⟨past, rfl⟩ : ∃ past, year = past + 1 := ⟨year - 1, by omega⟩
  have quarter : 100 ∣ past + 1 → 4 ∣ past + 1 := (show 4 ∣ 100 by decide).trans
  have century : 400 ∣ past + 1 → 100 ∣ past + 1 := (show 100 ∣ 400 by decide).trans
  have less : past / 100 ≤ past / 4 := Nat.div_le_div_left (by decide) (by decide)
  simp only [daysBeforeYear, yearLength, IsLeap, Nat.add_sub_cancel, Nat.succ_div]
  by_cases four : 4 ∣ past + 1
  · by_cases hundred : 100 ∣ past + 1
    · by_cases fourHundred : 400 ∣ past + 1
      · simp only [four, hundred, fourHundred, if_true, not_true_eq_false, and_false, or_true]
        omega
      · simp only [four, hundred, fourHundred, if_true, not_true_eq_false, and_false, or_false,
          if_false]
        omega
    · have fourHundred : ¬400 ∣ past + 1 := fun divides => hundred (century divides)
      simp only [four, hundred, fourHundred, if_true, not_false_eq_true, and_true, or_false,
        if_false]
      omega
  · have hundred : ¬100 ∣ past + 1 := fun divides => four (quarter divides)
    have fourHundred : ¬400 ∣ past + 1 := fun divides => hundred (century divides)
    simp only [four, hundred, fourHundred, if_false, false_and, or_false]
    omega

theorem daysBefore_yearLength {year : ℕ} (positive : 1 ≤ year) :
    daysBefore yearLength 1 year = daysBeforeYear year := by
  induction year, positive using Nat.le_induction with
  | base => rw [daysBefore_first]; rfl
  | succ year positive inductionHypothesis =>
      rw [daysBefore_succ positive, daysBeforeYear_succ positive, inductionHypothesis]

theorem daysBeforeYear_mono {earlier later : ℕ} (positive : 1 ≤ earlier) (le : earlier ≤ later) :
    daysBeforeYear earlier ≤ daysBeforeYear later := by
  rw [← daysBefore_yearLength positive, ← daysBefore_yearLength (positive.trans le)]
  exact daysBefore_mono le

/-- A day of an earlier year is not after the beginning of a later one. -/
theorem day_le_daysBeforeYear {earlier later place : ℕ} (positive : 1 ≤ earlier)
    (inside : place ≤ yearLength earlier) (lt : earlier < later) :
    daysBeforeYear earlier + place ≤ daysBeforeYear later := by
  rw [← daysBefore_yearLength positive, ← daysBefore_yearLength (positive.trans lt.le)]
  exact day_le_daysBefore positive inside lt

theorem day_of_year_unique {earlier later place other : ℕ} (positive : 1 ≤ earlier)
    (positiveToo : 1 ≤ later) (inside : 1 ≤ place ∧ place ≤ yearLength earlier)
    (insideToo : 1 ≤ other ∧ other ≤ yearLength later)
    (same : daysBeforeYear earlier + place = daysBeforeYear later + other) :
    earlier = later ∧ place = other := by
  rw [← daysBefore_yearLength positive, ← daysBefore_yearLength positiveToo] at same
  exact day_unique positive positiveToo inside insideToo same

end OperationFrontLine.Library
