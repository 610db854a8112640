import Mathlib.Tactic

/-!
# Calendar time

Seconds since 1970 and their broken-down form in the Gregorian calendar.  Years
are counted from March inside, so that the leap day is the last of its year.
-/

namespace OperationFrontLine.Library

/-- A broken-down time; the month is counted from 1. -/
structure BrokenDownTime where
  year : ℤ
  month : ℤ
  day : ℤ
  hour : ℤ
  minute : ℤ
  second : ℤ
  deriving DecidableEq, Repr

/-- A day of the 400 year cycle that starts on the first of March. -/
structure CycleDay where
  year : ℤ
  dayOfYear : ℤ
  deriving DecidableEq, Repr

namespace CycleDay

def ofNumber (number : ℤ) : CycleDay :=
  let century := min (number / 36524) 3
  let ofCentury := number - century * 36524
  let leapPeriod := ofCentury / 1461
  let ofPeriod := ofCentury - leapPeriod * 1461
  let year := min (ofPeriod / 365) 3
  ⟨100 * century + 4 * leapPeriod + year, ofPeriod - year * 365⟩

def number (day : CycleDay) : ℤ :=
  365 * day.year + day.year / 4 - day.year / 100 + day.dayOfYear

theorem ofNumber_spec {number : ℤ} (nonneg : 0 ≤ number) (small : number < 146097) :
    (ofNumber number).number = number ∧
      0 ≤ (ofNumber number).year ∧ (ofNumber number).year < 400 ∧
      0 ≤ (ofNumber number).dayOfYear ∧ (ofNumber number).dayOfYear < 366 := by
  obtain ⟨century, centuryEq⟩ : ∃ century, century = min (number / 36524) 3 := ⟨_, rfl⟩
  obtain ⟨leapPeriod, leapPeriodEq⟩ :
      ∃ leapPeriod, leapPeriod = (number - century * 36524) / 1461 := ⟨_, rfl⟩
  obtain ⟨year, yearEq⟩ :
      ∃ year, year = min ((number - century * 36524 - leapPeriod * 1461) / 365) 3 := ⟨_, rfl⟩
  have centuryRange : 0 ≤ century ∧ century ≤ 3 ∧
      0 ≤ number - century * 36524 ∧ number - century * 36524 ≤ 36524 := by omega
  have periodRange : 0 ≤ leapPeriod ∧ leapPeriod ≤ 24 ∧
      0 ≤ number - century * 36524 - leapPeriod * 1461 ∧
      number - century * 36524 - leapPeriod * 1461 ≤ 1460 := by omega
  have yearRange : 0 ≤ year ∧ year ≤ 3 ∧
      0 ≤ number - century * 36524 - leapPeriod * 1461 - year * 365 ∧
      number - century * 36524 - leapPeriod * 1461 - year * 365 ≤ 365 := by omega
  have split : ofNumber number = ⟨100 * century + 4 * leapPeriod + year,
      number - century * 36524 - leapPeriod * 1461 - year * 365⟩ := by
    rw [ofNumber, ← centuryEq, ← leapPeriodEq, ← yearEq]
  rw [split, CycleDay.number]
  -- with the ranges known, the leap years before a year are counted exactly
  have quarters : (100 * century + 4 * leapPeriod + year) / 4 = 25 * century + leapPeriod := by
    omega
  have hundreds : (100 * century + 4 * leapPeriod + year) / 100 = century := by omega
  simp only [quarters, hundreds]
  omega

end CycleDay

namespace BrokenDownTime

def dayNumber (time : BrokenDownTime) : ℤ :=
  let year := if time.month ≤ 2 then time.year - 1 else time.year
  let monthFromMarch := if time.month ≤ 2 then time.month + 9 else time.month - 3
  let ofCycle : CycleDay := ⟨year % 400, (153 * monthFromMarch + 2) / 5 + time.day - 1⟩
  year / 400 * 146097 + ofCycle.number - 719468

def seconds (time : BrokenDownTime) : ℤ :=
  86400 * time.dayNumber + 3600 * time.hour + 60 * time.minute + time.second

def utc (seconds : ℤ) : BrokenDownTime :=
  let shifted := seconds / 86400 + 719468
  let ofCycle := CycleDay.ofNumber (shifted % 146097)
  let monthFromMarch := (5 * ofCycle.dayOfYear + 2) / 153
  let month := if monthFromMarch < 10 then monthFromMarch + 3 else monthFromMarch - 9
  let year := shifted / 146097 * 400 + ofCycle.year
  { year := if month ≤ 2 then year + 1 else year
    month := month
    day := ofCycle.dayOfYear - (153 * monthFromMarch + 2) / 5 + 1
    hour := seconds % 86400 / 3600
    minute := seconds % 3600 / 60
    second := seconds % 60 }

structure Valid (time : BrokenDownTime) : Prop where
  month : 1 ≤ time.month ∧ time.month ≤ 12
  day : 1 ≤ time.day ∧ time.day ≤ 31
  hour : 0 ≤ time.hour ∧ time.hour ≤ 23
  minute : 0 ≤ time.minute ∧ time.minute ≤ 59
  second : 0 ≤ time.second ∧ time.second ≤ 59

theorem utc_spec (seconds : ℤ) :
    (utc seconds).dayNumber = seconds / 86400 ∧ (utc seconds).Valid := by
  obtain ⟨shifted, shiftedEq⟩ : ∃ shifted, shifted = seconds / 86400 + 719468 := ⟨_, rfl⟩
  have spec := CycleDay.ofNumber_spec (Int.emod_nonneg shifted (by decide : (146097 : ℤ) ≠ 0))
    (Int.emod_lt_of_pos shifted (by decide))
  obtain ⟨ofCycle, ofCycleEq⟩ :
      ∃ ofCycle, ofCycle = CycleDay.ofNumber (shifted % 146097) := ⟨_, rfl⟩
  rw [← ofCycleEq, CycleDay.number] at spec
  obtain ⟨month, monthEq⟩ : ∃ month, month = (5 * ofCycle.dayOfYear + 2) / 153 := ⟨_, rfl⟩
  have monthRange : 0 ≤ month ∧ month ≤ 11 := by omega
  have dayRange : 0 ≤ ofCycle.dayOfYear - (153 * month + 2) / 5 ∧
      ofCycle.dayOfYear - (153 * month + 2) / 5 ≤ 30 := by omega
  have cycles := Int.mul_ediv_add_emod shifted 146097
  have fields : utc seconds =
      { year := if (if month < 10 then month + 3 else month - 9) ≤ 2 then
          shifted / 146097 * 400 + ofCycle.year + 1 else shifted / 146097 * 400 + ofCycle.year
        month := if month < 10 then month + 3 else month - 9
        day := ofCycle.dayOfYear - (153 * month + 2) / 5 + 1
        hour := seconds % 86400 / 3600
        minute := seconds % 3600 / 60
        second := seconds % 60 } := by
    rw [utc, ← shiftedEq, ← ofCycleEq, ← monthEq]
  have sameYear : (shifted / 146097 * 400 + ofCycle.year) % 400 = ofCycle.year := by omega
  have sameCycle : (shifted / 146097 * 400 + ofCycle.year) / 400 = shifted / 146097 := by omega
  constructor
  · rw [fields, dayNumber, CycleDay.number]
    by_cases early : month < 10
    · have late : ¬month + 3 ≤ 2 := by omega
      simp only [if_pos early, if_neg late, sameYear, sameCycle, add_sub_cancel_right]
      omega
    · have late : month - 9 ≤ 2 := by omega
      simp only [if_neg early, if_pos late, add_sub_cancel_right, sub_add_cancel, sameYear,
        sameCycle]
      omega
  · rw [fields]
    constructor <;> dsimp only <;> omega

theorem seconds_utc (time : ℤ) : (utc time).seconds = time := by
  have day := (utc_spec time).1
  rw [seconds, day, utc]
  dsimp only
  omega

theorem valid_utc (time : ℤ) : (utc time).Valid := (utc_spec time).2

end BrokenDownTime

end OperationFrontLine.Library
