import OperationFrontLine.Dates.DateTime
import OperationFrontLine.Library.Gregorian

/-!
# Date arithmetic

A valid date has a number, the milliseconds since the year 1 of the proleptic Gregorian calendar.
All operations are described by what they do to this number.
-/

namespace OperationFrontLine.Dates

open OperationFrontLine.Library

namespace DateTime

structure Valid (time : DateTime) : Prop where
  date : validDate time.year time.month time.day = true
  year : time.year < 2 ^ 32
  hour : time.hour < 24
  minute : time.minute < 60
  second : time.second < 60
  millisecond : time.millisecond < 1000

def MS_PER_DAY : ℕ := 86400000

def timeOfDay (time : DateTime) : ℕ :=
  time.hour * 3600000 + time.minute * 60000 + time.second * 1000 + time.millisecond

/-- The milliseconds since the beginning of the year 1. -/
def number (time : DateTime) : ℕ :=
  dayNumber time.year time.month time.day * MS_PER_DAY + time.timeOfDay

/-! ## Days of the year -/

theorem validDate_iff {year month day : ℕ} :
    validDate year month day = true ↔
      1 ≤ year ∧ 1 ≤ month ∧ month ≤ 12 ∧ 1 ≤ day ∧ day ≤ daysInMonth year month := by
  rw [validDate]
  split
  · simp only [Bool.false_eq_true, false_iff]
    omega
  · split
    · simp only [Bool.false_eq_true, false_iff]
      omega
    · rw [decide_eq_true_iff]
      omega

theorem isLeapYear_iff (year : ℕ) : isLeapYear year = true ↔ IsLeap year := by
  simp [isLeapYear, IsLeap, Nat.dvd_iff_mod_eq_zero]

theorem daysInYear_eq : daysInYear = yearLength := by
  funext year
  simp only [daysInYear, yearLength, isLeapYear_iff]

theorem daysInYear_pos (year : ℕ) : 365 ≤ daysInYear year := by
  rw [daysInYear]
  split <;> omega

theorem daysInYear_le (year : ℕ) : daysInYear year ≤ 366 := by
  rw [daysInYear]
  split <;> omega

theorem sum_daysInMonth (year : ℕ) :
    ∑ month ∈ Finset.Ico 1 13, daysInMonth year month = daysInYear year := by
  cases leap : isLeapYear year <;>
    simp [daysInYear, daysInMonth, MONTH_LENGTHS, leap, Finset.sum_Ico_succ_top]

theorem sum_daysInMonth_before (year : ℕ) {month : ℕ} (positive : 1 ≤ month) (le : month ≤ 12) :
    ∑ earlier ∈ Finset.Ico 1 month, daysInMonth year earlier = daysBeforeMonth year month := by
  simp only [daysBeforeMonth, ← isLeapYear_iff]
  cases leap : isLeapYear year <;> interval_cases month <;>
    simp [daysInMonth, MONTH_LENGTHS, leap, Finset.sum_Ico_succ_top]

/-- The loop ends at the month of the day, and at its place in this month. -/
theorem reverseLoop_spec (year : ℕ) {months month dayOfYear : ℕ} (left : month + months = 12)
    (started : 1 ≤ month) (positive : 1 ≤ dayOfYear)
    (inside : daysBefore (daysInMonth year) 1 month + dayOfYear ≤
      daysBefore (daysInMonth year) 1 13) :
    ∃ found day, reverseLoop year months month dayOfYear = (found, day) ∧
      1 ≤ found ∧ found ≤ 12 ∧ 1 ≤ day ∧ day ≤ daysInMonth year found ∧
      daysBefore (daysInMonth year) 1 found + day =
        daysBefore (daysInMonth year) 1 month + dayOfYear := by
  have next : daysBefore (daysInMonth year) 1 (month + 1) =
      daysBefore (daysInMonth year) 1 month + daysInMonth year month := daysBefore_succ started
  induction months generalizing month dayOfYear with
  | zero =>
      obtain rfl : month = 12 := left
      rw [show 12 + 1 = 13 from rfl] at next
      exact ⟨12, dayOfYear, rfl, started, le_rfl, positive, by omega, rfl⟩
  | succ months inductionHypothesis =>
      rw [reverseLoop]
      by_cases fits : daysInMonth year month ≥ dayOfYear
      · rw [if_pos fits]
        exact ⟨month, dayOfYear, rfl, started, by omega, positive, fits, rfl⟩
      · rw [if_neg fits]
        obtain ⟨found, day, ended, least, most, first, last, same⟩ :=
          inductionHypothesis (show month + 1 + months = 12 by omega) (by omega)
            (show 1 ≤ dayOfYear - daysInMonth year month by omega) (by omega)
            (daysBefore_succ (by omega))
        exact ⟨found, day, ended, least, most, first, last, by omega⟩

theorem daysBefore_months (year : ℕ) : daysBefore (daysInMonth year) 1 13 = daysInYear year :=
  sum_daysInMonth year

theorem getReverseDayOfYear_spec {year dayOfYear : ℕ} (started : 1 ≤ year)
    (positive : 1 ≤ dayOfYear) (inside : dayOfYear ≤ daysInYear year) :
    ∃ month day, getReverseDayOfYear year dayOfYear = some ⟨year, month, day, 0, 0, 0, 0⟩ ∧
      validDate year month day = true ∧ getDayOfYear year month day = dayOfYear := by
  obtain ⟨month, day, ended, least, most, first, last, same⟩ :=
    reverseLoop_spec year (show 1 + 11 = 12 from rfl) le_rfl positive (by
      rw [daysBefore_first, daysBefore_months]
      omega)
  have isValid : validDate year month day = true :=
    validDate_iff.mpr ⟨started, least, most, first, last⟩
  refine ⟨month, day, ?_, isValid, ?_⟩
  · rw [getReverseDayOfYear, ended, setDateTime, if_neg (by simp [isValid])]
  · rw [daysBefore_first, zero_add] at same
    exact same

theorem Valid.dayOfYear_pos {time : DateTime} (valid : time.Valid) : 1 ≤ time.dayOfYear := by
  obtain ⟨-, -, -, positive, -⟩ := validDate_iff.mp valid.date
  rw [dayOfYear, getDayOfYear]
  omega

theorem Valid.dayOfYear_le {time : DateTime} (valid : time.Valid) :
    time.dayOfYear ≤ daysInYear time.year := by
  obtain ⟨-, started, most, -, inside⟩ := validDate_iff.mp valid.date
  rw [← daysBefore_months]
  exact day_le_daysBefore started inside (by omega)

theorem Valid.dayNumber_eq {time : DateTime} (valid : time.Valid) :
    dayNumber time.year time.month time.day + 1 = daysBeforeYear time.year + time.dayOfYear := by
  obtain ⟨-, started, most, positive, -⟩ := validDate_iff.mp valid.date
  rw [dayNumber, dayOfYear, getDayOfYear, sum_daysInMonth_before _ started most]
  omega

/-! ## Setting a date -/

theorem setYear_spec {time : DateTime} (valid : time.Valid) {year : ℕ} (positive : 1 ≤ year)
    (bounded : year < 2 ^ 32) :
    ∃ moved, time.setYear year = some moved ∧ moved.Valid ∧ moved.year = year ∧
      moved.timeOfDay = time.timeOfDay := by
  rw [setYear, if_neg (by omega)]
  by_cases present : validDate year time.month time.day = true
  · rw [if_pos present]
    exact ⟨_, rfl, { valid with date := present, year := bounded }, rfl, rfl⟩
  · rw [if_neg present]
    have first : validDate year 1 1 = true :=
      validDate_iff.mpr ⟨positive, le_rfl, by decide, le_rfl, by simp [daysInMonth, MONTH_LENGTHS]⟩
    exact ⟨_, rfl, { valid with date := first, year := bounded }, rfl, rfl⟩

theorem setDayOfYear_spec {time : DateTime} (valid : time.Valid) {dayOfYear : ℕ}
    (positive : 1 ≤ dayOfYear) (inside : dayOfYear ≤ daysInYear time.year) :
    ∃ moved, time.setDayOfYear dayOfYear = some moved ∧ moved.Valid ∧ moved.year = time.year ∧
      moved.dayOfYear = dayOfYear ∧ moved.timeOfDay = time.timeOfDay := by
  obtain ⟨started, -⟩ := validDate_iff.mp valid.date
  obtain ⟨month, day, found, isValid, same⟩ := getReverseDayOfYear_spec started positive inside
  obtain ⟨-, least, most, first, last⟩ := validDate_iff.mp isValid
  have monthSet : ∃ between, time.setMonth month = some { time with month := month, day := between }
      := by
    rw [setMonth, if_neg (by omega)]
    split
    · exact ⟨1, rfl⟩
    · exact ⟨time.day, rfl⟩
  obtain ⟨between, isBetween⟩ := monthSet
  refine ⟨{ time with month := month, day := day }, ?_, { valid with date := isValid }, rfl,
    same, rfl⟩
  simp only [setDayOfYear, found, isBetween, Option.bind_eq_bind, Option.bind_some, setDay]
  exact if_neg (by omega)

theorem setDate_spec {time : DateTime} (valid : time.Valid) {year dayOfYear : ℕ}
    (started : 1 ≤ year) (bounded : year < 2 ^ 32) (positive : 1 ≤ dayOfYear)
    (inside : dayOfYear ≤ daysInYear year) :
    ∃ moved, ((time.setYear year).bind fun moved => moved.setDayOfYear dayOfYear) = some moved ∧
      moved.Valid ∧ moved.year = year ∧ moved.dayOfYear = dayOfYear ∧
      moved.timeOfDay = time.timeOfDay := by
  obtain ⟨inYear, isInYear, inYearValid, rfl, sameTime⟩ := setYear_spec valid started bounded
  obtain ⟨moved, isMoved, movedValid, sameYear, place, timeThen⟩ :=
    setDayOfYear_spec inYearValid positive inside
  exact ⟨moved, by rw [isInYear, Option.bind_some, isMoved], movedValid, sameYear, place,
    timeThen.trans sameTime⟩

/-! ## Days -/

def lastDay : ℕ := daysBeforeYear (2 ^ 32)

theorem addLoop_spec {rounds year dayOfYear : ℕ} (enough : dayOfYear < rounds)
    (started : 1 ≤ year) (bounded : year < 2 ^ 32) (positive : 1 ≤ dayOfYear)
    (fits : daysBeforeYear year + dayOfYear ≤ lastDay) :
    ∃ found place, addLoop rounds year dayOfYear = some (found, place) ∧
      1 ≤ found ∧ found < 2 ^ 32 ∧ 1 ≤ place ∧ place ≤ daysInYear found ∧
      daysBeforeYear found + place = daysBeforeYear year + dayOfYear := by
  induction rounds generalizing year dayOfYear with
  | zero => exact absurd enough (Nat.not_lt_zero _)
  | succ rounds inductionHypothesis =>
      have next := daysBeforeYear_succ started
      rw [← daysInYear_eq] at next
      have long := daysInYear_pos year
      rw [addLoop]
      by_cases behind : dayOfYear > daysInYear year
      · have room : year + 1 < 2 ^ 32 := by
          rcases Nat.lt_or_ge (year + 1) (2 ^ 32) with room | last
          · exact room
          · rw [show year + 1 = 2 ^ 32 by omega, ← lastDay] at next
            omega
        rw [if_pos behind, increment_of_lt room]
        obtain ⟨found, place, ended, least, most, first, inside, same⟩ :=
          inductionHypothesis (show dayOfYear - daysInYear year < rounds by omega)
            (show 1 ≤ year + 1 by omega) room (by omega) (by omega)
        exact ⟨found, place, ended, least, most, first, inside, by omega⟩
      · rw [if_neg behind]
        exact ⟨year, dayOfYear, rfl, started, bounded, positive, by omega, rfl⟩

/-- The loop takes whole years off as long as there are days to subtract. -/
theorem subtractLoop_spec {rounds days year dayOfYear : ℕ} (enough : days < rounds)
    (started : 1 ≤ year) (bounded : year < 2 ^ 32) (positive : 1 ≤ dayOfYear)
    (inside : dayOfYear ≤ daysInYear year) (fits : days < daysBeforeYear year + dayOfYear) :
    ∃ found place, subtractLoop rounds days year dayOfYear = some (found, place) ∧
      1 ≤ found ∧ found < 2 ^ 32 ∧ 1 ≤ place ∧ place ≤ daysInYear found ∧
      daysBeforeYear found + place + days = daysBeforeYear year + dayOfYear := by
  induction rounds generalizing days year dayOfYear with
  | zero => exact absurd enough (Nat.not_lt_zero _)
  | succ rounds inductionHypothesis =>
      rw [subtractLoop]
      by_cases some : days > 0
      · rw [if_pos some]
        by_cases sameYear : dayOfYear > days
        · rw [if_pos sameYear]
          obtain ⟨found, place, ended, least, most, first, last, same⟩ :=
            inductionHypothesis (show 0 < rounds by omega) started bounded
              (show 1 ≤ dayOfYear - days by omega) (by omega) (by omega)
          exact ⟨found, place, ended, least, most, first, last, by omega⟩
        · have earlier : 1 < year := by
            by_contra first
            obtain rfl : year = 1 := by omega
            rw [show daysBeforeYear 1 = 0 from rfl] at fits
            omega
          have next := daysBeforeYear_succ (show 1 ≤ year - 1 by omega)
          rw [← daysInYear_eq, Nat.sub_add_cancel started] at next
          have long := daysInYear_pos (year - 1)
          rw [if_neg sameYear, decrement_of_pos (by omega) bounded]
          obtain ⟨found, place, ended, least, most, first, last, same⟩ :=
            inductionHypothesis (show days - dayOfYear < rounds by omega)
              (show 1 ≤ year - 1 by omega) (by omega) (by omega) le_rfl (by omega)
          exact ⟨found, place, ended, least, most, first, last, by omega⟩
      · rw [if_neg some]
        exact ⟨year, dayOfYear, rfl, started, bounded, positive, inside, by omega⟩

theorem Valid.timeOfDay_lt {time : DateTime} (valid : time.Valid) :
    time.timeOfDay < MS_PER_DAY := by
  have hour := valid.hour
  have minute := valid.minute
  have second := valid.second
  have millisecond := valid.millisecond
  rw [timeOfDay, MS_PER_DAY]
  omega

theorem Valid.number_eq {time : DateTime} (valid : time.Valid) :
    time.number + MS_PER_DAY =
      (daysBeforeYear time.year + time.dayOfYear) * MS_PER_DAY + time.timeOfDay := by
  rw [number, ← valid.dayNumber_eq]
  ring

theorem Valid.year_pos {time : DateTime} (valid : time.Valid) : 1 ≤ time.year :=
  (validDate_iff.mp valid.date).1

theorem addDays_spec {time : DateTime} (valid : time.Valid) {days : ℕ}
    (room : time.dayOfYear + days < 2 ^ 32)
    (fits : time.number + days * MS_PER_DAY < lastDay * MS_PER_DAY) :
    ∃ moved, addDays days time = some moved ∧ moved.Valid ∧
      moved.number = time.number + days * MS_PER_DAY := by
  have started := valid.dayOfYear_pos
  have numbered := valid.number_eq
  have early := valid.timeOfDay_lt
  obtain ⟨year, place, ended, least, most, first, inside, same⟩ :=
    addLoop_spec (Nat.lt_succ_self (time.dayOfYear + days)) valid.year_pos valid.year
      (by omega) (by rw [MS_PER_DAY] at *; omega)
  obtain ⟨moved, isMoved, movedValid, rfl, rfl, sameTime⟩ :=
    setDate_spec valid least most first inside
  refine ⟨moved, ?_, movedValid, ?_⟩
  · simp only [addDays, Nat.mod_eq_of_lt room, ended, Option.bind_eq_bind, Option.bind_some]
    exact isMoved
  · have numberedThen := movedValid.number_eq
    rw [same, sameTime] at numberedThen
    rw [MS_PER_DAY] at *
    omega

theorem subtractDays_spec {time : DateTime} (valid : time.Valid) {days : ℕ}
    (fits : days * MS_PER_DAY ≤ time.number) :
    ∃ moved, subtractDays days time = some moved ∧ moved.Valid ∧
      moved.number + days * MS_PER_DAY = time.number := by
  have numbered := valid.number_eq
  have early := valid.timeOfDay_lt
  obtain ⟨year, place, ended, least, most, first, inside, same⟩ :=
    subtractLoop_spec (Nat.lt_succ_self days) valid.year_pos valid.year valid.dayOfYear_pos
      valid.dayOfYear_le (by rw [MS_PER_DAY] at *; omega)
  obtain ⟨moved, isMoved, movedValid, rfl, rfl, sameTime⟩ :=
    setDate_spec valid least most first inside
  refine ⟨moved, ?_, movedValid, ?_⟩
  · simp only [subtractDays, ended, Option.bind_eq_bind, Option.bind_some]
    exact isMoved
  · have numberedThen := movedValid.number_eq
    rw [sameTime] at numberedThen
    rw [MS_PER_DAY] at *
    omega

/-! ## Fields -/

def Adds (operation : ℕ → DateTime → Option DateTime) (unit most : ℕ) : Prop :=
  ∀ amount < most, ∀ time : DateTime, time.Valid →
    time.number + amount * unit < lastDay * MS_PER_DAY →
    ∃ moved, operation amount time = some moved ∧ moved.Valid ∧
      moved.number = time.number + amount * unit

def Subtracts (operation : ℕ → DateTime → Option DateTime) (unit : ℕ) : Prop :=
  ∀ amount, ∀ time : DateTime, time.Valid → amount * unit ≤ time.number →
    ∃ moved, operation amount time = some moved ∧ moved.Valid ∧
      moved.number + amount * unit = time.number

structure IsField (base unit : ℕ) (field : DateTime → ℕ) (set : DateTime → ℕ → Option DateTime) :
    Prop where
  base_pos : 0 < base
  unit_pos : 0 < unit
  divides : base * unit ∣ MS_PER_DAY
  value : ∀ time : DateTime, time.Valid → field time = time.number / unit % base
  set : ∀ time : DateTime, time.Valid → ∀ value < base, ∃ moved, set time value = some moved ∧
    moved.Valid ∧ moved.number + field time * unit = time.number + value * unit

section Fields

variable {base unit : ℕ} {field : DateTime → ℕ} {set : DateTime → ℕ → Option DateTime}

/-- The number has a part above the field, the field, and a part below it. -/
theorem IsField.split (isField : IsField base unit field set) {time : DateTime}
    (valid : time.Valid) :
    ∃ above below, time.number = above * (base * unit) + field time * unit + below ∧
      below < unit ∧ field time < base := by
  refine ⟨time.number / unit / base, time.number % unit, ?_,
    Nat.mod_lt _ isField.unit_pos, ?_⟩
  · rw [isField.value time valid]
    have outer := Nat.div_add_mod time.number unit
    have inner := Nat.div_add_mod (time.number / unit) base
    calc time.number
        = unit * (time.number / unit) + time.number % unit := outer.symm
      _ = unit * (base * (time.number / unit / base) + time.number / unit % base) +
            time.number % unit := by rw [inner]
      _ = _ := by ring
  · rw [isField.value time valid]
    exact Nat.mod_lt _ isField.base_pos

theorem IsField.keeps (isField : IsField base unit field set) {time moved : DateTime}
    (valid : time.Valid) (movedValid : moved.Valid) {larger : ℕ}
    (number : moved.number = time.number + larger * (base * unit)) :
    field moved = field time := by
  rw [isField.value _ valid, isField.value _ movedValid, number,
    show larger * (base * unit) = larger * base * unit by ring,
    Nat.add_mul_div_right _ _ isField.unit_pos, Nat.add_mul_mod_self_right]

theorem IsField.add (isField : IsField base unit field set)
    {addLarger : ℕ → DateTime → Option DateTime} {most larger : ℕ}
    (carries : Adds addLarger (base * unit) larger) (enough : most / base + 1 < larger) :
    Adds (addUnit base field addLarger set) unit most := by
  intro amount lt time valid fits
  obtain ⟨above, below, number, small, inside⟩ := isField.split valid
  -- what is carried, and what remains
  obtain ⟨carry, value, chosen, valueLt, same, carryLt⟩ : ∃ carry value,
      (if amount % base + field time ≥ base then
        (amount / base + 1, (amount % base + field time) % base)
      else (amount / base, amount % base + field time)) = (carry, value) ∧
      value < base ∧ field time + amount = carry * base + value ∧ carry < larger := by
    have divided := Nat.div_add_mod amount base
    have below := Nat.mod_lt amount isField.base_pos
    have quotient := Nat.div_le_div_right (c := base) lt.le
    by_cases full : amount % base + field time ≥ base
    · have rest : (amount % base + field time) % base = amount % base + field time - base := by
        rw [Nat.mod_eq_sub_mod full, Nat.mod_eq_of_lt (by omega)]
      refine ⟨_, _, if_pos full, Nat.mod_lt _ isField.base_pos, ?_, by omega⟩
      rw [rest, Nat.add_mul, Nat.mul_comm (amount / base)]
      omega
    · refine ⟨_, _, if_neg full, by omega, ?_, by omega⟩
      rw [Nat.mul_comm (amount / base)]
      omega
  have units : field time * unit + amount * unit = carry * (base * unit) + value * unit := by
    rw [← Nat.add_mul, same]
    ring
  -- nor does the larger unit leave the last day
  have carryFits : time.number + carry * (base * unit) < lastDay * MS_PER_DAY := by
    obtain ⟨last, isLast⟩ := isField.divides.mul_left lastDay
    rw [isLast, Nat.mul_comm (base * unit) last] at fits ⊢
    have fieldRoom := Nat.mul_le_mul_right unit (Nat.succ_le_of_lt inside)
    have ends : above + carry < last := by
      by_contra beyond
      have enoughDays := Nat.mul_le_mul_right (base * unit) (not_lt.mp beyond)
      rw [Nat.add_mul] at enoughDays
      omega
    have ended := Nat.mul_le_mul_right (base * unit) (Nat.succ_le_of_lt ends)
    rw [Nat.succ_mul, Nat.add_mul] at ended
    rw [Nat.succ_mul] at fieldRoom
    omega
  have moves : ∃ carried, (if carry > 0 then addLarger carry time else some time) = some carried ∧
      carried.Valid ∧ carried.number = time.number + carry * (base * unit) := by
    by_cases some : carry > 0
    · rw [if_pos some]
      exact carries carry carryLt time valid carryFits
    · obtain rfl : carry = 0 := by omega
      exact ⟨time, if_neg some, valid, by simp⟩
  obtain ⟨carried, isCarried, carriedValid, carriedNumber⟩ := moves
  obtain ⟨moved, isMoved, movedValid, movedNumber⟩ := isField.set carried carriedValid value valueLt
  refine ⟨moved, ?_, movedValid, ?_⟩
  · simp only [addUnit, chosen, isCarried, Option.bind_eq_bind, Option.bind_some, isMoved]
  · rw [isField.keeps valid carriedValid carriedNumber, carriedNumber] at movedNumber
    omega

theorem IsField.subtract (isField : IsField base unit field set)
    {subtractLarger : ℕ → DateTime → Option DateTime}
    (carries : Subtracts subtractLarger (base * unit)) :
    Subtracts (subtractUnit base field subtractLarger set) unit := by
  intro amount time valid fits
  obtain ⟨above, below, number, small, inside⟩ := isField.split valid
  -- what is borrowed, and what remains
  obtain ⟨carry, value, chosen, valueLt, same⟩ : ∃ carry value,
      (if amount % base > field time then
        (amount / base + 1, base - (amount % base - field time))
      else (amount / base, field time - amount % base)) = (carry, value) ∧
      value < base ∧ field time + carry * base = amount + value := by
    have divided := Nat.div_add_mod amount base
    have rest := Nat.mod_lt amount isField.base_pos
    by_cases borrows : amount % base > field time
    · refine ⟨_, _, if_pos borrows, by omega, ?_⟩
      rw [Nat.add_mul, Nat.mul_comm (amount / base)]
      omega
    · refine ⟨_, _, if_neg borrows, by omega, ?_⟩
      rw [Nat.mul_comm (amount / base)]
      omega
  have units : field time * unit + carry * (base * unit) = amount * unit + value * unit := by
    rw [← Nat.add_mul, ← same]
    ring
  have carryFits : carry * (base * unit) ≤ time.number := by
    have valueRoom := Nat.mul_le_mul_right unit (Nat.succ_le_of_lt valueLt)
    rw [Nat.succ_mul] at valueRoom
    have within : carry ≤ above := by
      by_contra beyond
      have tooMany := Nat.mul_le_mul_right (base * unit) (Nat.succ_le_of_lt (not_le.mp beyond))
      rw [Nat.succ_mul] at tooMany
      omega
    have enough := Nat.mul_le_mul_right (base * unit) within
    omega
  have moves : ∃ carried,
      (if carry > 0 then subtractLarger carry time else some time) = some carried ∧
      carried.Valid ∧ carried.number + carry * (base * unit) = time.number := by
    by_cases some : carry > 0
    · rw [if_pos some]
      exact carries carry time valid carryFits
    · obtain rfl : carry = 0 := by omega
      exact ⟨time, if_neg some, valid, by simp⟩
  obtain ⟨carried, isCarried, carriedValid, carriedNumber⟩ := moves
  obtain ⟨moved, isMoved, movedValid, movedNumber⟩ := isField.set carried carriedValid value valueLt
  refine ⟨moved, ?_, movedValid, ?_⟩
  · simp only [subtractUnit, chosen, isCarried, Option.bind_eq_bind, Option.bind_some, isMoved]
  · rw [← isField.keeps carriedValid valid carriedNumber.symm] at movedNumber
    omega

end Fields

/-! ## The units -/

theorem isField_hour : IsField 24 3600000 hour setHour where
  base_pos := by decide
  unit_pos := by decide
  divides := by decide
  value time valid := by
    have hour := valid.hour
    have minute := valid.minute
    have second := valid.second
    have millisecond := valid.millisecond
    rw [number, timeOfDay, MS_PER_DAY]
    omega
  set time valid value lt := by
    refine ⟨_, if_neg (not_le.mpr lt), { valid with hour := lt }, ?_⟩
    simp only [number, timeOfDay]
    omega

theorem isField_minute : IsField 60 60000 minute setMinute where
  base_pos := by decide
  unit_pos := by decide
  divides := by decide
  value time valid := by
    have minute := valid.minute
    have second := valid.second
    have millisecond := valid.millisecond
    rw [number, timeOfDay, MS_PER_DAY]
    omega
  set time valid value lt := by
    refine ⟨_, if_neg (not_le.mpr lt), { valid with minute := lt }, ?_⟩
    simp only [number, timeOfDay]
    omega

theorem isField_second : IsField 60 1000 second setSecond where
  base_pos := by decide
  unit_pos := by decide
  divides := by decide
  value time valid := by
    have second := valid.second
    have millisecond := valid.millisecond
    rw [number, timeOfDay, MS_PER_DAY]
    omega
  set time valid value lt := by
    refine ⟨_, if_neg (not_le.mpr lt), { valid with second := lt }, ?_⟩
    simp only [number, timeOfDay]
    omega

theorem isField_millisecond : IsField 1000 1 millisecond setMillisecond where
  base_pos := by decide
  unit_pos := by decide
  divides := by decide
  value time valid := by
    have millisecond := valid.millisecond
    rw [number, timeOfDay, MS_PER_DAY]
    omega
  set time valid value lt := by
    refine ⟨_, if_neg (not_le.mpr lt), { valid with millisecond := lt }, ?_⟩
    simp only [number, timeOfDay]
    omega

theorem adds_days : Adds addDays MS_PER_DAY (2 ^ 32 - 366) := fun days lt time valid fits =>
  addDays_spec valid (by
    have short := valid.dayOfYear_le.trans (daysInYear_le _)
    omega) fits

theorem adds_hours : Adds addHours 3600000 (2 ^ 32) := isField_hour.add adds_days (by decide)

theorem adds_minutes : Adds addMinutes 60000 (2 ^ 32) := isField_minute.add adds_hours (by decide)

theorem adds_seconds : Adds addSeconds 1000 (2 ^ 32) := isField_second.add adds_minutes (by decide)

theorem adds_milliseconds : Adds addMilliseconds 1 (2 ^ 32) :=
  isField_millisecond.add adds_seconds (by decide)

theorem subtracts_days : Subtracts subtractDays MS_PER_DAY := fun _ _ valid fits =>
  subtractDays_spec valid fits

theorem subtracts_hours : Subtracts subtractHours 3600000 := isField_hour.subtract subtracts_days

theorem subtracts_minutes : Subtracts subtractMinutes 60000 :=
  isField_minute.subtract subtracts_hours

theorem subtracts_seconds : Subtracts subtractSeconds 1000 :=
  isField_second.subtract subtracts_minutes

theorem subtracts_milliseconds : Subtracts subtractMilliseconds 1 :=
  isField_millisecond.subtract subtracts_seconds

/-! ## The number determines the date -/

theorem Valid.date_of_day {time other : DateTime} (valid : time.Valid) (validToo : other.Valid)
    (same : dayNumber time.year time.month time.day =
      dayNumber other.year other.month other.day) :
    time.year = other.year ∧ time.month = other.month ∧ time.day = other.day := by
  have number := valid.dayNumber_eq
  have numberToo := validToo.dayNumber_eq
  have inYear := valid.dayOfYear_le
  have inYearToo := validToo.dayOfYear_le
  rw [daysInYear_eq] at inYear inYearToo
  obtain ⟨year, place⟩ := day_of_year_unique valid.year_pos validToo.year_pos
    ⟨valid.dayOfYear_pos, inYear⟩ ⟨validToo.dayOfYear_pos, inYearToo⟩
    (by rw [← number, ← numberToo, same])
  obtain ⟨-, started, -, first, last⟩ := validDate_iff.mp valid.date
  obtain ⟨-, startedToo, -, firstToo, lastToo⟩ := validDate_iff.mp validToo.date
  rw [← year] at lastToo
  obtain ⟨month, day⟩ := day_unique started startedToo ⟨first, last⟩ ⟨firstToo, lastToo⟩ (by
    have places := place
    rw [dayOfYear, dayOfYear, getDayOfYear, getDayOfYear, ← year] at places
    exact places)
  exact ⟨year, month, day⟩

theorem Valid.ext_number {time other : DateTime} (valid : time.Valid) (validToo : other.Valid)
    (same : time.number = other.number) : time = other := by
  have early := valid.timeOfDay_lt
  have earlyToo := validToo.timeOfDay_lt
  rw [number, number, MS_PER_DAY] at same
  rw [MS_PER_DAY] at early earlyToo
  obtain ⟨year, month, day⟩ := valid.date_of_day validToo (by omega)
  have hour := valid.hour
  have minute := valid.minute
  have second := valid.second
  have millisecond := valid.millisecond
  have hourToo := validToo.hour
  have minuteToo := validToo.minute
  have secondToo := validToo.second
  have millisecondToo := validToo.millisecond
  rw [year, month, day, timeOfDay, timeOfDay] at same
  obtain ⟨y, m, d, h, min, s, ms⟩ := time
  obtain ⟨y', m', d', h', min', s', ms'⟩ := other
  simp only at *
  rw [DateTime.mk.injEq]
  omega

theorem compare_self (time : DateTime) : compare time time = .eq := by simp [compare]

/-! ## Adding and subtracting -/

def amountOf (days hours minutes seconds milliseconds : ℕ) : ℕ :=
  days * MS_PER_DAY + hours * 3600000 + minutes * 60000 + seconds * 1000 + milliseconds

theorem add_time {time : DateTime} (valid : time.Valid) {hours minutes seconds milliseconds : ℕ}
    (days : ℕ) (hoursLt : hours < 2 ^ 32) (minutesLt : minutes < 2 ^ 32)
    (secondsLt : seconds < 2 ^ 32) (millisecondsLt : milliseconds < 2 ^ 32)
    (fits : time.number + amountOf 0 hours minutes seconds milliseconds <
      lastDay * MS_PER_DAY) :
    ∃ moved, time.add days hours minutes seconds milliseconds = addDays days moved ∧
      moved.Valid ∧
      moved.number = time.number + amountOf 0 hours minutes seconds milliseconds := by
  rw [amountOf] at fits ⊢
  obtain ⟨first, isFirst, firstValid, firstNumber⟩ :=
    adds_milliseconds milliseconds millisecondsLt time valid (by omega)
  obtain ⟨second, isSecond, secondValid, secondNumber⟩ :=
    adds_seconds seconds secondsLt first firstValid (by omega)
  obtain ⟨third, isThird, thirdValid, thirdNumber⟩ :=
    adds_minutes minutes minutesLt second secondValid (by omega)
  obtain ⟨moved, isMoved, movedValid, movedNumber⟩ :=
    adds_hours hours hoursLt third thirdValid (by omega)
  exact ⟨moved, by simp only [add, isFirst, isSecond, isThird, isMoved, Option.bind_eq_bind,
    Option.bind_some], movedValid, by omega⟩

theorem subtract_time {time : DateTime} (valid : time.Valid)
    {hours minutes seconds milliseconds : ℕ} (days : ℕ)
    (fits : amountOf 0 hours minutes seconds milliseconds ≤ time.number) :
    ∃ moved, time.subtract days hours minutes seconds milliseconds = subtractDays days moved ∧
      moved.Valid ∧
      moved.number + amountOf 0 hours minutes seconds milliseconds = time.number := by
  rw [amountOf] at fits ⊢
  obtain ⟨first, isFirst, firstValid, firstNumber⟩ :=
    subtracts_milliseconds milliseconds time valid (by omega)
  obtain ⟨second, isSecond, secondValid, secondNumber⟩ :=
    subtracts_seconds seconds first firstValid (by omega)
  obtain ⟨third, isThird, thirdValid, thirdNumber⟩ :=
    subtracts_minutes minutes second secondValid (by omega)
  obtain ⟨moved, isMoved, movedValid, movedNumber⟩ :=
    subtracts_hours hours third thirdValid (by omega)
  exact ⟨moved, by simp only [subtract, isFirst, isSecond, isThird, isMoved, Option.bind_eq_bind,
    Option.bind_some], movedValid, by omega⟩

theorem amountOf_days (days hours minutes seconds milliseconds : ℕ) :
    amountOf days hours minutes seconds milliseconds =
      days * MS_PER_DAY + amountOf 0 hours minutes seconds milliseconds := by
  rw [amountOf, amountOf]
  omega

theorem subtract_spec {time : DateTime} (valid : time.Valid)
    {days hours minutes seconds milliseconds : ℕ}
    (fits : amountOf days hours minutes seconds milliseconds ≤ time.number) :
    ∃ moved, time.subtract days hours minutes seconds milliseconds = some moved ∧
      moved.Valid ∧
      moved.number + amountOf days hours minutes seconds milliseconds = time.number := by
  rw [amountOf_days] at fits ⊢
  obtain ⟨moved, subtracted, movedValid, movedNumber⟩ := subtract_time valid days
    (show amountOf 0 hours minutes seconds milliseconds ≤ time.number by omega)
  obtain ⟨difference, isDifference, differenceValid, differenceNumber⟩ :=
    subtracts_days days moved movedValid (by omega)
  exact ⟨difference, subtracted.trans isDifference, differenceValid, by omega⟩

/-- Neither the day count that `addDays` computes behind the smaller units nor the year of the
sum leaves the 32 bits. -/
structure Fits (time : DateTime) (days hours minutes seconds milliseconds : ℕ) : Prop where
  dayCount : ∀ moved, time.add 0 hours minutes seconds milliseconds = some moved →
    moved.dayOfYear + days < 2 ^ 32
  year : time.number + amountOf days hours minutes seconds milliseconds < lastDay * MS_PER_DAY

theorem add_spec {time : DateTime} (valid : time.Valid)
    {days hours minutes seconds milliseconds : ℕ} (hoursLt : hours < 2 ^ 32)
    (minutesLt : minutes < 2 ^ 32) (secondsLt : seconds < 2 ^ 32)
    (millisecondsLt : milliseconds < 2 ^ 32)
    (fits : time.Fits days hours minutes seconds milliseconds) :
    ∃ moved, time.add days hours minutes seconds milliseconds = some moved ∧
      moved.Valid ∧
      moved.number = time.number + amountOf days hours minutes seconds milliseconds := by
  have year := fits.year
  rw [amountOf_days] at year ⊢
  obtain ⟨moved, added, movedValid, movedNumber⟩ :=
    add_time valid days hoursLt minutesLt secondsLt millisecondsLt (by omega)
  -- adding no days leaves this date
  obtain ⟨same, addedZero, sameValid, sameNumber⟩ :=
    add_time valid 0 hoursLt minutesLt secondsLt millisecondsLt (by omega)
  obtain rfl := movedValid.ext_number sameValid (by omega)
  have short := movedValid.dayOfYear_le.trans (daysInYear_le _)
  obtain ⟨zero, isZero, zeroValid, zeroNumber⟩ :=
    addDays_spec movedValid (show moved.dayOfYear + 0 < 2 ^ 32 by omega) (by omega)
  obtain rfl := zeroValid.ext_number movedValid (by omega)
  obtain ⟨sum, isSum, sumValid, sumNumber⟩ :=
    addDays_spec movedValid (fits.dayCount zero (addedZero.trans isZero)) (by omega)
  exact ⟨sum, added.trans isSum, sumValid, by omega⟩

/-- Dates are added to and subtracted from as their numbers are, and subtracting what was added
leads back. -/
theorem add_subtract_exact {time : DateTime} (valid : time.Valid)
    {days hours minutes seconds milliseconds : ℕ} (hoursLt : hours < 2 ^ 32)
    (minutesLt : minutes < 2 ^ 32) (secondsLt : seconds < 2 ^ 32)
    (millisecondsLt : milliseconds < 2 ^ 32) :
    (time.Fits days hours minutes seconds milliseconds →
      ∃ sum, time.add days hours minutes seconds milliseconds = some sum ∧ sum.Valid ∧
        sum.number = time.number + amountOf days hours minutes seconds milliseconds ∧
        ∃ back, sum.subtract days hours minutes seconds milliseconds = some back ∧
          compare back time = .eq) ∧
    (amountOf days hours minutes seconds milliseconds ≤ time.number →
      ∃ difference, time.subtract days hours minutes seconds milliseconds = some difference ∧
        difference.Valid ∧
        difference.number + amountOf days hours minutes seconds milliseconds = time.number) := by
  refine ⟨fun fits => ?_, subtract_spec valid⟩
  obtain ⟨sum, isSum, sumValid, sumNumber⟩ :=
    add_spec valid hoursLt minutesLt secondsLt millisecondsLt fits
  obtain ⟨back, isBack, backValid, backNumber⟩ := subtract_spec sumValid
    (show amountOf days hours minutes seconds milliseconds ≤ sum.number by omega)
  obtain rfl := backValid.ext_number valid (by omega)
  exact ⟨sum, isSum, sumValid, sumNumber, back, isBack, compare_self back⟩

def newYear : DateTime := ⟨2015, 12, 31, 23, 59, 59, 999⟩

theorem newYear_valid : newYear.Valid where
  date := by decide
  year := by decide
  hour := by decide
  minute := by decide
  second := by decide
  millisecond := by decide

/-- To the last day of February 2016, and back from the new year to a year before. -/
theorem add_subtract_exact_newYear :
    (∃ sum, newYear.add 59 0 0 0 1 = some sum ∧ sum.Valid ∧
      sum.number = newYear.number + amountOf 59 0 0 0 1 ∧
      ∃ back, sum.subtract 59 0 0 0 1 = some back ∧ compare back newYear = .eq) ∧
    ∃ difference, newYear.subtract 365 0 0 0 1000 = some difference ∧ difference.Valid ∧
      difference.number + amountOf 365 0 0 0 1000 = newYear.number := by
  have fits : newYear.Fits 59 0 0 0 1 := by
    refine ⟨fun moved isMoved => ?_, by decide +kernel⟩
    have midnight : newYear.add 0 0 0 0 1 = some ⟨2016, 1, 1, 0, 0, 0, 0⟩ := by decide +kernel
    obtain rfl := Option.some.inj (midnight.symm.trans isMoved)
    decide
  exact ⟨(add_subtract_exact newYear_valid (by decide) (by decide) (by decide) (by decide)).1 fits,
    (add_subtract_exact newYear_valid (by decide) (by decide) (by decide) (by decide)).2
      (by decide +kernel)⟩

example : newYear.add 59 0 0 0 1 = some ⟨2016, 2, 29, 0, 0, 0, 0⟩ := by decide +kernel

end DateTime

end OperationFrontLine.Dates
