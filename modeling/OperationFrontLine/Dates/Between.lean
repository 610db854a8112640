import OperationFrontLine.Dates.Arithmetic

/-!
# The time between two dates

`timeBetween` counts days by a loop over the years from the later date down to the earlier one,
and by a second loop over days.  The second one starts from the day of the year of the later date
and not from the end of the year where the first one stopped.
-/

namespace OperationFrontLine.Dates

open OperationFrontLine.Library

structure DateTimeDuration where
  days : ℕ
  hours : ℕ
  minutes : ℕ
  seconds : ℕ
  milliseconds : ℕ
  isNegative : Bool
  deriving DecidableEq, Repr

namespace DateTimeDuration

/-- `hours`, whose loop takes one day off in each round. -/
def setHours (dur : DateTimeDuration) (hours : ℕ) : DateTimeDuration :=
  { (fun dur : DateTimeDuration => { dur with days := increment dur.days })^[hours / 24] dur with
    hours := hours % 24 }

def setMinutes (dur : DateTimeDuration) (minutes : ℕ) : DateTimeDuration :=
  { (fun dur : DateTimeDuration => dur.setHours (increment dur.hours))^[minutes / 60] dur with
    minutes := minutes % 60 }

def setSeconds (dur : DateTimeDuration) (seconds : ℕ) : DateTimeDuration :=
  { (fun dur : DateTimeDuration => dur.setMinutes (increment dur.minutes))^[seconds / 60] dur with
    seconds := seconds % 60 }

def setMilliseconds (dur : DateTimeDuration) (milliseconds : ℕ) : DateTimeDuration :=
  { (fun dur : DateTimeDuration =>
      dur.setSeconds (increment dur.seconds))^[milliseconds / 1000] dur with
    milliseconds := milliseconds % 1000 }

/-- `setDateTimeDuration`, which the constructors call. -/
def setDateTimeDuration (days hours minutes seconds milliseconds : ℕ) (isNegative : Bool) :
    DateTimeDuration :=
  let dur : DateTimeDuration := ⟨days, 0, 0, 0, 0, isNegative⟩
  (((dur.setHours hours).setMinutes minutes).setSeconds seconds).setMilliseconds milliseconds

theorem setDateTimeDuration_eq {days hours minutes seconds milliseconds : ℕ} (isNegative : Bool)
    (hoursLt : hours < 24) (minutesLt : minutes < 60) (secondsLt : seconds < 60)
    (millisecondsLt : milliseconds < 1000) :
    setDateTimeDuration days hours minutes seconds milliseconds isNegative =
      ⟨days, hours, minutes, seconds, milliseconds, isNegative⟩ := by
  simp [setDateTimeDuration, setHours, setMinutes, setSeconds, setMilliseconds,
    Nat.div_eq_of_lt hoursLt, Nat.div_eq_of_lt minutesLt, Nat.div_eq_of_lt secondsLt,
    Nat.div_eq_of_lt millisecondsLt, Nat.mod_eq_of_lt hoursLt, Nat.mod_eq_of_lt minutesLt,
    Nat.mod_eq_of_lt secondsLt, Nat.mod_eq_of_lt millisecondsLt]

end DateTimeDuration

namespace DateTime

/-- `subtract` and `add` of a duration, by its sign. -/
def addDuration (time : DateTime) (dur : DateTimeDuration) : Option DateTime :=
  if dur.isNegative then
    time.subtract dur.days dur.hours dur.minutes dur.seconds dur.milliseconds
  else time.add dur.days dur.hours dur.minutes dur.seconds dur.milliseconds

/-- The loop over the years, with `total_days` and `current_day`; `none` when it has not ended
after this number of rounds. -/
def yearLoop (time : DateTime) (stopYear : ℕ) : ℕ → ℕ → ℕ → ℕ → Option (ℕ × ℕ)
  | 0, _, _, _ => none
  | rounds + 1, currentYear, totalDays, currentDay =>
      if currentYear > stopYear then
        yearLoop time stopYear rounds (decrement currentYear)
          ((totalDays + if currentYear = time.year then time.dayOfYear
            else daysInYear currentYear) % 2 ^ 32) time.dayOfYear
      else some (totalDays, currentDay)

def dayLoop (stopDay : ℕ) : ℕ → ℕ → ℕ → Option ℕ
  | 0, _, _ => none
  | rounds + 1, currentDay, totalDays =>
      if currentDay > stopDay then
        dayLoop stopDay rounds (decrement currentDay) (increment totalDays)
      else some totalDays

/-- `timeBetween`, when `rhs` is the earlier time. -/
def timeSince (time rhs : DateTime) : Option DateTimeDuration := do
  let (stopDatetime, totalMs) ←
    (if rhs.timeOfDay > time.timeOfDay then
      (rhs.add 1 0 0 0 0).map fun stop =>
        (stop, MS_PER_DAY - (rhs.timeOfDay - time.timeOfDay))
    else some (rhs, time.timeOfDay - rhs.timeOfDay))
  let hours := totalMs / 3600000
  let totalMs := totalMs % 3600000
  let minutes := totalMs / 60000
  let totalMs := totalMs % 60000
  let seconds := totalMs / 1000
  let milliseconds := totalMs % 1000
  let (totalDays, currentDay) ←
    yearLoop time stopDatetime.year (time.year + 1) time.year 0 time.dayOfYear
  let totalDays ← dayLoop stopDatetime.dayOfYear (currentDay + 1) currentDay totalDays
  some (.setDateTimeDuration totalDays hours minutes seconds milliseconds false)

/-- `timeBetween`; when `rhs` is the later time it calls itself the other way round. -/
def timeBetween (time rhs : DateTime) : Option DateTimeDuration :=
  if compare rhs time = .eq then some (.setDateTimeDuration 0 0 0 0 0 false)
  else if compare rhs time = .gt then
    (timeSince rhs time).map fun dur => { dur with isNegative := true }
  else timeSince time rhs

/-! ## Dates in order -/

theorem compare_eq_iff {time other : DateTime} : compare time other = .eq ↔ time = other := by
  simp only [compare, Ordering.then_eq_eq, Nat.compare_eq_eq]
  constructor
  · rintro ⟨year, month, day, hour, minute, second, millisecond⟩
    obtain ⟨y, m, d, h, min, s, ms⟩ := time
    simp_all
  · rintro rfl
    simp

def dayOf (time : DateTime) : ℕ := dayNumber time.year time.month time.day

theorem number_eq_dayOf (time : DateTime) :
    time.number = time.dayOf * MS_PER_DAY + time.timeOfDay := rfl

theorem Valid.dayOf_eq {time : DateTime} (valid : time.Valid) :
    time.dayOf + 1 = daysBeforeYear time.year + time.dayOfYear := valid.dayNumber_eq

theorem Valid.dayOf_lt_of_year {time other : DateTime} (valid : time.Valid)
    (validToo : other.Valid) (lt : time.year < other.year) : time.dayOf < other.dayOf := by
  have inside := valid.dayOfYear_le
  rw [daysInYear_eq] at inside
  have ends := day_le_daysBeforeYear valid.year_pos inside lt
  have day := valid.dayOf_eq
  have dayToo := validToo.dayOf_eq
  have first := validToo.dayOfYear_pos
  omega

theorem Valid.dayOf_lt_of_month {time other : DateTime} (valid : time.Valid)
    (validToo : other.Valid) (year : time.year = other.year) (lt : time.month < other.month) :
    time.dayOf < other.dayOf := by
  obtain ⟨-, started, -, -, last⟩ := validDate_iff.mp valid.date
  obtain ⟨-, -, -, first, -⟩ := validDate_iff.mp validToo.date
  have ends := day_le_daysBefore started last lt
  have day := valid.dayOf_eq
  have dayToo := validToo.dayOf_eq
  rw [← year] at dayToo
  rw [dayOfYear, getDayOfYear] at day dayToo
  rw [← year] at dayToo
  rw [daysBefore, daysBefore] at ends
  omega

theorem dayOf_lt_of_day {time other : DateTime} (valid : time.Valid)
    (year : time.year = other.year) (month : time.month = other.month)
    (lt : time.day < other.day) : time.dayOf < other.dayOf := by
  obtain ⟨-, -, -, first, -⟩ := validDate_iff.mp valid.date
  rw [dayOf, dayOf, year, month, dayNumber, dayNumber]
  omega

theorem Valid.number_lt_of_dayOf {time other : DateTime} (valid : time.Valid)
    (lt : time.dayOf < other.dayOf) : time.number < other.number := by
  have early := valid.timeOfDay_lt
  rw [number_eq_dayOf, number_eq_dayOf]
  rw [MS_PER_DAY] at *
  omega

theorem number_lt_of_compare {time other : DateTime} (valid : time.Valid)
    (validToo : other.Valid) (lt : compare time other = .lt) : time.number < other.number := by
  simp only [compare, Ordering.then_eq_lt, Nat.compare_eq_lt, Nat.compare_eq_eq] at lt
  rcases lt with year | ⟨year, month | ⟨month, day | ⟨day, inDay⟩⟩⟩
  · exact valid.number_lt_of_dayOf (valid.dayOf_lt_of_year validToo year)
  · exact valid.number_lt_of_dayOf (valid.dayOf_lt_of_month validToo year month)
  · exact valid.number_lt_of_dayOf (dayOf_lt_of_day valid year month day)
  · have minute := valid.minute
    have second := valid.second
    have millisecond := valid.millisecond
    rw [number_eq_dayOf, number_eq_dayOf, dayOf, dayOf, year, month, day, timeOfDay, timeOfDay]
    omega

theorem compare_swap (time other : DateTime) :
    compare other time = .gt ↔ compare time other = .lt := by
  simp only [compare, Ordering.then_eq_gt, Ordering.then_eq_lt, Nat.compare_eq_gt,
    Nat.compare_eq_lt, Nat.compare_eq_eq]
  omega

theorem compare_gt_iff {time other : DateTime} (valid : time.Valid) (validToo : other.Valid) :
    compare time other = .gt ↔ other.number < time.number := by
  constructor
  · intro gt
    exact number_lt_of_compare validToo valid ((compare_swap other time).mp gt)
  · intro lt
    cases order : compare time other with
    | lt => exact absurd (number_lt_of_compare valid validToo order) (by omega)
    | eq =>
        rw [compare_eq_iff.mp order] at lt
        exact absurd lt (lt_irrefl _)
    | gt => rfl

/-! ## The loops -/

def countedDays (time stop : DateTime) : ℕ :=
  (if stop.year < time.year then
    time.dayOfYear + (daysBeforeYear time.year - daysBeforeYear (stop.year + 1)) else 0) +
    (time.dayOfYear - stop.dayOfYear)

theorem yearLoop_below {time : DateTime} {stopYear rounds currentYear totalDays : ℕ}
    (enough : currentYear < stopYear + rounds) (positive : 1 ≤ stopYear)
    (le : stopYear ≤ currentYear) (lt : currentYear < time.year) (bounded : currentYear < 2 ^ 32) :
    yearLoop time stopYear rounds currentYear (totalDays % 2 ^ 32) time.dayOfYear =
      some ((totalDays + (daysBeforeYear (currentYear + 1) - daysBeforeYear (stopYear + 1))) %
        2 ^ 32, time.dayOfYear) := by
  induction rounds generalizing currentYear totalDays with
  | zero => omega
  | succ rounds inductionHypothesis =>
      rw [yearLoop]
      rcases le.eq_or_lt with rfl | after
      · rw [if_neg (lt_irrefl _), Nat.sub_self, Nat.add_zero]
      · have next := daysBeforeYear_succ (show 1 ≤ currentYear by omega)
        have before := daysBeforeYear_mono (show 1 ≤ stopYear + 1 by omega) after
        rw [if_pos after, if_neg lt.ne, decrement_of_pos (by omega) bounded, Nat.mod_add_mod,
          inductionHypothesis (show currentYear - 1 < stopYear + rounds by omega) (by omega)
            (by omega) (by omega),
          Nat.sub_add_cancel (by omega), next, ← daysInYear_eq]
        congr 3
        omega

theorem dayLoop_spec {stopDay rounds currentDay : ℕ} (totalDays : ℕ)
    (enough : currentDay < rounds) (bounded : currentDay < 2 ^ 32) :
    dayLoop stopDay rounds currentDay (totalDays % 2 ^ 32) =
      some ((totalDays + (currentDay - stopDay)) % 2 ^ 32) := by
  induction rounds generalizing currentDay totalDays with
  | zero => exact absurd enough (Nat.not_lt_zero _)
  | succ rounds inductionHypothesis =>
      rw [dayLoop]
      by_cases after : currentDay > stopDay
      · rw [if_pos after, decrement_of_pos (by omega) bounded, increment_mod,
          inductionHypothesis _ (show currentDay - 1 < rounds by omega) (by omega)]
        congr 2
        omega
      · rw [if_neg after, Nat.sub_eq_zero_of_le (by omega), Nat.add_zero]

theorem loops_spec {time stop : DateTime} (valid : time.Valid) (stopValid : stop.Valid)
    (le : stop.year ≤ time.year) :
    ((yearLoop time stop.year (time.year + 1) time.year 0 time.dayOfYear).bind fun counted =>
      dayLoop stop.dayOfYear (counted.2 + 1) counted.2 counted.1) =
      some (countedDays time stop % 2 ^ 32) := by
  have bounded := valid.year
  have positive := stopValid.year_pos
  have short := valid.dayOfYear_le.trans (daysInYear_le _)
  rw [yearLoop, countedDays]
  rcases le.eq_or_lt with same | after
  · rw [if_neg (by omega), if_neg (by omega), Option.bind_some]
    exact dayLoop_spec 0 (Nat.lt_succ_self _) (by omega)
  · rw [if_pos after, if_pos rfl, if_pos after, decrement_of_pos (by omega) bounded, Nat.zero_add,
      yearLoop_below (by omega) positive (by omega) (by omega) (by omega), Option.bind_some,
      Nat.sub_add_cancel (by omega)]
    exact dayLoop_spec _ (Nat.lt_succ_self _) (by omega)

/-- The two dates are in one year, or one of them is as late in its year as the year of the
earlier one is long. -/
def Aligned (time stop : DateTime) : Prop :=
  time.year = stop.year ∨ max time.dayOfYear stop.dayOfYear = daysInYear stop.year

theorem countedDays_eq {time stop : DateTime} (valid : time.Valid) (stopValid : stop.Valid)
    (le : stop.dayOf ≤ time.dayOf) :
    (time.year = stop.year ∧ countedDays time stop = time.dayOf - stop.dayOf) ∨
      (stop.year < time.year ∧ countedDays time stop + daysInYear stop.year =
        time.dayOf - stop.dayOf + max time.dayOfYear stop.dayOfYear) := by
  have day := valid.dayOf_eq
  have stopDay := stopValid.dayOf_eq
  rcases lt_trichotomy stop.year time.year with before | same | after
  · have next := daysBeforeYear_succ stopValid.year_pos
    have between := daysBeforeYear_mono (show 1 ≤ stop.year + 1 by omega) before
    have inside := stopValid.dayOfYear_le
    rw [← daysInYear_eq] at next
    rw [countedDays, if_pos before]
    omega
  · rw [same] at stopDay
    rw [countedDays, if_neg (by omega)]
    omega
  · exact absurd (valid.dayOf_lt_of_year stopValid after) (not_lt.mpr le)

theorem Valid.dayOf_lt {time : DateTime} (valid : time.Valid) : time.dayOf < lastDay := by
  have inside := valid.dayOfYear_le
  rw [daysInYear_eq] at inside
  have ends := day_le_daysBeforeYear valid.year_pos inside valid.year
  have day := valid.dayOf_eq
  rw [lastDay]
  omega

/-- The date where the loops stop, which is the next day when the earlier date has the later time
of day. -/
structure StopsAt (earlier later stop : DateTime) : Prop where
  valid : stop.Valid
  day : stop.dayOf = earlier.dayOf + if earlier.timeOfDay > later.timeOfDay then 1 else 0

/-- What `timeBetween` computes for the later date: the milliseconds are right. -/
theorem timeSince_spec {later earlier : DateTime} (valid : later.Valid) (validToo : earlier.Valid)
    (lt : earlier.number < later.number) :
    ∃ stop hours minutes seconds milliseconds, StopsAt earlier later stop ∧
      stop.dayOf ≤ later.dayOf ∧
      hours < 24 ∧ minutes < 60 ∧ seconds < 60 ∧ milliseconds < 1000 ∧
      later.number = earlier.number + (later.dayOf - stop.dayOf) * MS_PER_DAY +
        amountOf 0 hours minutes seconds milliseconds ∧
      later.timeSince earlier = some
        ⟨countedDays later stop % 2 ^ 32, hours, minutes, seconds, milliseconds, false⟩ := by
  have early := valid.timeOfDay_lt
  have earlyToo := validToo.timeOfDay_lt
  have last := valid.dayOf_lt
  rw [number_eq_dayOf, number_eq_dayOf] at lt
  -- the date where the loops stop, and the rest of the time
  obtain ⟨stop, rest, stops, le, restLt, whole, chosen⟩ : ∃ stop rest,
      StopsAt earlier later stop ∧ stop.dayOf ≤ later.dayOf ∧ rest < MS_PER_DAY ∧
      later.number = earlier.number + (later.dayOf - stop.dayOf) * MS_PER_DAY + rest ∧
      (if earlier.timeOfDay > later.timeOfDay then
        (earlier.add 1 0 0 0 0).map fun stop =>
          (stop, MS_PER_DAY - (earlier.timeOfDay - later.timeOfDay))
      else some (earlier, later.timeOfDay - earlier.timeOfDay)) = some (stop, rest) := by
    rw [number_eq_dayOf, number_eq_dayOf]
    by_cases overlap : earlier.timeOfDay > later.timeOfDay
    · have days : earlier.dayOf < later.dayOf := by
        rw [MS_PER_DAY] at *
        omega
      clear lt
      have fits : earlier.number + 1 * MS_PER_DAY < lastDay * MS_PER_DAY := by
        rw [number_eq_dayOf]
        rw [MS_PER_DAY] at *
        omega
      have zero : amountOf 0 0 0 0 0 = 0 := by rw [amountOf]; omega
      obtain ⟨same, added, sameValid, sameNumber⟩ := add_time validToo 1 (by decide) (by decide)
        (by decide) (by decide) (show earlier.number + amountOf 0 0 0 0 0 < _ by omega)
      obtain rfl := sameValid.ext_number validToo (by omega)
      have short := validToo.dayOfYear_le.trans (daysInYear_le _)
      obtain ⟨stop, isStop, stopValid, stopNumber⟩ :=
        addDays_spec validToo (show same.dayOfYear + 1 < 2 ^ 32 by omega) fits
      have stopEarly := stopValid.timeOfDay_lt
      rw [number_eq_dayOf, number_eq_dayOf] at stopNumber
      have day : stop.dayOf = same.dayOf + 1 := by
        rw [MS_PER_DAY] at *
        omega
      clear fits stopNumber last
      refine ⟨stop, _, ⟨stopValid, by rw [if_pos overlap, day]⟩, day.trans_le days, ?_, ?_,
        by rw [if_pos overlap, added, isStop, Option.map_some]⟩
      all_goals
        rw [MS_PER_DAY] at *
        omega
    · have days : earlier.dayOf ≤ later.dayOf := by
        rw [MS_PER_DAY] at *
        omega
      refine ⟨earlier, _, ⟨validToo, by rw [if_neg overlap, Nat.add_zero]⟩, days,
        (Nat.sub_le _ _).trans_lt early, ?_, if_neg overlap⟩
      clear lt
      rw [MS_PER_DAY]
      omega
  have years : stop.year ≤ later.year := by
    by_contra after
    exact absurd (valid.dayOf_lt_of_year stops.valid (not_le.mp after)) (not_lt.mpr le)
  refine ⟨stop, rest / 3600000, rest % 3600000 / 60000, rest % 3600000 % 60000 / 1000,
    rest % 3600000 % 60000 % 1000, stops, le, ?_, ?_, ?_, ?_, ?_, ?_⟩
  · rw [MS_PER_DAY] at restLt
    omega
  · omega
  · omega
  · omega
  · rw [whole, amountOf]
    omega
  · rw [MS_PER_DAY] at restLt
    have counted := loops_spec valid stops.valid years
    simp only [Option.bind_eq_some_iff] at counted
    obtain ⟨⟨totalDays, currentDay⟩, inYears, inDays⟩ := counted
    simp only [timeSince, chosen, inYears, inDays, Option.bind_eq_bind, Option.bind_some]
    rw [DateTimeDuration.setDateTimeDuration_eq _ (by omega) (by omega) (by omega) (by omega)]

/-- The count of the loops is right when the two dates are aligned and it does not wrap. -/
theorem countedDays_iff {time stop : DateTime} (valid : time.Valid) (stopValid : stop.Valid)
    (le : stop.dayOf ≤ time.dayOf) :
    countedDays time stop % 2 ^ 32 = time.dayOf - stop.dayOf ↔
      Aligned time stop ∧ time.dayOf - stop.dayOf < 2 ^ 32 := by
  have first := valid.dayOfYear_pos
  have short := valid.dayOfYear_le.trans (daysInYear_le _)
  have shortToo := stopValid.dayOfYear_le.trans (daysInYear_le _)
  have long := daysInYear_pos stop.year
  have most := daysInYear_le stop.year
  rw [Aligned]
  rcases countedDays_eq valid stopValid le with ⟨same, counted⟩ | ⟨before, counted⟩ <;> omega

/-- It is at most one day too long, and only for the last day of a leap year. -/
theorem countedDays_le {time stop : DateTime} (valid : time.Valid) (stopValid : stop.Valid)
    (le : stop.dayOf ≤ time.dayOf) :
    countedDays time stop % 2 ^ 32 ≤ time.dayOf - stop.dayOf ∨
      (countedDays time stop % 2 ^ 32 = time.dayOf - stop.dayOf + 1 ∧ time.dayOfYear = 366) := by
  have short := valid.dayOfYear_le.trans (daysInYear_le _)
  have inside := stopValid.dayOfYear_le
  have long := daysInYear_pos stop.year
  have wrapped := Nat.mod_le (countedDays time stop) (2 ^ 32)
  rcases countedDays_eq valid stopValid le with ⟨same, counted⟩ | ⟨before, counted⟩ <;> omega

/-! ## Going the counted days -/

theorem setDayOfYear_zero (time : DateTime) : time.setDayOfYear 0 = none := by
  have found : getReverseDayOfYear time.year 0 = none := by
    rw [getReverseDayOfYear, reverseLoop, if_pos (Nat.zero_le _), setDateTime]
    exact if_pos (Or.inl (by simp [validDate]))
  rw [setDayOfYear, found]
  rfl

/-- A day count that wraps leads to an earlier day of the year, or to none. -/
theorem addDays_wraps {time : DateTime} (valid : time.Valid) {days : ℕ} (bounded : days < 2 ^ 32)
    (wraps : 2 ^ 32 ≤ time.dayOfYear + days) {sum : DateTime}
    (added : addDays days time = some sum) :
    sum.dayOf < time.dayOf := by
  have inside := valid.dayOfYear_le
  have day := valid.dayOf_eq
  have rest : (time.dayOfYear + days) % 2 ^ 32 = time.dayOfYear + days - 2 ^ 32 := by
    have short := inside.trans (daysInYear_le _)
    omega
  rw [addDays, rest, addLoop, if_neg (by omega)] at added
  by_cases none : time.dayOfYear + days - 2 ^ 32 = 0
  · simp only [none, Option.bind_eq_bind, Option.bind_some, Option.bind_eq_some_iff,
      setDayOfYear_zero, reduceCtorEq, and_false, exists_false] at added
  · obtain ⟨moved, isMoved, movedValid, sameYear, place, -⟩ :=
      setDate_spec valid valid.year_pos valid.year
        (show 1 ≤ time.dayOfYear + days - 2 ^ 32 by omega) (by omega)
    obtain rfl := Option.some.inj (isMoved.symm.trans added)
    have movedDay := movedValid.dayOf_eq
    rw [sameYear, place] at movedDay
    omega

theorem Valid.leap_of_dayOfYear {time : DateTime} (valid : time.Valid)
    (last : time.dayOfYear = 366) : time.dayOf + 1 < lastDay := by
  have inside := valid.dayOfYear_le
  have day := valid.dayOf_eq
  have bounded := valid.year
  have started := valid.year_pos
  have notLast : time.year ≠ 2 ^ 32 - 1 := by
    intro isLast
    rw [isLast, last] at inside
    exact absurd inside (by decide)
  have next := daysBeforeYear_succ started
  have long := daysInYear_pos (time.year + 1)
  rw [daysInYear_eq] at inside long
  have beyond := day_le_daysBeforeYear (show 1 ≤ time.year + 1 by omega) long
    (show time.year + 1 < 2 ^ 32 by omega)
  rw [lastDay]
  omega

/-- The days lead to a later date when they are as many as lie between, and do not wrap. -/
theorem addDays_eq_iff {moved target : DateTime} (valid : moved.Valid) (validToo : target.Valid)
    {days between : ℕ} (bounded : days < 2 ^ 32)
    (number : target.number = moved.number + between * MS_PER_DAY)
    (most : days ≤ between ∨ (days = between + 1 ∧ target.dayOfYear = 366)) :
    addDays days moved = some target ↔
      days = between ∧ moved.dayOfYear + between < 2 ^ 32 := by
  have early := valid.timeOfDay_lt
  have earlyToo := validToo.timeOfDay_lt
  have last := validToo.dayOf_lt
  have numbers := number
  rw [number_eq_dayOf, number_eq_dayOf] at numbers
  have apart : target.dayOf = moved.dayOf + between := by
    clear last
    rw [MS_PER_DAY] at *
    omega
  by_cases room : moved.dayOfYear + days < 2 ^ 32
  · have fits : moved.number + days * MS_PER_DAY < lastDay * MS_PER_DAY := by
      have ends : moved.dayOf + days < lastDay := by
        rcases most with le | ⟨rfl, leap⟩
        · omega
        · have lastDayOf := validToo.leap_of_dayOfYear leap
          omega
      rw [number_eq_dayOf]
      clear numbers number last apart
      rw [MS_PER_DAY] at *
      omega
    obtain ⟨sum, isSum, sumValid, sumNumber⟩ := addDays_spec valid room fits
    rw [isSum, Option.some.injEq]
    clear fits numbers
    constructor
    · rintro rfl
      rw [MS_PER_DAY] at *
      omega
    · rintro ⟨rfl, -⟩
      exact sumValid.ext_number validToo (sumNumber.trans number.symm)
  · constructor
    · intro added
      have before := addDays_wraps valid bounded (not_lt.mp room) added
      omega
    · rintro ⟨rfl, fits⟩
      exact absurd fits room

theorem subtractLoop_beyond {rounds days year dayOfYear : ℕ} (enough : days + 1 < rounds + 1)
    (started : 1 ≤ year) (bounded : year < 2 ^ 32) (positive : 1 ≤ dayOfYear)
    (beyond : days = daysBeforeYear year + dayOfYear) :
    subtractLoop rounds days year dayOfYear = some (0, daysInYear 0) := by
  induction rounds generalizing days year dayOfYear with
  | zero => omega
  | succ rounds inductionHypothesis =>
      rw [subtractLoop, if_pos (by omega), if_neg (by omega), decrement_of_pos (by omega) bounded]
      rcases Nat.eq_or_lt_of_le started with first | later
      · rw [← first, show daysBeforeYear 1 = 0 from rfl] at beyond
        rw [← first, show days - dayOfYear = 0 by omega]
        obtain ⟨more, rfl⟩ : ∃ more, rounds = more + 1 := ⟨rounds - 1, by omega⟩
        rfl
      · have next := daysBeforeYear_succ (show 1 ≤ year - 1 by omega)
        rw [← daysInYear_eq, Nat.sub_add_cancel started] at next
        have long := daysInYear_pos (year - 1)
        exact inductionHypothesis (by omega) (by omega) (by omega) (by omega) (by omega)

theorem subtractDays_beyond {time : DateTime} (valid : time.Valid) :
    subtractDays (time.dayOf + 1) time = none := by
  rw [subtractDays, subtractLoop_beyond (Nat.lt_succ_self _) valid.year_pos valid.year
    valid.dayOfYear_pos valid.dayOf_eq]
  simp [setYear]

theorem subtractDays_eq_iff {moved target : DateTime} (valid : moved.Valid)
    (validToo : target.Valid) {days between : ℕ}
    (number : moved.number = target.number + between * MS_PER_DAY) (most : days ≤ between + 1) :
    subtractDays days moved = some target ↔ days = between := by
  have early := valid.timeOfDay_lt
  have earlyToo := validToo.timeOfDay_lt
  have numbers := number
  rw [number_eq_dayOf, number_eq_dayOf] at numbers
  have apart : moved.dayOf = target.dayOf + between := by
    rw [MS_PER_DAY] at *
    omega
  clear numbers
  by_cases inside : days ≤ moved.dayOf
  · have fits : days * MS_PER_DAY ≤ moved.number := by
      rw [number_eq_dayOf]
      exact (Nat.mul_le_mul_right _ inside).trans (Nat.le_add_right _ _)
    obtain ⟨difference, isDifference, differenceValid, differenceNumber⟩ :=
      subtractDays_spec valid fits
    rw [isDifference, Option.some.injEq]
    clear fits
    constructor
    · rintro rfl
      rw [MS_PER_DAY] at *
      omega
    · rintro rfl
      exact differenceValid.ext_number validToo (by omega)
  · obtain rfl : days = moved.dayOf + 1 := by omega
    rw [subtractDays_beyond valid]
    simp only [reduceCtorEq, false_iff]
    omega

theorem Valid.number_lt {time : DateTime} (valid : time.Valid) :
    time.number < lastDay * MS_PER_DAY := by
  have early := valid.timeOfDay_lt
  have last := Nat.mul_le_mul_right MS_PER_DAY (Nat.succ_le_of_lt valid.dayOf_lt)
  rw [Nat.succ_mul] at last
  rw [number_eq_dayOf]
  omega

theorem add_nothing {time : DateTime} (valid : time.Valid) : time.add 0 0 0 0 0 = some time := by
  have zero : amountOf 0 0 0 0 0 = 0 := by rw [amountOf]; omega
  have fits : time.number + amountOf 0 0 0 0 0 < lastDay * MS_PER_DAY := by
    rw [zero, Nat.add_zero]
    exact valid.number_lt
  obtain ⟨same, added, sameValid, sameNumber⟩ :=
    add_time valid 0 (by decide) (by decide) (by decide) (by decide) fits
  obtain rfl := sameValid.ext_number valid (by omega)
  have short := valid.dayOfYear_le.trans (daysInYear_le _)
  rw [added, addDays_eq_iff valid valid (by decide) (by omega) (Or.inl le_rfl)]
  omega

/-! ## The inverse of `add` -/

/-- `other.add(time.timeBetween(other)) == time` -/
def Inverse (time other : DateTime) : Prop :=
  ∃ dur back, time.timeBetween other = some dur ∧ other.addDuration dur = some back ∧
    compare back time = .eq

def Opposite (time other : DateTime) : Prop :=
  ∃ dur durBack, time.timeBetween other = some dur ∧ other.timeBetween time = some durBack ∧
    dur.days = durBack.days ∧ dur.hours = durBack.hours ∧ dur.minutes = durBack.minutes ∧
    dur.seconds = durBack.seconds ∧ dur.milliseconds = durBack.milliseconds ∧
    (time ≠ other → dur.isNegative = !durBack.isNegative)

theorem timeBetween_self (time : DateTime) :
    time.timeBetween time = some ⟨0, 0, 0, 0, 0, false⟩ := by
  rw [timeBetween, if_pos (compare_self time),
    DateTimeDuration.setDateTimeDuration_eq _ (by decide) (by decide) (by decide) (by decide)]

theorem timeBetween_later {later earlier : DateTime} (valid : later.Valid)
    (validToo : earlier.Valid) (lt : earlier.number < later.number) :
    later.timeBetween earlier = later.timeSince earlier := by
  have notEqual : compare earlier later ≠ .eq := fun equal => by
    rw [compare_eq_iff.mp equal] at lt
    exact lt_irrefl _ lt
  have notGreater : compare earlier later ≠ .gt := fun greater =>
    absurd ((compare_gt_iff validToo valid).mp greater) (not_lt.mpr lt.le)
  rw [timeBetween, if_neg notEqual, if_neg notGreater]

theorem timeBetween_earlier {later earlier : DateTime} (valid : later.Valid)
    (validToo : earlier.Valid) (lt : earlier.number < later.number) :
    earlier.timeBetween later =
      (later.timeSince earlier).map fun dur => { dur with isNegative := true } := by
  have greater := (compare_gt_iff valid validToo).mpr lt
  rw [timeBetween, if_neg (by rw [greater]; decide), if_pos greater]

theorem opposite_of_lt {later earlier : DateTime} (valid : later.Valid)
    (validToo : earlier.Valid) (lt : earlier.number < later.number) :
    Opposite later earlier ∧ Opposite earlier later := by
  obtain ⟨stop, hours, minutes, seconds, milliseconds, -, -, -, -, -, -, -, since⟩ :=
    timeSince_spec valid validToo lt
  have forth := (timeBetween_later valid validToo lt).trans since
  have back := timeBetween_earlier valid validToo lt
  rw [since, Option.map_some] at back
  exact ⟨⟨_, _, forth, back, rfl, rfl, rfl, rfl, rfl, fun _ => rfl⟩,
    ⟨_, _, back, forth, rfl, rfl, rfl, rfl, rfl, fun _ => rfl⟩⟩

theorem opposite_always {time other : DateTime} (valid : time.Valid) (validToo : other.Valid) :
    Opposite time other := by
  rcases lt_trichotomy time.number other.number with before | same | after
  · exact (opposite_of_lt validToo valid before).2
  · obtain rfl := valid.ext_number validToo same
    exact ⟨_, _, timeBetween_self time, timeBetween_self time, rfl, rfl, rfl, rfl, rfl,
      fun distinct => absurd rfl distinct⟩
  · exact (opposite_of_lt valid validToo after).1

theorem StopsAt.unique {earlier later stop other : DateTime} (stops : StopsAt earlier later stop)
    (stopsToo : StopsAt earlier later other) :
    stop.dayOf = other.dayOf ∧ stop.year = other.year ∧ stop.dayOfYear = other.dayOfYear := by
  have same : stop.dayOf = other.dayOf := stops.day.trans stopsToo.day.symm
  obtain ⟨year, month, day⟩ := stops.valid.date_of_day stopsToo.valid same
  exact ⟨same, year, by rw [dayOfYear, dayOfYear, year, month, day]⟩

def RightDays (earlier later : DateTime) (room : DateTime → ℕ) : Prop :=
  ∃ stop, StopsAt earlier later stop ∧ Aligned later stop ∧
    room stop + (later.dayOf - stop.dayOf) < 2 ^ 32

theorem inverse_later_iff {later earlier : DateTime} (valid : later.Valid)
    (validToo : earlier.Valid) (lt : earlier.number < later.number) :
    Inverse later earlier ↔ RightDays earlier later dayOfYear := by
  obtain ⟨stop, hours, minutes, seconds, milliseconds, stops, le, hoursLt, minutesLt, secondsLt,
    millisecondsLt, whole, since⟩ := timeSince_spec valid validToo lt
  have right := countedDays_iff valid stops.valid le
  have most := countedDays_le valid stops.valid le
  have bounded := Nat.mod_lt (countedDays later stop) (show 0 < 2 ^ 32 by decide)
  generalize countedDays later stop % 2 ^ 32 = counted at *
  have fits : earlier.number + amountOf 0 hours minutes seconds milliseconds <
      lastDay * MS_PER_DAY := by
    have last := valid.number_lt
    omega
  obtain ⟨moved, added, movedValid, movedNumber⟩ := add_time validToo counted
    (show hours < 2 ^ 32 by omega) (show minutes < 2 ^ 32 by omega)
    (show seconds < 2 ^ 32 by omega) (show milliseconds < 2 ^ 32 by omega) fits
  -- the units below the day lead to the day where the loops stopped
  have number : later.number = moved.number + (later.dayOf - stop.dayOf) * MS_PER_DAY := by omega
  have sameDay : moved.dayOf = stop.dayOf := by
    have early := valid.timeOfDay_lt
    have movedEarly := movedValid.timeOfDay_lt
    clear whole fits movedNumber
    rw [number_eq_dayOf, number_eq_dayOf] at number
    rw [MS_PER_DAY] at *
    omega
  have place : moved.dayOfYear = stop.dayOfYear := by
    obtain ⟨year, month, day⟩ := movedValid.date_of_day stops.valid sameDay
    rw [dayOfYear, dayOfYear, year, month, day]
  have sums := addDays_eq_iff movedValid valid bounded number most
  rw [place] at sums
  have between := (timeBetween_later valid validToo lt).trans since
  have inverse : Inverse later earlier ↔ addDays counted moved = some later := by
    constructor
    · rintro ⟨dur, back, isDur, isBack, equal⟩
      obtain rfl := Option.some.inj (between.symm.trans isDur)
      obtain rfl := compare_eq_iff.mp equal
      exact added.symm.trans isBack
    · intro isBack
      exact ⟨_, later, between, added.trans isBack, compare_self later⟩
  rw [inverse, sums]
  constructor
  · rintro ⟨isRight, room⟩
    exact ⟨stop, stops, (right.mp isRight).1, room⟩
  · rintro ⟨other, stopsToo, aligned, room⟩
    obtain ⟨day, year, placeToo⟩ := stops.unique stopsToo
    rw [Aligned, ← year, ← placeToo] at aligned
    rw [← day, ← placeToo] at room
    exact ⟨right.mpr ⟨aligned, by omega⟩, room⟩

theorem inverse_earlier_iff {later earlier : DateTime} (valid : later.Valid)
    (validToo : earlier.Valid) (lt : earlier.number < later.number) :
    Inverse earlier later ↔ RightDays earlier later fun _ => 0 := by
  obtain ⟨stop, hours, minutes, seconds, milliseconds, stops, le, hoursLt, minutesLt, secondsLt,
    millisecondsLt, whole, since⟩ := timeSince_spec valid validToo lt
  have right := countedDays_iff valid stops.valid le
  have most := countedDays_le valid stops.valid le
  generalize countedDays later stop % 2 ^ 32 = counted at *
  obtain ⟨moved, subtracted, movedValid, movedNumber⟩ := subtract_time valid counted
    (show amountOf 0 hours minutes seconds milliseconds ≤ later.number by omega)
  have differences := subtractDays_eq_iff movedValid validToo
    (show moved.number = earlier.number + (later.dayOf - stop.dayOf) * MS_PER_DAY by omega)
    (show counted ≤ later.dayOf - stop.dayOf + 1 by omega)
  have between := timeBetween_earlier valid validToo lt
  rw [since, Option.map_some] at between
  have inverse : Inverse earlier later ↔ subtractDays counted moved = some earlier := by
    constructor
    · rintro ⟨dur, back, isDur, isBack, equal⟩
      obtain rfl := Option.some.inj (between.symm.trans isDur)
      obtain rfl := compare_eq_iff.mp equal
      exact subtracted.symm.trans isBack
    · intro isBack
      exact ⟨_, earlier, between, subtracted.trans isBack, compare_self earlier⟩
  rw [inverse, differences, right]
  constructor
  · rintro ⟨aligned, room⟩
    refine ⟨stop, stops, aligned, ?_⟩
    rwa [Nat.zero_add]
  · rintro ⟨other, stopsToo, aligned, room⟩
    obtain ⟨day, year, place⟩ := stops.unique stopsToo
    rw [Aligned, ← year, ← place] at aligned
    rw [← day] at room
    exact ⟨aligned, by omega⟩

/-- The days are counted right between dates of one year, and where the count from the later date
happens to meet the end of the year of the earlier one. -/
theorem timeBetween_inverse_iff {time other : DateTime} (valid : time.Valid)
    (validToo : other.Valid) :
    (Inverse time other ∧ Opposite time other) ↔
      time = other ∨
        (other.number < time.number ∧ RightDays other time dayOfYear) ∨
        (time.number < other.number ∧ RightDays time other fun _ => 0) := by
  rw [and_iff_left (opposite_always valid validToo)]
  rcases lt_trichotomy time.number other.number with before | same | after
  · have distinct : time ≠ other := fun equal => by
      rw [equal] at before
      exact lt_irrefl _ before
    rw [inverse_earlier_iff validToo valid before]
    simp only [distinct, before, not_lt.mpr before.le, false_and, false_or, true_and]
  · obtain rfl := valid.ext_number validToo same
    exact iff_of_true ⟨_, time, timeBetween_self time, add_nothing valid, compare_self time⟩
      (Or.inl rfl)
  · have distinct : time ≠ other := fun equal => by
      rw [equal] at after
      exact lt_irrefl _ after
    rw [inverse_later_iff valid validToo after]
    simp only [distinct, after, not_lt.mpr after.le, false_and, false_or, true_and, or_false]

/-- Noon of a day in March 2015. -/
def spring : DateTime := ⟨2015, 3, 1, 12, 0, 0, 0⟩

theorem spring_valid : spring.Valid where
  date := by decide
  year := by decide
  hour := by decide
  minute := by decide
  second := by decide
  millisecond := by decide

/-- Two dates of one year. -/
theorem timeBetween_inverse_iff_spring : Inverse newYear spring ∧ Opposite newYear spring :=
  (timeBetween_inverse_iff newYear_valid spring_valid).mpr
    (Or.inr (Or.inl ⟨by decide +kernel, spring, ⟨spring_valid, by decide +kernel⟩, Or.inl rfl,
      by decide +kernel⟩))

/-- From the first of December 2014 to the tenth of January 2015 only the days of January are
counted. -/
theorem timeBetween_not_inverse :
    ¬∀ time other : DateTime, time.Valid → other.Valid →
      Inverse time other ∧ Opposite time other := by
  intro always
  have valid : (⟨2015, 1, 10, 0, 0, 0, 0⟩ : DateTime).Valid :=
    ⟨by decide, by decide, by decide, by decide, by decide, by decide⟩
  have validToo : (⟨2014, 12, 1, 0, 0, 0, 0⟩ : DateTime).Valid :=
    ⟨by decide, by decide, by decide, by decide, by decide, by decide⟩
  obtain ⟨⟨dur, back, between, added, equal⟩, -⟩ := always _ _ valid validToo
  have tenDays : timeBetween ⟨2015, 1, 10, 0, 0, 0, 0⟩ ⟨2014, 12, 1, 0, 0, 0, 0⟩ =
      some ⟨10, 0, 0, 0, 0, false⟩ := by decide +kernel
  have december : addDuration ⟨2014, 12, 1, 0, 0, 0, 0⟩ ⟨10, 0, 0, 0, 0, false⟩ =
      some ⟨2014, 12, 11, 0, 0, 0, 0⟩ := by decide +kernel
  obtain rfl := Option.some.inj (tenDays.symm.trans between)
  obtain rfl := Option.some.inj (december.symm.trans added)
  exact absurd equal (by decide)

end DateTime

end OperationFrontLine.Dates
