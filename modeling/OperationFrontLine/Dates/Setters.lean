import OperationFrontLine.Dates.Arithmetic

/-!
# An object under its setters

An exception leaves the object as the statements before it made it.  All setters but that of
the day of the year check their numbers first; that one calls two others.
-/

namespace OperationFrontLine.Dates

open OperationFrontLine.Library

namespace DateTime

def setDate (time : DateTime) (year month day : ℕ) : Option DateTime :=
  if !validDate year month day then none
  else some { time with year := year, month := month, day := day }

def setTime (time : DateTime) (hour minute second millisecond : ℕ) : Option DateTime :=
  if hour ≥ 24 ∨ minute ≥ 60 ∨ second ≥ 60 ∨ millisecond ≥ 1000 then none
  else some { time with
    hour := hour, minute := minute, second := second, millisecond := millisecond }

end DateTime

open DateTime

/-- A member function: whether it returned, and the object that it leaves. -/
abbrev Member := DateTime → Bool × DateTime

namespace Member

/-- A function that throws before it has written anything. -/
def checked (set : DateTime → Option DateTime) : Member := fun time =>
  match set time with
  | some changed => (true, changed)
  | none => (false, time)

theorem checked_some (set : DateTime → Option DateTime) {time changed : DateTime}
    (result : set time = some changed) : checked set time = (true, changed) := by
  rw [checked, result]

/-- One call after another; an exception of the first one passes through. -/
def andThen (first second : Member) : Member := fun time =>
  if (first time).1 then second (first time).2 else first time

def dayOfYear (dayOfYear : ℕ) : Member := fun time =>
  match getReverseDayOfYear time.year dayOfYear with
  | some newDate =>
      ((checked fun time => time.setMonth newDate.month).andThen
        (checked fun time => time.setDay newDate.day)) time
  | none => (false, time)

end Member

inductive Setter where
  | setDate (year month day : ℕ)
  | setTime (hour minute second millisecond : ℕ)
  | setDateTime (year month day hour minute second millisecond : ℕ)
  | setYear (year : ℕ)
  | setMonth (month : ℕ)
  | setDay (day : ℕ)
  | setDayOfYear (dayOfYear : ℕ)
  | setHour (hour : ℕ)
  | setMinute (minute : ℕ)
  | setSecond (second : ℕ)
  | setMillisecond (millisecond : ℕ)
  deriving DecidableEq, Repr

namespace Setter

def call : Setter → Member
  | .setDate year month day => .checked fun time => time.setDate year month day
  | .setTime hour minute second millisecond =>
      .checked fun time => time.setTime hour minute second millisecond
  | .setDateTime year month day hour minute second millisecond =>
      .checked fun _ => DateTime.setDateTime year month day hour minute second millisecond
  | .setYear year => .checked fun time => time.setYear year
  | .setMonth month => .checked fun time => time.setMonth month
  | .setDay day => .checked fun time => time.setDay day
  | .setDayOfYear dayOfYear => .dayOfYear dayOfYear
  | .setHour hour => .checked fun time => time.setHour hour
  | .setMinute minute => .checked fun time => time.setMinute minute
  | .setSecond second => .checked fun time => time.setSecond second
  | .setMillisecond millisecond => .checked fun time => time.setMillisecond millisecond

/-- The object after some calls, of which the caller has caught the exceptions. -/
def runs (time : DateTime) (calls : List Setter) : DateTime :=
  calls.foldl (fun time setter => (setter.call time).2) time

def Words : Setter → Prop
  | .setDate year _ _ | .setDateTime year _ _ _ _ _ _ | .setYear year => year < 2 ^ 32
  | _ => True

/-- The numbers exist on the date that the object holds. -/
def InRange (time : DateTime) : Setter → Prop
  | .setDate year month day => validDate year month day = true
  | .setTime hour minute second millisecond =>
      hour < 24 ∧ minute < 60 ∧ second < 60 ∧ millisecond < 1000
  | .setDateTime year month day hour minute second millisecond =>
      validDate year month day = true ∧ hour < 24 ∧ minute < 60 ∧ second < 60 ∧
        millisecond < 1000
  | .setYear year => 1 ≤ year
  | .setMonth month => 1 ≤ month ∧ month ≤ 12
  | .setDay day => 1 ≤ day ∧ day ≤ daysInMonth time.year time.month
  | .setDayOfYear dayOfYear => 1 ≤ dayOfYear ∧ dayOfYear ≤ daysInYear time.year
  | .setHour hour => hour < 24
  | .setMinute minute => minute < 60
  | .setSecond second => second < 60
  | .setMillisecond millisecond => millisecond < 1000

/-- What a setter that returns makes of the object: the getter of what was set gives it
back, and everything else stays, but for the month and the day of a date that is none. -/
def Sets (time changed : DateTime) : Setter → Prop
  | .setDate year month day =>
      changed.year = year ∧ changed.month = month ∧ changed.day = day ∧
        changed.timeOfDay = time.timeOfDay
  | .setTime hour minute second millisecond =>
      changed.year = time.year ∧ changed.month = time.month ∧ changed.day = time.day ∧
        changed.hour = hour ∧ changed.minute = minute ∧ changed.second = second ∧
        changed.millisecond = millisecond
  | .setDateTime year month day hour minute second millisecond =>
      changed = ⟨year, month, day, hour, minute, second, millisecond⟩
  | .setYear year =>
      changed.year = year ∧ changed.timeOfDay = time.timeOfDay ∧
        (changed.month, changed.day) =
          if validDate year time.month time.day then (time.month, time.day) else (1, 1)
  | .setMonth month =>
      changed.year = time.year ∧ changed.month = month ∧ changed.timeOfDay = time.timeOfDay ∧
        changed.day = if validDate time.year month time.day then time.day else 1
  | .setDay day => changed = { time with day := day }
  | .setDayOfYear dayOfYear =>
      changed.year = time.year ∧ changed.dayOfYear = dayOfYear ∧
        changed.timeOfDay = time.timeOfDay
  | .setHour hour => changed = { time with hour := hour }
  | .setMinute minute => changed = { time with minute := minute }
  | .setSecond second => changed = { time with second := second }
  | .setMillisecond millisecond => changed = { time with millisecond := millisecond }

/-- What every setter promises on a valid object. -/
structure Contract (time : DateTime) (setter : Setter) (result : Bool × DateTime) : Prop where
  valid : result.2.Valid
  returns : result.1 = true ↔ setter.InRange time
  sets : result.1 = true → setter.Sets time result.2
  throws : result.1 = false → result.2 = time

theorem Contract.checked {time : DateTime} (valid : time.Valid) {setter : Setter}
    (set : DateTime → Option DateTime) (called : setter.call = .checked set)
    (throws : ¬setter.InRange time → set time = none)
    (sets : setter.InRange time →
      ∃ changed, set time = some changed ∧ changed.Valid ∧ setter.Sets time changed) :
    Contract time setter (setter.call time) := by
  rw [called, Member.checked]
  by_cases inRange : setter.InRange time
  · obtain ⟨changed, result, validToo, done⟩ := sets inRange
    rw [result]
    exact ⟨validToo, iff_of_true rfl inRange, fun _ => done, by simp⟩
  · rw [throws inRange]
    exact ⟨valid, iff_of_false Bool.false_ne_true inRange, by simp, fun _ => rfl⟩

theorem reverseLoop_sum (year dayOfYear : ℕ) {months month : ℕ} (left : month + months = 12)
    (started : 1 ≤ month) :
    1 ≤ (reverseLoop year months month dayOfYear).1 ∧
      (reverseLoop year months month dayOfYear).1 ≤ 12 ∧
      daysBefore (daysInMonth year) 1 (reverseLoop year months month dayOfYear).1 +
        (reverseLoop year months month dayOfYear).2 =
          daysBefore (daysInMonth year) 1 month + dayOfYear := by
  induction months generalizing month dayOfYear with
  | zero =>
      obtain rfl : month = 12 := left
      exact ⟨started, le_rfl, rfl⟩
  | succ months inductionHypothesis =>
      rw [reverseLoop]
      split
      · exact ⟨started, by omega, rfl⟩
      · rename_i more
        obtain ⟨least, most, same⟩ := inductionHypothesis (dayOfYear - daysInMonth year month)
          (show month + 1 + months = 12 by omega) (by omega)
        have next : daysBefore (daysInMonth year) 1 (month + 1) =
            daysBefore (daysInMonth year) 1 month + daysInMonth year month :=
          daysBefore_succ started
        exact ⟨least, most, by omega⟩

theorem getReverseDayOfYear_range {year dayOfYear : ℕ} {newDate : DateTime}
    (found : getReverseDayOfYear year dayOfYear = some newDate) :
    1 ≤ dayOfYear ∧ dayOfYear ≤ daysInYear year := by
  obtain ⟨least, most, same⟩ :=
    reverseLoop_sum year dayOfYear (show 1 + 11 = 12 from rfl) le_rfl
  rw [daysBefore_first, zero_add] at same
  rw [getReverseDayOfYear, DateTime.setDateTime] at found
  split at found
  · cases found
  · rename_i checks
    have isValid : validDate year (reverseLoop year 11 1 dayOfYear).1
        (reverseLoop year 11 1 dayOfYear).2 = true := by
      by_contra invalid
      simp [invalid] at checks
    obtain ⟨-, -, -, first, last⟩ := validDate_iff.mp isValid
    refine ⟨by omega, ?_⟩
    rw [← daysBefore_months, ← same]
    exact day_le_daysBefore least last (by omega)

/-- Of the two calls that the setter of the day of the year makes, neither throws. -/
theorem contract_dayOfYear {time : DateTime} (valid : time.Valid) (dayOfYear : ℕ) :
    Contract time (.setDayOfYear dayOfYear) ((Setter.setDayOfYear dayOfYear).call time) := by
  simp only [call, Member.dayOfYear]
  cases found : getReverseDayOfYear time.year dayOfYear with
  | none =>
      refine ⟨valid, ?_, by simp, fun _ => rfl⟩
      simp only [Bool.false_eq_true, InRange, false_iff]
      rintro ⟨positive, inside⟩
      obtain ⟨month, day, isFound, -⟩ := getReverseDayOfYear_spec valid.year_pos positive inside
      cases found.symm.trans isFound
  | some newDate =>
      obtain ⟨positive, inside⟩ := getReverseDayOfYear_range found
      obtain ⟨moved, isMoved, movedValid, sameYear, place, sameTime⟩ :=
        setDayOfYear_spec valid positive inside
      rw [DateTime.setDayOfYear, found, Option.bind_eq_bind, Option.bind_some] at isMoved
      obtain ⟨between, inMonth, onDay⟩ := Option.bind_eq_some_iff.mp isMoved
      have monthSet := Member.checked_some (fun time => time.setMonth newDate.month) inMonth
      have daySet := Member.checked_some (fun time => time.setDay newDate.day) onDay
      simp only [Member.andThen, monthSet, if_true, daySet]
      exact ⟨movedValid, iff_of_true rfl ⟨positive, inside⟩, fun _ => ⟨sameYear, place, sameTime⟩,
        by simp⟩

theorem validDate_first {year : ℕ} (positive : 1 ≤ year) : validDate year 1 1 = true :=
  validDate_iff.mpr ⟨positive, le_rfl, by decide, le_rfl, by simp [daysInMonth, MONTH_LENGTHS]⟩

theorem contract_date {time : DateTime} (valid : time.Valid) {year month day : ℕ}
    (words : year < 2 ^ 32) :
    Contract time (.setDate year month day) ((Setter.setDate year month day).call time) := by
  refine .checked valid (fun time => time.setDate year month day) rfl ?_ ?_
  · intro outside
    exact if_pos (by simpa [InRange] using outside)
  · intro inside
    exact ⟨_, if_neg (by simpa [InRange] using inside),
      { valid with date := inside, year := words }, rfl, rfl, rfl, rfl⟩

theorem contract_year {time : DateTime} (valid : time.Valid) {year : ℕ} (words : year < 2 ^ 32) :
    Contract time (.setYear year) ((Setter.setYear year).call time) := by
  refine .checked valid (fun time => time.setYear year) rfl ?_ ?_
  · intro outside
    exact if_pos (by simpa [InRange] using outside)
  · intro inside
    by_cases present : validDate year time.month time.day = true
    · refine ⟨{ time with year := year }, ?_, { valid with date := present, year := words },
        rfl, rfl, ?_⟩
      · rw [DateTime.setYear, if_neg (Nat.ne_of_gt inside), if_pos present]
      · rw [if_pos present]
    · refine ⟨{ time with year := year, month := 1, day := 1 }, ?_,
        { valid with date := validDate_first inside, year := words }, rfl, rfl, ?_⟩
      · rw [DateTime.setYear, if_neg (Nat.ne_of_gt inside), if_neg present]
      · rw [if_neg present]

/-- The first day of the month is there when the day of the object is not. -/
theorem contract_month {time : DateTime} (valid : time.Valid) (month : ℕ) :
    Contract time (.setMonth month) ((Setter.setMonth month).call time) := by
  obtain ⟨started, -, -, first, -⟩ := validDate_iff.mp valid.date
  refine .checked valid (fun time => time.setMonth month) rfl ?_ ?_
  · intro outside
    rw [InRange] at outside
    exact if_pos (by omega)
  · rintro ⟨least, most⟩
    by_cases behind : time.day > daysInMonth time.year month
    · have none : ¬validDate time.year month time.day = true := fun present =>
        absurd (validDate_iff.mp present).2.2.2.2 (not_le.mpr behind)
      have long : 1 ≤ daysInMonth time.year month :=
        Nat.le_add_right_of_le (by interval_cases month <;> decide)
      refine ⟨{ time with month := month, day := 1 }, ?_, { valid with
        date := validDate_iff.mpr ⟨started, least, most, le_rfl, long⟩ }, rfl, rfl, rfl, ?_⟩
      · rw [DateTime.setMonth, if_neg (by omega), if_pos behind]
      · rw [if_neg none]
    · have present : validDate time.year month time.day = true :=
        validDate_iff.mpr ⟨started, least, most, first, not_lt.mp behind⟩
      refine ⟨{ time with month := month }, ?_, { valid with date := present }, rfl, rfl, rfl, ?_⟩
      · rw [DateTime.setMonth, if_neg (by omega), if_neg behind]
      · rw [if_pos present]

theorem contract {time : DateTime} (valid : time.Valid) (setter : Setter)
    (words : setter.Words) : Contract time setter (setter.call time) := by
  obtain ⟨started, least, most, -, -⟩ := validDate_iff.mp valid.date
  cases setter with
  | setDate year month day => exact contract_date valid words
  | setTime hour minute second millisecond =>
      refine .checked valid (fun time => time.setTime hour minute second millisecond) rfl
        (fun outside => if_pos ?_) (fun inside => ⟨_, if_neg ?_, ?_, ?_⟩)
      · simp only [InRange] at outside
        omega
      · simp only [InRange] at inside
        omega
      · exact ⟨valid.date, valid.year, inside.1, inside.2.1, inside.2.2.1, inside.2.2.2⟩
      · exact ⟨rfl, rfl, rfl, rfl, rfl, rfl, rfl⟩
  | setDateTime year month day hour minute second millisecond =>
      refine .checked valid
        (fun _ => DateTime.setDateTime year month day hour minute second millisecond) rfl
        (fun outside => if_pos ?_) (fun inside => ⟨_, if_neg ?_, ?_, rfl⟩)
      · simpa only [InRange, not_and_or, not_lt, Bool.not_eq_true, Bool.not_eq_true',
          ge_iff_le] using outside
      · simpa only [InRange, not_or, ge_iff_le, not_le, Bool.not_eq_true', Bool.not_eq_false]
          using inside
      · exact ⟨inside.1, words, inside.2.1, inside.2.2.1, inside.2.2.2.1, inside.2.2.2.2⟩
  | setYear year => exact contract_year valid words
  | setMonth month => exact contract_month valid month
  | setDay day =>
      refine .checked valid (fun time => time.setDay day) rfl
        (fun outside => if_pos ?_) (fun inside => ⟨_, if_neg ?_, ?_, rfl⟩)
      · simp only [InRange] at outside
        omega
      · simp only [InRange] at inside
        omega
      · exact { valid with
          date := validDate_iff.mpr ⟨started, least, most, inside.1, inside.2⟩ }
  | setDayOfYear dayOfYear => exact contract_dayOfYear valid dayOfYear
  | setHour hour =>
      exact .checked valid (fun time => time.setHour hour) rfl
        (fun outside => if_pos (not_lt.mp outside))
        (fun inside => ⟨_, if_neg (not_le.mpr inside), { valid with hour := inside }, rfl⟩)
  | setMinute minute =>
      exact .checked valid (fun time => time.setMinute minute) rfl
        (fun outside => if_pos (not_lt.mp outside))
        (fun inside => ⟨_, if_neg (not_le.mpr inside), { valid with minute := inside }, rfl⟩)
  | setSecond second =>
      exact .checked valid (fun time => time.setSecond second) rfl
        (fun outside => if_pos (not_lt.mp outside))
        (fun inside => ⟨_, if_neg (not_le.mpr inside), { valid with second := inside }, rfl⟩)
  | setMillisecond millisecond =>
      exact .checked valid (fun time => time.setMillisecond millisecond) rfl
        (fun outside => if_pos (not_lt.mp outside))
        (fun inside => ⟨_, if_neg (not_le.mpr inside), { valid with millisecond := inside }, rfl⟩)

/-! ## Any calls -/

def returned (time : DateTime) : List Setter → List Setter
  | [] => []
  | setter :: calls =>
      if (setter.call time).1 then setter :: returned (setter.call time).2 calls
      else returned (setter.call time).2 calls

theorem runs_cons (time : DateTime) (setter : Setter) (calls : List Setter) :
    runs time (setter :: calls) = runs (setter.call time).2 calls := rfl

theorem runs_valid {time : DateTime} (valid : time.Valid) {calls : List Setter}
    (words : ∀ setter ∈ calls, setter.Words) : (runs time calls).Valid := by
  induction calls generalizing time with
  | nil => exact valid
  | cons setter calls inductionHypothesis =>
      obtain ⟨word, words⟩ := List.forall_mem_cons.mp words
      exact inductionHypothesis (contract valid setter word).valid words

/-- A call that throws may as well not have been made, and the others return without it. -/
theorem runs_returned {time : DateTime} (valid : time.Valid) {calls : List Setter}
    (words : ∀ setter ∈ calls, setter.Words) :
    runs time calls = runs time (returned time calls) ∧
      returned time (returned time calls) = returned time calls := by
  induction calls generalizing time with
  | nil => exact ⟨rfl, rfl⟩
  | cons setter calls inductionHypothesis =>
      obtain ⟨word, words⟩ := List.forall_mem_cons.mp words
      have promise := contract valid setter word
      obtain ⟨same, stable⟩ := inductionHypothesis promise.valid words
      rw [runs_cons, returned]
      by_cases returns : (setter.call time).1 = true
      · rw [if_pos returns, runs_cons, returned, if_pos returns, stable]
        exact ⟨same, rfl⟩
      · have kept := promise.throws (Bool.not_eq_true _ ▸ returns)
        rw [if_neg returns]
        rw [kept] at same stable ⊢
        exact ⟨same, stable⟩

/-- However a valid object is set, and whatever is thrown on the way: it stays valid, each call
keeps its promise on what it finds, and the calls that throw leave no trace. -/
theorem setters_contract {time : DateTime} (valid : time.Valid) {calls : List Setter}
    (words : ∀ setter ∈ calls, setter.Words) :
    (∀ before setter after, calls = before ++ setter :: after →
      (runs time before).Valid ∧
        Contract (runs time before) setter (setter.call (runs time before))) ∧
      runs time calls = runs time (returned time calls) ∧
      returned time (returned time calls) = returned time calls := by
  refine ⟨?_, runs_returned valid words⟩
  rintro before setter after rfl
  have validThen : (runs time before).Valid :=
    runs_valid valid fun earlier made => words earlier (List.mem_append_left _ made)
  exact ⟨validThen, contract validThen setter
    (words setter (List.mem_append_right _ List.mem_cons_self))⟩

/-- The last day of January, on which there is no February. -/
theorem setters_contract_january :
    runs ⟨2015, 1, 31, 8, 0, 0, 0⟩ [.setMonth 13, .setMonth 2, .setDayOfYear 366] =
      runs ⟨2015, 1, 31, 8, 0, 0, 0⟩
        (returned ⟨2015, 1, 31, 8, 0, 0, 0⟩ [.setMonth 13, .setMonth 2, .setDayOfYear 366]) :=
  (@setters_contract ⟨2015, 1, 31, 8, 0, 0, 0⟩
    ⟨by decide, by decide, by decide, by decide, by decide, by decide⟩ _
    (by simp [Words])).2.1

end Setter

end OperationFrontLine.Dates
