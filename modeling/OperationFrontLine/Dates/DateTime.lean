import OperationFrontLine.Library.Periods
import OperationFrontLine.Library.Unsigned
import Mathlib.Tactic

/-!
# Dates

`DateTime` keeps a date and a time of day in seven unsigned numbers.  Its setters refuse numbers
outside their ranges with an exception, which is `none` here; the setters of the year and the
month put a day that does not exist back to the first one.
-/

namespace OperationFrontLine.Dates

open OperationFrontLine.Library

structure DateTime where
  year : ℕ
  month : ℕ
  day : ℕ
  hour : ℕ
  minute : ℕ
  second : ℕ
  millisecond : ℕ
  deriving DecidableEq, Repr

namespace DateTime

def MONTH_LENGTHS : List ℕ := [31, 28, 31, 30, 31, 30, 31, 31, 30, 31, 30, 31]

def isLeapYear (year : ℕ) : Bool :=
  (year % 4 = 0 && year % 100 ≠ 0) || year % 400 = 0

def daysInYear (year : ℕ) : ℕ := if isLeapYear year then 366 else 365

def daysInMonth (year month : ℕ) : ℕ :=
  MONTH_LENGTHS.getD (month - 1) 0 + if month = 2 ∧ isLeapYear year then 1 else 0

def validDate (year month day : ℕ) : Bool :=
  if year = 0 ∨ month = 0 ∨ day = 0 then false
  else if month > 12 then false
  else day ≤ daysInMonth year month

def setDateTime (year month day hour minute second millisecond : ℕ) : Option DateTime :=
  if !validDate year month day ∨ hour ≥ 24 ∨ minute ≥ 60 ∨ second ≥ 60 ∨ millisecond ≥ 1000 then
    none
  else some ⟨year, month, day, hour, minute, second, millisecond⟩

def getDayOfYear (year month day : ℕ) : ℕ :=
  (∑ earlier ∈ Finset.Ico 1 month, daysInMonth year earlier) + day

/-- The loop of `getReverseDayOfYear`, with the number of months that it may still pass. -/
def reverseLoop (year : ℕ) : ℕ → ℕ → ℕ → ℕ × ℕ
  | 0, month, dayOfYear => (month, dayOfYear)
  | months + 1, month, dayOfYear =>
      if daysInMonth year month ≥ dayOfYear then (month, dayOfYear)
      else reverseLoop year months (month + 1) (dayOfYear - daysInMonth year month)

def getReverseDayOfYear (year dayOfYear : ℕ) : Option DateTime :=
  let found := reverseLoop year 11 1 dayOfYear
  setDateTime year found.1 found.2 0 0 0 0

def dayOfYear (time : DateTime) : ℕ := getDayOfYear time.year time.month time.day

/-! ## Setters -/

def setYear (time : DateTime) (year : ℕ) : Option DateTime :=
  if year = 0 then none
  else if validDate year time.month time.day then some { time with year := year }
  else some { time with year := year, month := 1, day := 1 }

def setMonth (time : DateTime) (month : ℕ) : Option DateTime :=
  if month = 0 ∨ month > 12 then none
  else if time.day > daysInMonth time.year month then
    some { time with month := month, day := 1 }
  else some { time with month := month }

def setDay (time : DateTime) (day : ℕ) : Option DateTime :=
  if day = 0 ∨ day > daysInMonth time.year time.month then none
  else some { time with day := day }

def setDayOfYear (time : DateTime) (dayOfYear : ℕ) : Option DateTime := do
  let newDate ← getReverseDayOfYear time.year dayOfYear
  let moved ← time.setMonth newDate.month
  moved.setDay newDate.day

def setHour (time : DateTime) (hour : ℕ) : Option DateTime :=
  if hour ≥ 24 then none else some { time with hour := hour }

def setMinute (time : DateTime) (minute : ℕ) : Option DateTime :=
  if minute ≥ 60 then none else some { time with minute := minute }

def setSecond (time : DateTime) (second : ℕ) : Option DateTime :=
  if second ≥ 60 then none else some { time with second := second }

def setMillisecond (time : DateTime) (millisecond : ℕ) : Option DateTime :=
  if millisecond ≥ 1000 then none else some { time with millisecond := millisecond }

/-! ## Adding and subtracting -/

/-- The loop of `subtractDays`; `none` when it has not ended after this number of rounds. -/
def subtractLoop : ℕ → ℕ → ℕ → ℕ → Option (ℕ × ℕ)
  | 0, _, _, _ => none
  | rounds + 1, days, year, dayOfYear =>
      if days > 0 then
        if dayOfYear > days then subtractLoop rounds 0 year (dayOfYear - days)
        else subtractLoop rounds (days - dayOfYear) (decrement year)
          (daysInYear (decrement year))
      else some (year, dayOfYear)

def subtractDays (days : ℕ) (time : DateTime) : Option DateTime := do
  let (year, dayOfYear) ← subtractLoop (days + 1) days time.year time.dayOfYear
  let moved ← time.setYear year
  moved.setDayOfYear dayOfYear

/-- The loop of `addDays`; `none` when it has not ended after this number of rounds. -/
def addLoop : ℕ → ℕ → ℕ → Option (ℕ × ℕ)
  | 0, _, _ => none
  | rounds + 1, year, dayOfYear =>
      if dayOfYear > daysInYear year then
        addLoop rounds (increment year) (dayOfYear - daysInYear year)
      else some (year, dayOfYear)

def addDays (days : ℕ) (time : DateTime) : Option DateTime := do
  let sum := (time.dayOfYear + days) % 2 ^ 32
  let (year, dayOfYear) ← addLoop (sum + 1) time.year sum
  let moved ← time.setYear year
  moved.setDayOfYear dayOfYear

/-- Subtract from a field below this base, and what it does not have from the next larger
unit. -/
def subtractUnit (base : ℕ) (field : DateTime → ℕ)
    (subtractLarger : ℕ → DateTime → Option DateTime)
    (set : DateTime → ℕ → Option DateTime) (amount : ℕ) (time : DateTime) : Option DateTime := do
  let current := field time
  let larger := amount / base
  let smaller := amount % base
  let (larger, value) :=
    if smaller > current then (larger + 1, base - (smaller - current))
    else (larger, current - smaller)
  let carried ← (if larger > 0 then subtractLarger larger time else some time)
  set carried value

/-- Add to a field below this base, and what it does not hold to the next larger unit. -/
def addUnit (base : ℕ) (field : DateTime → ℕ)
    (addLarger : ℕ → DateTime → Option DateTime)
    (set : DateTime → ℕ → Option DateTime) (amount : ℕ) (time : DateTime) : Option DateTime := do
  let current := field time
  let larger := amount / base
  let smaller := amount % base
  let (larger, value) :=
    if smaller + current ≥ base then (larger + 1, (smaller + current) % base)
    else (larger, smaller + current)
  let carried ← (if larger > 0 then addLarger larger time else some time)
  set carried value

def subtractHours : ℕ → DateTime → Option DateTime := subtractUnit 24 hour subtractDays setHour

def addHours : ℕ → DateTime → Option DateTime := addUnit 24 hour addDays setHour

def subtractMinutes : ℕ → DateTime → Option DateTime :=
  subtractUnit 60 minute subtractHours setMinute

def addMinutes : ℕ → DateTime → Option DateTime := addUnit 60 minute addHours setMinute

def subtractSeconds : ℕ → DateTime → Option DateTime :=
  subtractUnit 60 second subtractMinutes setSecond

def addSeconds : ℕ → DateTime → Option DateTime := addUnit 60 second addMinutes setSecond

def subtractMilliseconds : ℕ → DateTime → Option DateTime :=
  subtractUnit 1000 millisecond subtractSeconds setMillisecond

def addMilliseconds : ℕ → DateTime → Option DateTime :=
  addUnit 1000 millisecond addSeconds setMillisecond

def subtract (time : DateTime) (days hours minutes seconds milliseconds : ℕ) :
    Option DateTime := do
  let time ← subtractMilliseconds milliseconds time
  let time ← subtractSeconds seconds time
  let time ← subtractMinutes minutes time
  let time ← subtractHours hours time
  subtractDays days time

def add (time : DateTime) (days hours minutes seconds milliseconds : ℕ) : Option DateTime := do
  let time ← addMilliseconds milliseconds time
  let time ← addSeconds seconds time
  let time ← addMinutes minutes time
  let time ← addHours hours time
  addDays days time

/-- `compare`, whose results -1, 0 and 1 are an order. -/
def compare (time rhs : DateTime) : Ordering :=
  (Ord.compare time.year rhs.year).then <|
  (Ord.compare time.month rhs.month).then <|
  (Ord.compare time.day rhs.day).then <|
  (Ord.compare time.hour rhs.hour).then <|
  (Ord.compare time.minute rhs.minute).then <|
  (Ord.compare time.second rhs.second).then <|
  Ord.compare time.millisecond rhs.millisecond

end DateTime

end OperationFrontLine.Dates
