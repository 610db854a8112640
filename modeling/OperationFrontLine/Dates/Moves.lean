import OperationFrontLine.Dates.Duration

/-!
# Dates moved by durations

Any number of durations may be added to a date and subtracted from it.  Only their sum counts, as
long as no date on the way leaves the years of 32 bits.
-/

namespace OperationFrontLine.Dates

open OperationFrontLine.Library

/-- The milliseconds of a duration by its sign. -/
def DateTimeDuration.signed (dur : DateTimeDuration) : ℤ :=
  if dur.isNegative then -(dur.total : ℤ) else dur.total

def DateTimeDuration.opposite (dur : DateTimeDuration) : DateTimeDuration :=
  { dur.copy with isNegative := !dur.isNegative }

namespace DateTime

/-- `subtract` of a duration, which adds its opposite. -/
def subtractDuration (time : DateTime) (dur : DateTimeDuration) : Option DateTime :=
  time.addDuration dur.opposite

inductive Move where
  | add (dur : DateTimeDuration)
  | subtract (dur : DateTimeDuration)
  deriving DecidableEq, Repr

namespace Move

def dur : Move → DateTimeDuration
  | .add dur | .subtract dur => dur

def call (time : DateTime) : Move → Option DateTime
  | .add dur => time.addDuration dur
  | .subtract dur => time.subtractDuration dur

def signed : Move → ℤ
  | .add dur => dur.signed
  | .subtract dur => -dur.signed

def isBack : Move → Bool
  | .add dur => dur.isNegative
  | .subtract dur => !dur.isNegative

def moves (time : DateTime) (calls : List Move) : Option DateTime := calls.foldlM call time

def net (calls : List Move) : ℤ := (calls.map signed).sum

def InYears (number : ℤ) : Prop := 0 ≤ number ∧ number < lastDay * MS_PER_DAY

instance (number : ℤ) : Decidable (InYears number) := inferInstanceAs (Decidable (_ ∧ _))

/-- The durations are ones that a program can make, and those to the future leave room for the
days of a year. -/
structure Allowed (move : Move) : Prop where
  made : move.dur.Made
  room : move.isBack = false → move.dur.days + 366 < 2 ^ 32

structure Travels (time : DateTime) (calls : List Move) : Prop where
  valid : time.Valid
  allowed : ∀ move ∈ calls, Allowed move
  stays : ∀ before ∈ calls.inits, InYears (time.number + net before)

theorem addDuration_spec {time : DateTime} (valid : time.Valid) {dur : DateTimeDuration}
    (normal : dur.Normal) (room : dur.isNegative = false → dur.days + 366 < 2 ^ 32)
    (inYears : InYears (time.number + dur.signed)) :
    ∃ moved, time.addDuration dur = some moved ∧ moved.Valid ∧
      (moved.number : ℤ) = time.number + dur.signed := by
  obtain ⟨started, ends⟩ := inYears
  have hours := normal.hours
  have minutes := normal.minutes
  have seconds := normal.seconds
  have milliseconds := normal.milliseconds
  rw [addDuration]
  by_cases negative : dur.isNegative = true
  · rw [if_pos negative]
    rw [DateTimeDuration.signed, if_pos negative] at started ends ⊢
    have fits : dur.total ≤ time.number := by omega
    obtain ⟨moved, isMoved, movedValid, number⟩ := subtract_spec valid fits
    rw [← DateTimeDuration.total] at number
    exact ⟨moved, isMoved, movedValid, by omega⟩
  · rw [if_neg negative]
    rw [DateTimeDuration.signed, if_neg negative] at started ends ⊢
    have roomThen := room (by simpa using negative)
    have fits : time.Fits dur.days dur.hours dur.minutes dur.seconds dur.milliseconds := by
      have year : time.number + dur.total < lastDay * MS_PER_DAY := by exact_mod_cast ends
      refine ⟨fun moved added => ?_, year⟩
      rw [DateTimeDuration.total, amountOf_days] at year
      obtain ⟨smaller, isSmaller, smallerValid, smallerNumber⟩ := add_time valid 0
        (show dur.hours < 2 ^ 32 by omega) (show dur.minutes < 2 ^ 32 by omega)
        (show dur.seconds < 2 ^ 32 by omega) (show dur.milliseconds < 2 ^ 32 by omega) (by omega)
      obtain ⟨same, isSame, sameValid, -⟩ :=
        adds_days 0 (by decide) smaller smallerValid (by omega)
      obtain rfl := Option.some.inj ((isSmaller.trans isSame).symm.trans added)
      have short := sameValid.dayOfYear_le.trans (daysInYear_le _)
      omega
    obtain ⟨moved, isMoved, movedValid, number⟩ :=
      add_spec valid (by omega) (by omega) (by omega) (by omega) fits
    rw [← DateTimeDuration.total] at number
    exact ⟨moved, isMoved, movedValid, by omega⟩

theorem signed_opposite {dur : DateTimeDuration} (made : dur.Made) :
    dur.opposite.signed = -dur.signed := by
  rw [DateTimeDuration.opposite, made.normal.copy]
  cases negative : dur.isNegative <;>
    simp [DateTimeDuration.signed, DateTimeDuration.total, negative]

theorem call_spec {time : DateTime} (valid : time.Valid) {move : Move} (allowed : Allowed move)
    (inYears : InYears (time.number + move.signed)) :
    ∃ moved, move.call time = some moved ∧ moved.Valid ∧
      (moved.number : ℤ) = time.number + move.signed := by
  have normal := allowed.made.normal
  cases move with
  | add dur => exact addDuration_spec valid normal allowed.room inYears
  | subtract dur =>
      have made : dur.Made := allowed.made
      rw [signed, ← signed_opposite made] at inYears ⊢
      have same : dur.opposite = { dur with isNegative := !dur.isNegative } := by
        rw [DateTimeDuration.opposite, made.normal.copy]
      rw [call, subtractDuration]
      rw [same] at inYears ⊢
      exact addDuration_spec valid
        ⟨normal.days, normal.hours, normal.minutes, normal.seconds, normal.milliseconds⟩
        allowed.room inYears

theorem net_cons (move : Move) (calls : List Move) :
    net (move :: calls) = move.signed + net calls := by
  rw [net, List.map_cons, List.sum_cons, ← net]

theorem moves_spec {time : DateTime} {calls : List Move} (travels : Travels time calls) :
    ∃ moved, moves time calls = some moved ∧ moved.Valid ∧
      (moved.number : ℤ) = time.number + net calls := by
  induction calls generalizing time with
  | nil => exact ⟨time, rfl, travels.valid, (Int.add_zero _).symm⟩
  | cons move calls inductionHypothesis =>
      obtain ⟨allowed, rest⟩ := List.forall_mem_cons.mp travels.allowed
      have first : InYears (time.number + move.signed) := by
        have alone := travels.stays [move] (by simp)
        rwa [net_cons, net, List.map_nil, List.sum_nil, Int.add_zero] at alone
      obtain ⟨between, isBetween, betweenValid, betweenNumber⟩ :=
        call_spec travels.valid allowed first
      have onwards : Travels between calls := by
        refine ⟨betweenValid, rest, fun before isBefore => ?_⟩
        have inYears := travels.stays (move :: before) (by simpa using isBefore)
        rwa [net_cons, ← Int.add_assoc, ← betweenNumber] at inYears
      obtain ⟨moved, isMoved, movedValid, number⟩ := inductionHypothesis onwards
      refine ⟨moved, ?_, movedValid, by rw [number, betweenNumber, net_cons, Int.add_assoc]⟩
      rw [moves, List.foldlM_cons, isBetween]
      exact isMoved

theorem compare_lt_iff {time other : DateTime} (valid : time.Valid) (validToo : other.Valid) :
    compare time other = .lt ↔ time.number < other.number := by
  rw [← compare_swap, compare_gt_iff validToo valid]

theorem compare_eq_iff_number {time other : DateTime} (valid : time.Valid)
    (validToo : other.Valid) : compare time other = .eq ↔ time.number = other.number := by
  rw [compare_eq_iff]
  exact ⟨fun same => same ▸ rfl, valid.ext_number validToo⟩

/-- Only the sum counts: two dates that are moved in any steps are in the order of their numbers
and these sums, and are the same object where the two agree. -/
theorem moves_net {time other : DateTime} {calls callsToo : List Move}
    (travels : Travels time calls) (travelsToo : Travels other callsToo) :
    ∃ moved movedToo, moves time calls = some moved ∧ moves other callsToo = some movedToo ∧
      moved.Valid ∧ movedToo.Valid ∧
      (compare moved movedToo = .lt ↔ time.number + net calls < other.number + net callsToo) ∧
      (moved = movedToo ↔ time.number + net calls = other.number + net callsToo) ∧
      (compare moved movedToo = .gt ↔ other.number + net callsToo < time.number + net calls) := by
  obtain ⟨moved, isMoved, movedValid, number⟩ := moves_spec travels
  obtain ⟨movedToo, isMovedToo, movedValidToo, numberToo⟩ := moves_spec travelsToo
  refine ⟨moved, movedToo, isMoved, isMovedToo, movedValid, movedValidToo, ?_, ?_, ?_⟩
  · rw [compare_lt_iff movedValid movedValidToo, ← number, ← numberToo, Int.ofNat_lt]
  · rw [← compare_eq_iff, compare_eq_iff_number movedValid movedValidToo, ← number, ← numberToo,
      Int.natCast_inj]
  · rw [compare_gt_iff movedValid movedValidToo, ← number, ← numberToo, Int.ofNat_lt]

/-- A day and a half forth and half a day back. -/
theorem moves_net_newYear :
    moves newYear [.add (.setDateTimeDuration 0 36 0 0 0 false),
      .subtract (.setDateTimeDuration 0 12 0 0 0 false)] =
      moves newYear [.subtract (.setDateTimeDuration 1 0 0 0 0 true)] := by
  have forth : Travels newYear [.add (.setDateTimeDuration 0 36 0 0 0 false),
      .subtract (.setDateTimeDuration 0 12 0 0 0 false)] := by
    refine ⟨newYear_valid, ?_, by decide +kernel⟩
    refine List.forall_mem_cons.mpr ⟨⟨.constructor _ _ _ _ _ _ (by decide), by decide +kernel⟩, ?_⟩
    refine List.forall_mem_singleton.mpr ⟨.constructor _ _ _ _ _ _ (by decide), ?_⟩
    decide +kernel
  have once : Travels newYear [.subtract (.setDateTimeDuration 1 0 0 0 0 true)] := by
    refine ⟨newYear_valid, ?_, by decide +kernel⟩
    exact List.forall_mem_singleton.mpr
      ⟨.constructor _ _ _ _ _ _ (by decide), by decide +kernel⟩
  obtain ⟨moved, movedToo, isMoved, isMovedToo, -, -, -, same, -⟩ := moves_net forth once
  rw [isMoved, isMovedToo, same.mpr (by decide +kernel)]

end Move

end DateTime

end OperationFrontLine.Dates
