import Mathlib.Algebra.BigOperators.Intervals
import Mathlib.Algebra.Order.BigOperators.Group.Finset

/-!
# Consecutive periods

Time is divided into periods, each of some number of days.  A day is named by its period and by
its place in the period, counted from one, and numbered from the beginning of the first period.
-/

namespace OperationFrontLine.Library

variable (length : ℕ → ℕ) (first : ℕ)

def daysBefore (period : ℕ) : ℕ := ∑ earlier ∈ Finset.Ico first period, length earlier

variable {length first}

@[simp]
theorem daysBefore_first : daysBefore length first first = 0 := by simp [daysBefore]

theorem daysBefore_succ {period : ℕ} (started : first ≤ period) :
    daysBefore length first (period + 1) = daysBefore length first period + length period :=
  Finset.sum_Ico_succ_top started length

theorem daysBefore_mono {earlier later : ℕ} (le : earlier ≤ later) :
    daysBefore length first earlier ≤ daysBefore length first later :=
  Finset.sum_le_sum_of_subset (Finset.Ico_subset_Ico_right le)

theorem day_le_daysBefore {earlier later place : ℕ} (started : first ≤ earlier)
    (inside : place ≤ length earlier) (lt : earlier < later) :
    daysBefore length first earlier + place ≤ daysBefore length first later := by
  calc daysBefore length first earlier + place
      ≤ daysBefore length first earlier + length earlier := by omega
    _ = daysBefore length first (earlier + 1) := (daysBefore_succ started).symm
    _ ≤ daysBefore length first later := daysBefore_mono lt

theorem day_unique {earlier later place other : ℕ} (started : first ≤ earlier)
    (startedToo : first ≤ later) (inside : 1 ≤ place ∧ place ≤ length earlier)
    (insideToo : 1 ≤ other ∧ other ≤ length later)
    (same : daysBefore length first earlier + place = daysBefore length first later + other) :
    earlier = later ∧ place = other := by
  rcases lt_trichotomy earlier later with lt | rfl | gt
  · have bounded := day_le_daysBefore started inside.2 lt
    omega
  · exact ⟨rfl, by omega⟩
  · have bounded := day_le_daysBefore startedToo insideToo.2 gt
    omega

end OperationFrontLine.Library
