import Mathlib.Data.Nat.Count
import Mathlib.Data.Finset.Card
import Mathlib.Tactic

/-!
# Walking round a cycle

The places of a cycle are reached by turning from a start, and are named by the number of turns.
A walk goes from each marked place to the next one; it passes every marked place of the cycle
once, and comes back to its start.
-/

namespace OperationFrontLine.Library

variable {mark : ℕ → Prop}

structure IsNext (mark : ℕ → Prop) (number next : ℕ) : Prop where
  lt : number < next
  marked : mark next
  least : ∀ between, number < between → between < next → ¬mark between

theorem IsNext.unique {number next other : ℕ} (isNext : IsNext mark number next)
    (isNextToo : IsNext mark number other) : next = other := by
  rcases lt_trichotomy next other with before | same | after
  · exact absurd isNext.marked (isNextToo.least next isNext.lt before)
  · exact same
  · exact absurd isNextToo.marked (isNext.least other isNextToo.lt after)

theorem IsNext.count [DecidablePred mark] {number next : ℕ} (isNext : IsNext mark number next)
    (isMarked : mark number) : Nat.count mark next = Nat.count mark number + 1 := by
  obtain ⟨between, rfl⟩ : ∃ between, next = number + 1 + between :=
    ⟨next - (number + 1), by have lt := isNext.lt; omega⟩
  have first : Nat.count mark (number + 1) = Nat.count mark number + 1 :=
    Nat.count_succ_eq_succ_count_iff.mpr isMarked
  have none : Nat.count (fun place => mark (number + 1 + place)) between = 0 := by
    rw [Nat.count_iff_forall_not]
    exact fun place lt => isNext.least _ (by omega) (by omega)
  rw [Nat.count_add, none, first, Nat.add_zero]

structure IsWalk (mark : ℕ → Prop) (walk : ℕ → ℕ) : Prop where
  start : walk 0 = 0
  marked : mark 0
  next : ∀ step, IsNext mark (walk step) (walk (step + 1))

namespace IsWalk

variable {walk : ℕ → ℕ}

theorem marked_walk (isWalk : IsWalk mark walk) (step : ℕ) : mark (walk step) := by
  cases step with
  | zero =>
      rw [isWalk.start]
      exact isWalk.marked
  | succ step => exact (isWalk.next step).marked

variable [DecidablePred mark]

theorem count_walk (isWalk : IsWalk mark walk) (step : ℕ) : Nat.count mark (walk step) = step := by
  induction step with
  | zero => rw [isWalk.start, Nat.count_zero]
  | succ step inductionHypothesis =>
      rw [(isWalk.next step).count (isWalk.marked_walk step), inductionHypothesis]

theorem walk_count (isWalk : IsWalk mark walk) {number : ℕ} (isMarked : mark number) :
    walk (Nat.count mark number) = number :=
  Nat.count_injective (isWalk.marked_walk _) isMarked (isWalk.count_walk _)

/-- The walk passes the marked numbers below a marked number, each once. -/
theorem perm_filter (isWalk : IsWalk mark walk) (size : ℕ) :
    ((List.range (Nat.count mark size)).map walk).Perm
      ((List.range size).filter fun number => mark number) := by
  have injective : Function.Injective walk := fun first second same => by
    rw [← isWalk.count_walk first, same, isWalk.count_walk]
  refine (List.perm_ext_iff_of_nodup (List.nodup_range.map injective)
    (List.nodup_range.filter _)).mpr fun number => ?_
  simp only [List.mem_map, List.mem_range, List.mem_filter, decide_eq_true_eq]
  constructor
  · rintro ⟨step, lt, rfl⟩
    exact ⟨Nat.lt_of_count_lt_count (by rwa [isWalk.count_walk]), isWalk.marked_walk step⟩
  · rintro ⟨lt, isMarked⟩
    exact ⟨Nat.count mark number, Nat.count_strict_mono isMarked lt, isWalk.walk_count isMarked⟩

end IsWalk

/-! ## Turning -/

def turnRight (size place : ℕ) : ℕ := if place + 1 ≥ size then 0 else place + 1

def turnLeft (size place : ℕ) : ℕ := if place < 1 then size - 1 else place - 1

/-- Turning goes once through all places of the cycle. -/
structure IsTurn (size : ℕ) (turn : ℕ → ℕ) : Prop where
  lt : ∀ place < size, turn place < size
  returns : ∀ place < size, turn^[size] place = place
  covers : ∀ place < size, ((List.range size).map fun turns => turn^[turns] place).Perm
    (List.range size)

theorem perm_range_of_injOn {size : ℕ} {place : ℕ → ℕ} (lt : ∀ number < size, place number < size)
    (injective : ∀ first < size, ∀ second < size, place first = place second → first = second) :
    ((List.range size).map place).Perm (List.range size) := by
  have distinct : ((List.range size).map place).Nodup :=
    List.Nodup.map_on (fun first firstIn second secondIn same =>
      injective first (List.mem_range.mp firstIn) second (List.mem_range.mp secondIn) same)
      List.nodup_range
  have within : (List.range size).map place ⊆ List.range size := by
    intro number member
    obtain ⟨source, sourceIn, rfl⟩ := List.mem_map.mp member
    exact List.mem_range.mpr (lt source (List.mem_range.mp sourceIn))
  exact (List.subperm_of_subset distinct within).perm_of_length_le (by simp)

theorem isTurn_right (size : ℕ) : IsTurn size (turnRight size) := by
  have formula : ∀ place < size, ∀ turns ≤ size, (turnRight size)^[turns] place =
      if place + turns < size then place + turns else place + turns - size := by
    intro place lt turns
    induction turns with
    | zero => simp [lt]
    | succ turns inductionHypothesis =>
        intro le
        rw [Function.iterate_succ_apply', inductionHypothesis (by omega), turnRight]
        split_ifs <;> omega
  refine ⟨fun place lt => ?_, fun place lt => ?_, fun place lt => perm_range_of_injOn ?_ ?_⟩
  · rw [turnRight]
    split_ifs <;> omega
  · rw [formula place lt size le_rfl]
    split_ifs <;> omega
  · intro turns turnsLt
    rw [formula place lt turns turnsLt.le]
    split_ifs <;> omega
  · intro first firstLt second secondLt same
    simp only [formula place lt first firstLt.le, formula place lt second secondLt.le] at same
    split_ifs at same <;> omega

theorem isTurn_left (size : ℕ) : IsTurn size (turnLeft size) := by
  have formula : ∀ place < size, ∀ turns ≤ size, (turnLeft size)^[turns] place =
      if turns ≤ place then place - turns else place + size - turns := by
    intro place lt turns
    induction turns with
    | zero => simp
    | succ turns inductionHypothesis =>
        intro le
        rw [Function.iterate_succ_apply', inductionHypothesis (by omega), turnLeft]
        split_ifs <;> omega
  refine ⟨fun place lt => ?_, fun place lt => ?_, fun place lt => perm_range_of_injOn ?_ ?_⟩
  · rw [turnLeft]
    split_ifs <;> omega
  · rw [formula place lt size le_rfl]
    split_ifs <;> omega
  · intro turns turnsLt
    rw [formula place lt turns turnsLt.le]
    split_ifs <;> omega
  · intro first firstLt second secondLt same
    simp only [formula place lt first firstLt.le, formula place lt second secondLt.le] at same
    split_ifs at same <;> omega

end OperationFrontLine.Library
