import Mathlib.Tactic

/-!
# Counters of 32 bits

The operators `++` and `--` of an `unsigned int`, on the natural numbers.
-/

namespace OperationFrontLine.Library

/-- `++` -/
def increment (value : ℕ) : ℕ := (value + 1) % 2 ^ 32

/-- `--` -/
def decrement (value : ℕ) : ℕ := (value + (2 ^ 32 - 1)) % 2 ^ 32

theorem increment_of_lt {value : ℕ} (room : value + 1 < 2 ^ 32) : increment value = value + 1 :=
  Nat.mod_eq_of_lt room

theorem increment_mod (value : ℕ) : increment (value % 2 ^ 32) = (value + 1) % 2 ^ 32 :=
  Nat.mod_add_mod value (2 ^ 32) 1

theorem decrement_mod {value : ℕ} (positive : 0 < value) :
    decrement (value % 2 ^ 32) = (value - 1) % 2 ^ 32 := by
  rw [decrement, Nat.mod_add_mod,
    show value + (2 ^ 32 - 1) = value - 1 + 2 ^ 32 by omega, Nat.add_mod_right]

theorem decrement_of_pos {value : ℕ} (positive : 0 < value) (bounded : value < 2 ^ 32) :
    decrement value = value - 1 := by
  have counted := decrement_mod positive
  rwa [Nat.mod_eq_of_lt bounded, Nat.mod_eq_of_lt (show value - 1 < 2 ^ 32 by omega)] at counted

end OperationFrontLine.Library
