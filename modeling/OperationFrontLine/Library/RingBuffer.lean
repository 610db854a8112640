import Mathlib.Tactic

/-!
# Ring buffers

A ring of `size` cells holds a queue in the `count` cells that start at `head`
and wrap around the end.  The cells are a function of their position; what an
array holds outside the window does not matter.
-/

namespace OperationFrontLine.Library

universe u

variable {Value : Type u}

/-- The values in the `count` cells from `head` on, in order. -/
def window (cell : Nat → Value) (size head count : Nat) : List Value :=
  (List.range count).map fun offset => cell ((head + offset) % size)

@[simp]
theorem window_zero (cell : Nat → Value) (size head : Nat) :
    window cell size head 0 = [] := rfl

@[simp]
theorem length_window (cell : Nat → Value) (size head count : Nat) :
    (window cell size head count).length = count := by
  simp [window]

/-- Two rings of any sizes hold the same queue exactly when the cells agree. -/
theorem window_eq_iff {cell other : Nat → Value} {size otherSize head otherHead count : Nat} :
    window cell size head count = window other otherSize otherHead count ↔
      ∀ offset < count,
        cell ((head + offset) % size) = other ((otherHead + offset) % otherSize) := by
  rw [window, window, List.map_inj_left]
  simp only [List.mem_range]

theorem window_congr {cell other : Nat → Value} {size otherSize head otherHead count : Nat}
    (agree : ∀ offset < count,
      cell ((head + offset) % size) = other ((otherHead + offset) % otherSize)) :
    window cell size head count = window other otherSize otherHead count :=
  window_eq_iff.mpr agree

theorem window_succ (cell : Nat → Value) (size head count : Nat) :
    window cell size head (count + 1) =
      window cell size head count ++ [cell ((head + count) % size)] := by
  simp [window, List.range_succ]

/-- The first value is the one at the head; the rest starts one cell later. -/
theorem window_head (cell : Nat → Value) {size head : Nat} (inside : head < size)
    (count : Nat) :
    window cell size head (count + 1) =
      cell head :: window cell size ((head + 1) % size) count := by
  simp only [window, List.range_succ_eq_map, List.map_cons, List.map_map, Nat.add_zero,
    Nat.mod_eq_of_lt inside]
  congr 1
  refine List.map_congr_left fun offset _ => ?_
  simp only [Function.comp, Nat.mod_add_mod]
  congr 2
  omega

/-- Positions at different offsets below the size are different cells. -/
theorem ring_position_ne {size head offset count : Nat} (before : offset < count)
    (room : count < size) : (head + offset) % size ≠ (head + count) % size := by
  intro same
  have equal : offset % size = count % size := Nat.ModEq.add_left_cancel' head same
  rw [Nat.mod_eq_of_lt (before.trans room), Nat.mod_eq_of_lt room] at equal
  omega

theorem window_write {cell written : Nat → Value} {size head count : Nat} {value : Value}
    (room : count < size) (stored : written ((head + count) % size) = value)
    (others : ∀ position, position ≠ (head + count) % size →
      written position = cell position) :
    window written size head (count + 1) = window cell size head count ++ [value] := by
  rw [window_succ, stored]
  congr 1
  exact window_congr fun offset before => others _ (ring_position_ne before room)

/-- One step forward on the ring, by comparison in place of a remainder. -/
theorem ring_next {size position : Nat} (inside : position < size) :
    (if position + 1 < size then position + 1 else 0) = (position + 1) % size := by
  split
  case isTrue below => exact (Nat.mod_eq_of_lt below).symm
  case isFalse above =>
    have last : position + 1 = size := by omega
    rw [last, Nat.mod_self]

end OperationFrontLine.Library
