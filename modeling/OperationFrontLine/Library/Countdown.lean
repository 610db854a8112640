import Mathlib.Tactic

/-!
# Countdowns

A counter starts at its period and looks at something again and again: a look may count it
down by one, set it back, or leave it alone.  What is left is the period without the looks
that counted since the last one that set it back, and when the looks are some time apart this
much time has gone by.
-/

namespace OperationFrontLine.Library

universe u

inductive CountMode where
  | hold
  | count
  | reset
  deriving DecidableEq, Repr

namespace CountMode

def advance (period remaining : ℚ) : CountMode → ℚ
  | hold => remaining
  | count => remaining - 1
  | reset => period

end CountMode

variable {Look : Type u} (mode : Look → CountMode)

/-- How many looks counted since the last one that set the counter back, newest first. -/
def counted : List Look → ℕ
  | [] => 0
  | look :: older =>
      match mode look with
      | .hold => counted older
      | .count => counted older + 1
      | .reset => 0

theorem advance_counted (period : ℚ) (look : Look) (older : List Look) :
    (mode look).advance period (period - counted mode older) =
      period - counted mode (look :: older) := by
  rw [counted]
  cases mode look with
  | hold => rfl
  | count =>
      simp only [CountMode.advance, Nat.cast_add, Nat.cast_one]
      ring
  | reset => simp [CountMode.advance]

/-- Looks with their times, newest first, each `gap` after the one before, and all at least
`gap` before `now`. -/
def Spaced (gap : ℚ) : ℚ → List (ℚ × Look) → Prop
  | _, [] => True
  | now, (time, _) :: older => time + gap ≤ now ∧ Spaced gap time older

namespace Spaced

variable {gap now : ℚ} {history : List (ℚ × Look)}

theorem mono (spaced : Spaced gap now history) {later : ℚ} (after : now ≤ later) :
    Spaced gap later history := by
  cases history with
  | nil => trivial
  | cons entry older => exact ⟨spaced.1.trans after, spaced.2⟩

theorem before_now (spaced : Spaced gap now history) (positive : 0 ≤ gap)
    {entry : ℚ × Look} (member : entry ∈ history) : entry.1 + gap ≤ now := by
  induction history generalizing now with
  | nil => cases member
  | cons newest older inductionHypothesis =>
      rcases List.mem_cons.mp member with rfl | inOlder
      · exact spaced.1
      · have earlier := inductionHypothesis spaced.2 inOlder
        exact earlier.trans (by linarith [spaced.1])

/-- Since a look that set the counter back, `gap` has gone by for every look that counted, and
once more until now. -/
theorem waited (spaced : Spaced gap now history) (positive : 0 ≤ gap) {entry : ℚ × Look}
    (member : entry ∈ history) (resets : mode entry.2 = .reset) :
    entry.1 + gap * (counted mode (history.map Prod.snd) + 1) ≤ now := by
  induction history generalizing now with
  | nil => cases member
  | cons newest older inductionHypothesis =>
      have whole := before_now spaced positive member
      rw [List.map_cons, counted]
      rcases List.mem_cons.mp member with rfl | inOlder
      · rw [resets]
        simpa using whole
      · have earlier := inductionHypothesis spaced.2 inOlder
        cases mode newest.2 with
        | hold => exact earlier.trans (by linarith [spaced.1])
        | count =>
            push_cast
            linarith [spaced.1]
        | reset => simpa using whole

end Spaced

end OperationFrontLine.Library
