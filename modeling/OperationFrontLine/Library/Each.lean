import Mathlib.Tactic

/-!
# Loops over distinct keys

A loop runs over distinct keys, and each round changes only the part of the state that is
about its key.  What a round brings about for its key from what holds of it before the round
then holds for every key behind the loop.
-/

namespace OperationFrontLine.Library

universe u v

variable {State : Type u} {Key : Type v} {Kept : State → Prop} {Before After : Key → State → Prop}

/-- Behind a loop that may fail, `After` holds of the keys of the loop and of the keys of
which it held before. -/
theorem foldlM_each {step : State → Key → Option State}
    (treat : ∀ key state, Kept state → Before key state → ∃ next, step state key = some next ∧
      Kept next ∧ After key next ∧ ∀ other ≠ key,
        (Before other state → Before other next) ∧ (After other state → After other next))
    {keys : List Key} (distinct : keys.Nodup) {state : State} (kept : Kept state)
    (before : ∀ key ∈ keys, Before key state) :
    ∃ next, keys.foldlM step state = some next ∧ Kept next ∧
      (∀ key ∈ keys, After key next) ∧
      ∀ other ∉ keys, After other state → After other next := by
  induction keys generalizing state with
  | nil => exact ⟨state, rfl, kept, by simp, fun _ _ after => after⟩
  | cons key keys inductionHypothesis =>
      obtain ⟨fresh, distinct⟩ := List.nodup_cons.mp distinct
      obtain ⟨middle, stepped, middleKept, treated, others⟩ :=
        treat key state kept (before key (by simp))
      obtain ⟨next, rest, nextKept, all, outside⟩ := inductionHypothesis distinct middleKept
        fun other member => (others other (ne_of_mem_of_not_mem member fresh)).1
          (before other (by simp [member]))
      refine ⟨next, ?_, nextKept, ?_, ?_⟩
      · rw [List.foldlM_cons, stepped, Option.bind_eq_bind, Option.bind_some, rest]
      · intro other member
        rcases List.mem_cons.mp member with rfl | member
        · exact outside other fresh treated
        · exact all other member
      · intro other absent after
        rw [List.mem_cons, not_or] at absent
        exact outside other absent.2 ((others other absent.1).2 after)

theorem foldl_each {step : State → Key → State}
    (treat : ∀ key state next, Kept state → Before key state → step state key = next →
      Kept next ∧ After key next ∧ ∀ other ≠ key,
        (Before other state → Before other next) ∧ (After other state → After other next))
    {keys : List Key} (distinct : keys.Nodup) {state : State} (kept : Kept state)
    (before : ∀ key ∈ keys, Before key state) :
    Kept (keys.foldl step state) ∧ (∀ key ∈ keys, After key (keys.foldl step state)) ∧
      ∀ other ∉ keys, After other state → After other (keys.foldl step state) := by
  have loop : ∀ start : State, keys.foldlM (fun state key => some (step state key)) start =
      some (keys.foldl step start) := fun start => List.foldlM_pure
  have treats : ∀ key state, Kept state → Before key state → ∃ next,
      (fun state key => some (step state key)) state key = some next ∧ Kept next ∧
        After key next ∧ ∀ other ≠ key,
          (Before other state → Before other next) ∧ (After other state → After other next) :=
    fun key state kept before => ⟨_, rfl, treat key state _ kept before rfl⟩
  obtain ⟨next, folded, rest⟩ := foldlM_each treats distinct kept before
  rw [loop, Option.some.injEq] at folded
  exact folded ▸ rest

end OperationFrontLine.Library
