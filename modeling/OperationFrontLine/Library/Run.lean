import Mathlib.Tactic

/-!
# Runs of a step function

A system is a partial step function: a label is enabled in a state when the
step returns a state.  Everything a scheduler, a network or a player may
choose is part of the label, so a theorem about every list of labels is a
theorem about every interleaving.
-/

namespace OperationFrontLine.Library

universe u v

variable {State : Type u} {Label : Type v}

/-- Take the labels in order; `none` as soon as one of them is not enabled. -/
def run (step : State → Label → Option State) (start : State)
    (labels : List Label) : Option State :=
  labels.foldlM step start

/-- Every step taken from `start` along the labels satisfies `Good`, which sees
the state before the step, the label and the state after it. -/
def Along (step : State → Label → Option State)
    (Good : State → Label → State → Prop) : State → List Label → Prop
  | _, [] => True
  | start, label :: labels =>
      ∀ next, step start label = some next →
        Good start label next ∧ Along step Good next labels

variable {step : State → Label → Option State}

@[simp]
theorem run_nil (start : State) : run step start [] = some start := rfl

theorem run_cons (start : State) (label : Label) (labels : List Label) :
    run step start (label :: labels) =
      (step start label).bind fun next => run step next labels := rfl

theorem run_append (start : State) (first second : List Label) :
    run step start (first ++ second) =
      (run step start first).bind fun middle => run step middle second := by
  simp [run, List.foldlM_append]

@[simp]
theorem along_nil (Good : State → Label → State → Prop) (start : State) :
    Along step Good start [] := trivial

theorem along_cons {Good : State → Label → State → Prop} {start : State}
    {label : Label} {labels : List Label} :
    Along step Good start (label :: labels) ↔
      ∀ next, step start label = some next →
        Good start label next ∧ Along step Good next labels := Iff.rfl

/-- Whether a condition is met along a run can be computed by taking the run. -/
instance Along.decidable {Good : State → Label → State → Prop}
    [∀ before label after, Decidable (Good before label after)] :
    ∀ (start : State) (labels : List Label), Decidable (Along step Good start labels)
  | _, [] => .isTrue trivial
  | start, label :: labels =>
      match stepped : step start label with
      | none => .isTrue fun next ended => absurd (stepped.symm.trans ended) (by simp)
      | some next =>
          have : Decidable (Along step Good next labels) := Along.decidable next labels
          decidable_of_iff (Good start label next ∧ Along step Good next labels)
            ⟨fun holds other ended => by
              cases stepped.symm.trans ended
              exact holds, fun holds => holds next stepped⟩

theorem run_invariant (Inv : State → Prop)
    (keep : ∀ before label after, Inv before →
      step before label = some after → Inv after)
    {start finish : State} {labels : List Label} (initial : Inv start)
    (ran : run step start labels = some finish) : Inv finish := by
  induction labels generalizing start with
  | nil =>
      cases ran
      exact initial
  | cons label labels inductionHypothesis =>
      rw [run_cons] at ran
      obtain ⟨next, stepped, rest⟩ := Option.bind_eq_some_iff.mp ran
      exact inductionHypothesis (keep _ _ _ initial stepped) rest

/-- A property kept by the steps that meet a condition holds wherever a run
of such steps ends. -/
theorem run_invariant_of_along (Inv : State → Prop)
    {Condition : State → Label → State → Prop}
    (keep : ∀ before label after, Inv before → Condition before label after →
      step before label = some after → Inv after)
    {start finish : State} {labels : List Label} (initial : Inv start)
    (met : Along step Condition start labels)
    (ran : run step start labels = some finish) : Inv finish := by
  induction labels generalizing start with
  | nil =>
      cases ran
      exact initial
  | cons label labels inductionHypothesis =>
      rw [run_cons] at ran
      obtain ⟨next, stepped, rest⟩ := Option.bind_eq_some_iff.mp ran
      have here := met next stepped
      exact inductionHypothesis (keep _ _ _ initial here.1 stepped) here.2 rest

/-- What every step that meets a condition does from an invariant state is done all
along a run of such steps. -/
theorem along_of_along (Inv : State → Prop) {Condition Good : State → Label → State → Prop}
    (keep : ∀ before label after, Inv before → Condition before label after →
      step before label = some after → Inv after ∧ Good before label after)
    {start : State} (initial : Inv start) {labels : List Label}
    (met : Along step Condition start labels) : Along step Good start labels := by
  induction labels generalizing start with
  | nil => trivial
  | cons label labels inductionHypothesis =>
      intro next stepped
      have here := met next stepped
      have kept := keep _ _ _ initial here.1 stepped
      exact ⟨kept.2, inductionHypothesis kept.1 here.2⟩

/-- A condition that every step with the labels of a run meets is met along it. -/
theorem along_of_forall_mem {Good : State → Label → State → Prop} {labels : List Label}
    (good : ∀ label ∈ labels, ∀ before after, step before label = some after →
      Good before label after) (start : State) : Along step Good start labels := by
  induction labels generalizing start with
  | nil => trivial
  | cons label labels inductionHypothesis =>
      intro next stepped
      refine ⟨good label (by simp) start next stepped, ?_⟩
      exact inductionHypothesis (fun other member => good other (by simp [member])) next

/-- What every step does from an invariant state is done all along a run. -/
theorem along_of_invariant (Inv : State → Prop)
    {Good : State → Label → State → Prop}
    (keep : ∀ before label after, Inv before →
      step before label = some after → Inv after ∧ Good before label after)
    {start : State} (initial : Inv start) (labels : List Label) :
    Along step Good start labels :=
  along_of_along Inv (fun before label after holds _ => keep before label after holds) initial
    (along_of_forall_mem (fun _ _ _ _ _ => trivial) start)

theorem Along.and {First Second : State → Label → State → Prop} {start : State}
    {labels : List Label} (first : Along step First start labels)
    (second : Along step Second start labels) :
    Along step (fun before label after =>
      First before label after ∧ Second before label after) start labels := by
  induction labels generalizing start with
  | nil => trivial
  | cons label labels inductionHypothesis =>
      intro next stepped
      have firstHere := first next stepped
      have secondHere := second next stepped
      exact ⟨⟨firstHere.1, secondHere.1⟩, inductionHypothesis firstHere.2 secondHere.2⟩

/-- When from every invariant state that is not done an allowed step leads to one of a lower
rank, allowed steps lead to one that is done. -/
theorem run_until (Inv Done : State → Prop) (Allowed : Label → Prop) (rank : State → ℕ)
    (progress : ∀ before, Inv before → ¬Done before → ∃ label after, Allowed label ∧
      step before label = some after ∧ Inv after ∧ rank after < rank before)
    {start : State} (initial : Inv start) :
    ∃ labels finish, (∀ label ∈ labels, Allowed label) ∧
      run step start labels = some finish ∧ Inv finish ∧ Done finish := by
  induction measured : rank start using Nat.strong_induction_on generalizing start with
  | _ bound inductionHypothesis =>
      by_cases done : Done start
      · exact ⟨[], start, List.forall_mem_nil _, rfl, initial, done⟩
      · obtain ⟨label, next, allowed, stepped, kept, lower⟩ := progress start initial done
        obtain ⟨labels, finish, rest, ran, reached⟩ :=
          inductionHypothesis (rank next) (measured ▸ lower) kept rfl
        refine ⟨label :: labels, finish, List.forall_mem_cons.mpr ⟨allowed, rest⟩, ?_, reached⟩
        rw [run_cons, stepped, Option.bind_some, ran]

/-- When every label that a run may use is enabled in every invariant state, the
run is complete and what its steps do is done all along it. -/
theorem run_along_of_enabled (Inv : State → Prop) {Allowed : Label → Prop}
    {Good : State → Label → State → Prop}
    (enabled : ∀ before label, Inv before → Allowed label →
      ∃ after, step before label = some after ∧ Inv after ∧ Good before label after)
    {start : State} (initial : Inv start) {labels : List Label}
    (allowed : ∀ label ∈ labels, Allowed label) :
    (∃ finish, run step start labels = some finish) ∧ Along step Good start labels := by
  induction labels generalizing start with
  | nil => exact ⟨⟨start, rfl⟩, trivial⟩
  | cons label labels inductionHypothesis =>
      obtain ⟨next, stepped, kept, good⟩ := enabled start label initial (allowed _ (by simp))
      obtain ⟨⟨finish, ran⟩, along⟩ :=
        inductionHypothesis kept fun other member => allowed other (by simp [member])
      refine ⟨⟨finish, by rw [run_cons, stepped, Option.bind_some, ran]⟩, ?_⟩
      intro other same
      rw [stepped, Option.some.injEq] at same
      exact same ▸ ⟨good, along⟩

theorem Along.mono {Good Better : State → Label → State → Prop}
    (implies : ∀ before label after, Good before label after →
      Better before label after)
    {start : State} {labels : List Label}
    (good : Along step Good start labels) : Along step Better start labels := by
  induction labels generalizing start with
  | nil => trivial
  | cons label labels inductionHypothesis =>
      intro next stepped
      have here := good next stepped
      exact ⟨implies _ _ _ here.1, inductionHypothesis here.2⟩

/-- What holds along a run holds along its first part, and along the rest from
where the first part ends. -/
theorem along_append {Good : State → Label → State → Prop} {start : State}
    {first second : List Label} :
    Along step Good start (first ++ second) ↔ Along step Good start first ∧
      ∀ middle, run step start first = some middle → Along step Good middle second := by
  induction first generalizing start with
  | nil => simp
  | cons label labels inductionHypothesis =>
      rw [List.cons_append, along_cons, along_cons]
      constructor
      · intro good
        refine ⟨fun next stepped => ?_, fun middle ended => ?_⟩
        · exact ⟨(good next stepped).1, (inductionHypothesis.mp (good next stepped).2).1⟩
        · rw [run_cons] at ended
          obtain ⟨next, stepped, rest⟩ := Option.bind_eq_some_iff.mp ended
          exact (inductionHypothesis.mp (good next stepped).2).2 middle rest
      · rintro ⟨good, later⟩ next stepped
        refine ⟨(good next stepped).1, inductionHypothesis.mpr ⟨(good next stepped).2, ?_⟩⟩
        intro middle rest
        exact later middle (by rw [run_cons, stepped, Option.bind_some, rest])

/-- If, from every invariant state, a step is good exactly when it meets the
condition, and the steps that meet it keep the invariant, then a run is good
all along exactly when all its steps meet the condition. -/
theorem along_iff_of_invariant (Inv : State → Prop)
    {Good Condition : State → Label → State → Prop}
    (keep : ∀ before label after, Inv before → Condition before label after →
      step before label = some after → Inv after)
    (exact_step : ∀ before label after, Inv before →
      step before label = some after →
        (Good before label after ↔ Condition before label after))
    {start : State} (initial : Inv start) (labels : List Label) :
    Along step Good start labels ↔ Along step Condition start labels := by
  induction labels generalizing start with
  | nil => simp
  | cons label labels inductionHypothesis =>
      rw [along_cons, along_cons]
      refine forall₂_congr fun next stepped => ?_
      rw [exact_step _ _ _ initial stepped]
      refine and_congr_right fun met => ?_
      exact inductionHypothesis (keep _ _ _ initial met stepped)

/-- A flag that is raised by the steps that break a condition, and by no others,
and never lowered, tells whether a run met the condition. -/
theorem along_iff_of_flag (Inv Flag : State → Prop)
    {Allowed Condition : State → Label → State → Prop}
    (keep : ∀ before label after, Inv before → Allowed before label after →
      step before label = some after → Inv after)
    (raised : ∀ before label after, Inv before → Allowed before label after →
      step before label = some after →
        (Flag after ↔ Flag before ∨ ¬Condition before label after))
    {start finish : State} {labels : List Label} (initial : Inv start) (lowered : ¬Flag start)
    (allowed : Along step Allowed start labels) (ran : run step start labels = some finish) :
    ¬Flag finish ↔ Along step Condition start labels := by
  have up : ∀ {start : State} {labels : List Label}, Inv start → Flag start →
      Along step Allowed start labels → run step start labels = some finish → Flag finish := by
    intro start labels initial up allowed ran
    have reached := run_invariant_of_along (fun state => Inv state ∧ Flag state)
      (fun before label after holds met stepped => ⟨keep before label after holds.1 met stepped,
        (raised before label after holds.1 met stepped).mpr (.inl holds.2)⟩)
      ⟨initial, up⟩ allowed ran
    exact reached.2
  induction labels generalizing start with
  | nil =>
      cases ran
      simpa using lowered
  | cons label labels inductionHypothesis =>
      rw [run_cons] at ran
      obtain ⟨next, stepped, rest⟩ := Option.bind_eq_some_iff.mp ran
      have here := allowed next stepped
      have kept := keep start label next initial here.1 stepped
      have flag := raised start label next initial here.1 stepped
      rw [along_cons]
      constructor
      · intro down other same
        rw [stepped, Option.some.injEq] at same
        subst same
        have still : ¬Flag next := fun raisedNow => down (up kept raisedNow here.2 rest)
        have met : Condition start label next := by
          by_contra broken
          exact still (flag.mpr (.inr broken))
        exact ⟨met, (inductionHypothesis kept still here.2 rest).mp down⟩
      · intro met
        have still : ¬Flag next := fun raisedNow =>
          (flag.mp raisedNow).elim lowered fun broken => broken (met next stepped).1
        exact (inductionHypothesis kept still here.2 rest).mpr (met next stepped).2

end OperationFrontLine.Library
