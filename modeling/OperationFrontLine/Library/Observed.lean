import Mathlib.Tactic

/-!
# Objects that answer calls

An object answers calls one after another.  A call without a defined effect ends the run.
An object whose states stay related to those of an abstract one, with the same result for
each call, cannot be told from it by its results.
-/

namespace OperationFrontLine.Library

universe u v w x

variable {State : Type u} {Model : Type v} {Call : Type w} {Result : Type x}

/-- The results of some calls, and the state behind the last one. -/
def answers (step : State → Call → Option (Result × State)) :
    State → List Call → Option (List Result × State)
  | state, [] => some ([], state)
  | state, call :: calls =>
      (step state call).bind fun answer =>
        (answers step answer.2 calls).map fun later => (answer.1 :: later.1, later.2)

def after (step : Model → Call → Result × Model) (model : Model) (calls : List Call) : Model :=
  calls.foldl (fun model call => (step model call).2) model

def results (step : Model → Call → Result × Model) : Model → List Call → List Result
  | _, [] => []
  | model, call :: calls => (step model call).1 :: results step (step model call).2 calls

@[simp]
theorem after_nil (step : Model → Call → Result × Model) (model : Model) :
    after step model [] = model := rfl

@[simp]
theorem after_cons (step : Model → Call → Result × Model) (model : Model) (call : Call)
    (calls : List Call) :
    after step model (call :: calls) = after step (step model call).2 calls := rfl

variable {step : State → Call → Option (Result × State)}

theorem answers_cons {state next : State} {call : Call} {result : Result}
    (stepped : step state call = some (result, next)) (calls : List Call) :
    answers step state (call :: calls) =
      (answers step next calls).map fun later => (result :: later.1, later.2) := by
  rw [answers, stepped]
  rfl

theorem answers_append (state : State) (first second : List Call) :
    answers step state (first ++ second) =
      (answers step state first).bind fun earlier =>
        (answers step earlier.2 second).map fun later => (earlier.1 ++ later.1, later.2) := by
  induction first generalizing state with
  | nil => simp [answers]
  | cons call first inductionHypothesis =>
      simp only [List.cons_append, answers]
      cases step state call with
      | none => rfl
      | some answer =>
          simp only [Option.bind_some, inductionHypothesis]
          cases answers step answer.2 first with
          | none => rfl
          | some earlier => simp [Function.comp_def]

theorem results_append (abstract : Model → Call → Result × Model) (model : Model)
    (first second : List Call) :
    results abstract model (first ++ second) =
      results abstract model first ++ results abstract (after abstract model first) second := by
  induction first generalizing model with
  | nil => rfl
  | cons call first inductionHypothesis =>
      rw [List.cons_append, results, inductionHypothesis]
      rfl

theorem answers_invariant (Inv : State → Prop)
    (keep : ∀ state call result next, Inv state → step state call = some (result, next) → Inv next)
    {state last : State} {calls : List Call} {given : List Result} (initial : Inv state)
    (answered : answers step state calls = some (given, last)) : Inv last := by
  induction calls generalizing state given with
  | nil =>
      cases answered
      exact initial
  | cons call calls inductionHypothesis =>
      obtain ⟨answer, stepped, rest⟩ := Option.bind_eq_some_iff.mp answered
      obtain ⟨later, answeredLater, same⟩ := Option.map_eq_some_iff.mp rest
      cases same
      exact inductionHypothesis (keep _ _ _ _ initial stepped) answeredLater

/-- Simulation: as long as the abstract object stays in the states where each call has the
same result on both sides, all results are the same. -/
theorem answers_of_simulation {abstract : Model → Call → Result × Model}
    (Related : State → Model → Prop) (Safe : Model → Prop)
    (keep : ∀ state model call, Related state model → Safe (abstract model call).2 →
      ∃ next, step state call = some ((abstract model call).1, next) ∧
        Related next (abstract model call).2)
    {state : State} {model : Model} (related : Related state model) {calls : List Call}
    (safe : ∀ before, before <+: calls → Safe (after abstract model before)) :
    ∃ last, answers step state calls = some (results abstract model calls, last) ∧
      Related last (after abstract model calls) := by
  induction calls generalizing state model with
  | nil => exact ⟨state, rfl, related⟩
  | cons call calls inductionHypothesis =>
      have here := safe [call] ⟨calls, rfl⟩
      obtain ⟨next, stepped, relatedNext⟩ := keep state model call related here
      obtain ⟨last, answered, relatedLast⟩ := inductionHypothesis relatedNext
        fun before isPrefix => safe (call :: before) ((List.prefix_cons_inj call).mpr isPrefix)
      refine ⟨last, ?_, relatedLast⟩
      rw [answers_cons stepped, answered]
      rfl

end OperationFrontLine.Library
