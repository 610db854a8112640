import Mathlib.Data.List.Basic
import Mathlib.Tactic

/-!
# Scripts over a state

A script changes a state in place and either comes to its end or is stopped by
an error, in which case what it has done so far stays done.  With the array
commands that such scripts use on lists.
-/

namespace OperationFrontLine.Library

universe u v

/-- How a script ended, with the state it left. -/
inductive Outcome (State : Type u) where
  | finished (state : State)
  | stopped (state : State)
  deriving Repr

namespace Outcome

variable {State : Type u} {Element : Type v}

def state : Outcome State → State
  | finished state => state
  | stopped state => state

def andThen : Outcome State → (State → Outcome State) → Outcome State
  | finished state, next => next state
  | stopped state, _ => stopped state

@[simp]
theorem state_finished (state : State) : (finished state).state = state := rfl

@[simp]
theorem state_stopped (state : State) : (stopped state).state = state := rfl

@[simp]
theorem finished_andThen (state : State) (next : State → Outcome State) :
    (finished state).andThen next = next state := rfl

@[simp]
theorem stopped_andThen (state : State) (next : State → Outcome State) :
    (stopped state).andThen next = stopped state := rfl

/-- What holds after the first script carries over if it is stopped, and to the
end of the second script if it is not. -/
theorem andThen_of_state {First Last : State → Prop} {outcome : Outcome State}
    {next : State → Outcome State} (first : First outcome.state)
    (kept : ∀ state, First state → Last state)
    (second : ∀ state, First state → Last (next state).state) :
    Last (outcome.andThen next).state := by
  cases outcome with
  | finished state => exact second state first
  | stopped state => exact kept state first

/-- What both scripts preserve holds after the first followed by the second. -/
theorem andThen_invariant (Inv : State → Prop) {outcome : Outcome State}
    {next : State → Outcome State} (first : Inv outcome.state)
    (second : ∀ state, Inv state → Inv (next state).state) :
    Inv (outcome.andThen next).state :=
  andThen_of_state first (fun _ holds => holds) second

end Outcome

section Loops

variable {State : Type u} {Element : Type v}

/-- A `while` in a script that is not scheduled is left after this number of rounds. -/
def unscheduledRounds : ℕ := 10000

/-- The loop `{ ... } forEach elements`. -/
def forEach (script : Element → State → Outcome State) :
    List Element → State → Outcome State
  | [], state => .finished state
  | element :: rest, state => (script element state).andThen (forEach script rest)

@[simp]
theorem forEach_nil (script : Element → State → Outcome State) (state : State) :
    forEach script [] state = .finished state := rfl

theorem forEach_cons (script : Element → State → Outcome State) (element : Element)
    (rest : List Element) (state : State) :
    forEach script (element :: rest) state =
      (script element state).andThen (forEach script rest) := rfl

/-- A property that the body preserves holds after the loop, however it ends. -/
theorem forEach_invariant (Inv : State → Prop)
    {script : Element → State → Outcome State} {elements : List Element}
    (keep : ∀ element ∈ elements, ∀ state, Inv state → Inv (script element state).state)
    {state : State} (initial : Inv state) :
    Inv (forEach script elements state).state := by
  induction elements generalizing state with
  | nil => exact initial
  | cons element rest inductionHypothesis =>
      rw [forEach_cons]
      refine Outcome.andThen_invariant Inv (keep element (by simp) state initial) ?_
      intro middle kept
      exact inductionHypothesis (fun other member => keep other (by simp [member])) kept

/-- If the body always comes to its end from states with the property, and
preserves it, then so does the loop. -/
theorem forEach_finished (Inv : State → Prop)
    {script : Element → State → Outcome State} {elements : List Element}
    (keep : ∀ element ∈ elements, ∀ state, Inv state →
      ∃ after, script element state = .finished after ∧ Inv after)
    {state : State} (initial : Inv state) :
    ∃ after, forEach script elements state = .finished after ∧ Inv after := by
  induction elements generalizing state with
  | nil => exact ⟨state, rfl, initial⟩
  | cons element rest inductionHypothesis =>
      obtain ⟨middle, ended, kept⟩ := keep element (by simp) state initial
      rw [forEach_cons, ended, Outcome.finished_andThen]
      exact inductionHypothesis (fun other member => keep other (by simp [member])) kept

private theorem forEach_zipIdx_from (Inv : ℕ → State → Prop)
    {script : Element × ℕ → State → Outcome State} (elements : List Element) (start : ℕ)
    (keep : ∀ index element, elements[index]? = some element →
      ∀ state, Inv (start + index) state →
        ∃ after, script (element, start + index) state = .finished after ∧
          Inv (start + index + 1) after)
    {state : State} (initial : Inv start state) :
    ∃ after, forEach script (elements.zipIdx start) state = .finished after ∧
      Inv (start + elements.length) after := by
  induction elements generalizing start state with
  | nil => exact ⟨state, rfl, initial⟩
  | cons element rest inductionHypothesis =>
      obtain ⟨middle, ended, kept⟩ := keep 0 element (by simp) state initial
      rw [List.zipIdx_cons, forEach_cons, show (element, start) = (element, start + 0) from rfl,
        ended, Outcome.finished_andThen]
      obtain ⟨after, rested, holds⟩ :=
        inductionHypothesis (start + 1) (fun index other found middle held => by
          have shifted : start + 1 + index = start + (index + 1) := by omega
          rw [shifted] at held ⊢
          exact keep (index + 1) other (by simpa using found) middle held) kept
      have shifted : start + (element :: rest).length = start + 1 + rest.length := by
        rw [List.length_cons]
        omega
      exact ⟨after, rested, shifted ▸ holds⟩

/-- The rule for a loop that knows its index: the invariant counts the elements
that are done. -/
theorem forEach_zipIdx_finished (Inv : ℕ → State → Prop)
    {script : Element × ℕ → State → Outcome State} {elements : List Element}
    (keep : ∀ index element, elements[index]? = some element →
      ∀ state, Inv index state →
        ∃ after, script (element, index) state = .finished after ∧ Inv (index + 1) after)
    {state : State} (initial : Inv 0 state) :
    ∃ after, forEach script elements.zipIdx state = .finished after ∧
      Inv elements.length after := by
  have ran := @forEach_zipIdx_from State Element Inv script elements 0
  simp only [Nat.zero_add] at ran
  exact ran keep initial

end Loops

section Arrays

variable {Element : Type v}

/-- `elements deleteAt index`: an index outside the array deletes nothing. -/
def deleteAt (elements : List Element) (index : ℤ) : List Element :=
  if 0 ≤ index then elements.eraseIdx index.toNat else elements

@[simp]
theorem deleteAt_natCast (elements : List Element) (index : ℕ) :
    deleteAt elements index = elements.eraseIdx index := by
  simp [deleteAt]

variable [DecidableEq Element]

/-- `elements pushBackUnique element`: the array afterwards. -/
def pushBackUnique (elements : List Element) (element : Element) : List Element :=
  if element ∈ elements then elements else elements ++ [element]

/-- The value of `elements pushBackUnique element`: the index of the new
element, or -1 when the array had it already. -/
def pushBackUniqueIndex (elements : List Element) (element : Element) : ℤ :=
  if element ∈ elements then -1 else elements.length

@[simp]
theorem mem_pushBackUnique {elements : List Element} {element other : Element} :
    other ∈ pushBackUnique elements element ↔ other ∈ elements ∨ other = element := by
  unfold pushBackUnique
  split_ifs with already
  · constructor
    · exact Or.inl
    · rintro (member | rfl)
      · exact member
      · exact already
  · simp

theorem nodup_pushBackUnique {elements : List Element} (distinct : elements.Nodup)
    (element : Element) : (pushBackUnique elements element).Nodup := by
  unfold pushBackUnique
  split_ifs with already
  · exact distinct
  · rw [List.nodup_append]
    refine ⟨distinct, List.nodup_singleton element, ?_⟩
    intro first member second same
    rw [List.mem_singleton] at same
    rintro rfl
    exact already (same ▸ member)

def without (elements : List Element) (element : Element) : List Element :=
  elements.filter (· ≠ element)

@[simp]
theorem mem_without {elements : List Element} {element other : Element} :
    other ∈ without elements element ↔ other ∈ elements ∧ other ≠ element := by
  simp [without]

theorem nodup_without {elements : List Element} (distinct : elements.Nodup)
    (element : Element) : (without elements element).Nodup :=
  distinct.filter _

end Arrays

end OperationFrontLine.Library
