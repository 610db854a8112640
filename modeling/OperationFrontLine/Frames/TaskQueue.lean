import OperationFrontLine.Library.ArrayObjects
import OperationFrontLine.Library.Numeral
import OperationFrontLine.Library.Script

/-!
# The queue of atomic tasks

The per-frame handler takes the tasks from `PCS_CPQ` in a loop over that same array.  The
body of the loop marks the head and lets the variable refer to a copy without the mark, so
that what a task appends reaches the array of the loop in the first iteration only.
-/

namespace OperationFrontLine.Frames

open OperationFrontLine.Library

inductive FunctionName where
  | scalar (number : ℕ)
  | string (name : Text)
  | other
  deriving DecidableEq

/-- `[arguments, function]` -/
structure Task (Arguments : Type) where
  arguments : Arguments
  function : FunctionName

/-- An element of `PCS_CPQ`: a task, or the mark `-1`. -/
inductive Cell (Arguments : Type) where
  | task (task : Task Arguments)
  | minusOne

def Cell.isMinusOne {Arguments : Type} : Cell Arguments → Bool
  | task _ => false
  | minusOne => true

structure FunctionTable where
  /-- the number of a function -/
  idOf : Text → Option ℕ
  /-- `PCS_FNC%1_KSTIRH` -/
  nameOf : ℕ → Option Text

def badFnc : Text := "PCS_BadFnc".toList

/-- `PCS_CallFnc`: the variable with the code that is called, or `none` when the function
argument is of no valid type. -/
def FunctionTable.callFnc (table : FunctionTable) : FunctionName → Option Text
  | .scalar number => some ((table.nameOf number).getD badFnc)
  | .string name => some (((table.idOf name).bind table.nameOf).getD badFnc)
  | .other => none

/-- What the scripts can see, and a record of the tasks. -/
structure Scene (Arguments World : Type) where
  arrays : Arrays (Cell Arguments)
  /-- the array that `PCS_CPQ` refers to -/
  cpq : ℕ
  world : World
  /-- the tasks that were called, in order -/
  called : List (Task Arguments)
  /-- the tasks that were appended to `PCS_CPQ`, in order -/
  appended : List (Task Arguments)

/-- The functions of the mission: with its arguments, each appends some tasks and changes
the rest of the world. -/
structure Mission (Arguments World : Type) where
  table : FunctionTable
  run : (code : Text) → Arguments → World → List (Task Arguments) × World

variable {Arguments World : Type}

/-- What it means that the code of a task is run, said of the table alone: with the code
that the number stands for, or the number that the name stands for. -/
inductive FunctionTable.Means (table : FunctionTable) : FunctionName → Option Text → Prop where
  | number {number : ℕ} {code : Text} (known : table.nameOf number = some code) :
      Means table (.scalar number) (some code)
  | noNumber {number : ℕ} (unknown : table.nameOf number = none) :
      Means table (.scalar number) (some badFnc)
  | name {name : Text} {number : ℕ} {code : Text} (known : table.idOf name = some number)
      (means : Means table (.scalar number) (some code)) :
      Means table (.string name) (some code)
  | noName {name : Text} (unknown : table.idOf name = none) :
      Means table (.string name) (some badFnc)
  | other : Means table .other none

/-- The tasks run one after another, each exactly once and with its own arguments: from the
world in front of them to the one behind them, and what they appended. -/
inductive Ran (mission : Mission Arguments World) :
    World → List (Task Arguments) → World → List (Task Arguments) → Prop where
  | nil (world : World) : Ran mission world [] world []
  | cons {world final : World} {task : Task Arguments} {rest spawned : List (Task Arguments)}
      {code : Text} (means : mission.table.Means task.function (some code))
      (later : Ran mission (mission.run code task.arguments world).2 rest final spawned) :
      Ran mission world (task :: rest) final
        ((mission.run code task.arguments world).1 ++ spawned)
  | refused {world final : World} {task : Task Arguments} {rest spawned : List (Task Arguments)}
      (means : mission.table.Means task.function none)
      (later : Ran mission world rest final spawned) :
      Ran mission world (task :: rest) final spawned

theorem Ran.append {mission : Mission Arguments World} {world middle final : World}
    {first later spawned more : List (Task Arguments)}
    (ran : Ran mission world first middle spawned) (goesOn : Ran mission middle later final more) :
    Ran mission world (first ++ later) final (spawned ++ more) := by
  induction ran with
  | nil => exact goesOn
  | cons means _ inductionHypothesis =>
      rw [List.append_assoc]
      exact .cons means (inductionHypothesis goesOn)
  | refused means _ inductionHypothesis => exact .refused means (inductionHypothesis goesOn)

namespace Scene

def spawnAtomic (scene : Scene Arguments World) (task : Task Arguments) : Scene Arguments World :=
  { scene with
    arrays := scene.arrays.set scene.cpq (scene.arrays.contents scene.cpq).length (.task task)
    appended := scene.appended ++ [task] }

variable (mission : Mission Arguments World)

def outcomeOf (scene : Scene Arguments World) (task : Task Arguments) :
    List (Task Arguments) × World :=
  match mission.table.callFnc task.function with
  | some code => mission.run code task.arguments scene.world
  | none => ([], scene.world)

/-- `[_ex select 0, _ex select 1] call PCS_CallFnc` -/
def call (scene : Scene Arguments World) (task : Task Arguments) : Scene Arguments World :=
  let outcome := scene.outcomeOf mission task
  outcome.1.foldl spawnAtomic
    { scene with world := outcome.2, called := scene.called ++ [task] }

/-- `PCS_CPQ set [0, -1]; PCS_CPQ = PCS_CPQ - [-1]` -/
def removeHead (scene : Scene Arguments World) : Scene Arguments World :=
  let marked := scene.arrays.set scene.cpq 0 .minusOne
  { scene with
    arrays := marked.allocate ((marked.contents scene.cpq).filter fun cell => !cell.isMinusOne)
    cpq := marked.next }

/-- The body of the loop.  It stops where there is no task at the head of the queue. -/
def iteration (scene : Scene Arguments World) : Outcome (Scene Arguments World) :=
  match scene.arrays.contents scene.cpq with
  | .task ex :: _ => .finished (scene.call mission ex).removeHead
  | _ => .stopped scene

/-- `{ ... } foreach object` from an index on: the length of the array is looked at again
before every iteration.  For at most `fuel` looks. -/
def loop : (fuel : ℕ) → (object index : ℕ) → Scene Arguments World →
    Option (Outcome (Scene Arguments World))
  | 0, _, _, _ => none
  | fuel + 1, object, index, scene =>
      if index < (scene.arrays.contents object).length then
        match scene.iteration mission with
        | .finished after => loop fuel object (index + 1) after
        | .stopped after => some (.stopped after)
      else some (.finished scene)

def frame (fuel : ℕ) (scene : Scene Arguments World) : Option (Outcome (Scene Arguments World)) :=
  scene.loop mission fuel scene.cpq 0

structure Queued (scene : Scene Arguments World) (queue : List (Task Arguments)) : Prop where
  contents : scene.arrays.contents scene.cpq = queue.map .task
  made : scene.cpq < scene.arrays.next
  account : scene.appended = scene.called ++ queue

theorem Queued.spawnAtomic {scene : Scene Arguments World} {queue : List (Task Arguments)}
    (queued : scene.Queued queue) (task : Task Arguments) :
    (scene.spawnAtomic task).Queued (queue ++ [task]) where
  contents := by
    rw [Scene.spawnAtomic, Arrays.set_contents_count, queued.contents, List.map_append]
    rfl
  made := queued.made
  account := by
    simp only [Scene.spawnAtomic]
    rw [queued.account, List.append_assoc]

structure Iterated (before : Scene Arguments World) (queue : List (Task Arguments))
    (after : Scene Arguments World) (left : List (Task Arguments)) : Prop where
  queued : after.Queued left
  called : ∃ ex rest spawned, queue = ex :: rest ∧ after.called = before.called ++ [ex] ∧
    left = rest ++ spawned ∧ after.appended = before.appended ++ spawned ∧
    Ran mission before.world [ex] after.world spawned
  fresh : after.cpq = before.arrays.next
  next : after.arrays.next = before.arrays.next + 1
  /-- the array of the loop has the mark, and what was appended to it -/
  marked : (after.arrays.contents before.cpq).length = left.length + 1
  others : ∀ object, object < before.arrays.next → object ≠ before.cpq →
    after.arrays.contents object = before.arrays.contents object

variable {mission}

variable (mission) in
structure Looped (before : Scene Arguments World) (after : Scene Arguments World)
    (ran left : List (Task Arguments)) : Prop where
  queued : after.Queued left
  called : after.called = before.called ++ ran
  appended : ∃ spawned, after.appended = before.appended ++ spawned ∧
    Ran mission before.world ran after.world spawned

theorem Iterated.length_le {before after : Scene Arguments World}
    {queue left : List (Task Arguments)} (iterated : before.Iterated mission queue after left) :
    queue.length ≤ left.length + 1 := by
  obtain ⟨ex, rest, spawned, rfl, -, rfl, -, -⟩ := iterated.called
  simp

theorem Iterated.looped {before middle after : Scene Arguments World}
    {queue between ran left : List (Task Arguments)}
    (iterated : before.Iterated mission queue middle between)
    (looped : middle.Looped mission after ran left) :
    ∃ ex, before.Looped mission after (ex :: ran) left := by
  obtain ⟨ex, rest, spawned, -, called, -, appended, ranFirst⟩ := iterated.called
  obtain ⟨more, appendedLater, ranLater⟩ := looped.appended
  refine ⟨ex, looped.queued, ?_, spawned ++ more, ?_, ranFirst.append ranLater⟩
  · rw [looped.called, called, List.append_assoc]
    rfl
  · rw [appendedLater, appended, List.append_assoc]

def start (queue : List (Task Arguments)) (world : World) : Scene Arguments World where
  arrays := ⟨fun _ => queue.map .task, 1⟩
  cpq := 0
  world := world
  called := []
  appended := queue

end Scene

open Scene

variable {mission : Mission Arguments World}

end OperationFrontLine.Frames
