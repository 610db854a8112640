import OperationFrontLine.Pool.Invariant

/-!
# Session workers acquiring connections

Every session runs `mycallback` on a thread of its own.  Its acquisition loop
borrows a connection into `opflcon` and then one into `opflcon2`; a `borrow`
that throws ends the iteration, and whatever the variables hold is kept until
the next one.  What follows the loop appears only as far as the pool sees it:
a worker that got both connections may return each of them once, and leaving
the function destroys the pointers.
-/

namespace OperationFrontLine.Pool

open OperationFrontLine.Library

inductive WorkerPhase where
  | idle
  /-- Before `opflcon = mysql_pool->borrow()`. -/
  | borrowFirst
  /-- Before `opflcon2 = mysql_pool->borrow()`. -/
  | borrowSecond
  /-- After the `try` block, about to look for a message. -/
  | poll
  /-- Past the loop. -/
  | session
  | done
  deriving DecidableEq, Repr

structure Worker where
  phase : WorkerPhase
  opflcon : Option Connection
  opflcon2 : Option Connection
  retry : Bool
  stable : Bool
  deriving DecidableEq, Repr

namespace Worker

def initial : Worker := ⟨.idle, none, none, true, true⟩

/-- In the loop, still without a second connection, and going to try again. -/
def Waiting (worker : Worker) : Prop :=
  (worker.phase = .borrowFirst ∨ worker.phase = .borrowSecond ∨ worker.phase = .poll) ∧
    worker.retry = true ∧ worker.stable = true

instance (worker : Worker) : Decidable worker.Waiting :=
  inferInstanceAs (Decidable (_ ∧ _))

/-- The `catch` block: only `ConnectionImpossible` ends the retrying. -/
def catchError (worker : Worker) (error : BorrowError) : Worker :=
  { worker with phase := .poll, stable := decide (error ≠ .connectionImpossible) }

end Worker

inductive PolledMessage where
  | none
  | commit
  | other
  deriving DecidableEq, Repr

structure WorkerSystem where
  world : PoolWorld ℕ
  worker : ℕ → Worker

inductive WorkerLabel where
  | spawn (index : ℕ)
  | borrowFirst (index : ℕ) (created : Option Connection)
  | borrowSecond (index : ℕ) (created : Option Connection)
  | poll (index : ℕ) (message : PolledMessage)
  | unborrow (index : ℕ) (connection : Connection)
  | exit (index : ℕ)
  deriving DecidableEq, Repr

namespace PoolWorld

/-- Assigning to a `shared_ptr` destroys the pointer it stored. -/
def overwrite (world : PoolWorld ℕ) (index : ℕ) (old : Option Connection) : PoolWorld ℕ :=
  match old with
  | some connection => world.drop ⟨index, connection, false⟩
  | none => world

/-- Leaving `mycallback` destroys its pointers. -/
def dropAll (world : PoolWorld ℕ) (index : ℕ) : PoolWorld ℕ :=
  { world with references := world.references.filter (·.holder ≠ index) }

end PoolWorld

namespace WorkerSystem

def start (pool : ConnectionPool) : WorkerSystem := ⟨⟨pool, []⟩, fun _ => .initial⟩

def update (system : WorkerSystem) (world : PoolWorld ℕ) (index : ℕ) (worker : Worker) :
    WorkerSystem :=
  ⟨world, Function.update system.worker index worker⟩

section Update

variable (system : WorkerSystem) (world : PoolWorld ℕ) (index : ℕ) (worker : Worker)

@[simp]
theorem update_world : (system.update world index worker).world = world := rfl

@[simp]
theorem update_worker_self : (system.update world index worker).worker index = worker :=
  Function.update_self ..

theorem update_worker_of_ne {other : ℕ} (different : other ≠ index) :
    (system.update world index worker).worker other = system.worker other :=
  Function.update_of_ne different ..

end Update

def borrowFirst (system : WorkerSystem) (index : ℕ) (created : Option Connection) :
    WorkerSystem :=
  let worker := system.worker index
  match system.world.borrow index created with
  | (.ok connection, world) =>
      system.update (world.overwrite index worker.opflcon) index
        { worker with phase := .borrowSecond, opflcon := some connection }
  | (.error error, world) => system.update world index (worker.catchError error)

def borrowSecond (system : WorkerSystem) (index : ℕ) (created : Option Connection) :
    WorkerSystem :=
  let worker := system.worker index
  match system.world.borrow index created with
  | (.ok connection, world) =>
      system.update (world.overwrite index worker.opflcon2) index
        { worker with phase := .poll, opflcon2 := some connection, retry := false }
  | (.error error, world) => system.update world index (worker.catchError error)

/-- A Commit ends the session; otherwise the loop condition decides. -/
def poll (system : WorkerSystem) (index : ℕ) (message : PolledMessage) : WorkerSystem :=
  let worker := system.worker index
  let phase :=
    if message ≠ .commit ∧ worker.retry = true ∧ worker.stable = true then
      WorkerPhase.borrowFirst
    else
      WorkerPhase.session
  system.update system.world index { worker with phase := phase }

end WorkerSystem

def workerStep (system : WorkerSystem) : WorkerLabel → Option WorkerSystem
  | .spawn index =>
      if (system.worker index).phase = .idle then
        some (system.update system.world index
          { system.worker index with phase := .borrowFirst })
      else
        none
  | .borrowFirst index created =>
      if (system.worker index).phase = .borrowFirst ∧
          ∀ connection ∈ created, system.world.useCount connection = 0 then
        some (system.borrowFirst index created)
      else
        none
  | .borrowSecond index created =>
      if (system.worker index).phase = .borrowSecond ∧
          ∀ connection ∈ created, system.world.useCount connection = 0 then
        some (system.borrowSecond index created)
      else
        none
  | .poll index message =>
      if (system.worker index).phase = .poll then
        some (system.poll index message)
      else
        none
  | .unborrow index connection =>
      -- only a worker that got both connections ever returns one
      if (system.worker index).phase = .session ∧ (system.worker index).retry = false ∧
          ⟨index, connection, false⟩ ∈ system.world.references then
        some { system with world := system.world.unborrow index connection }
      else
        none
  | .exit index =>
      if (system.worker index).phase = .session then
        some (system.update (system.world.dropAll index) index
          { system.worker index with phase := .done, opflcon := none, opflcon2 := none })
      else
        none

namespace WorkerSystem

def heldByWaiting (system : WorkerSystem) : List Connection :=
  (system.world.references.filter fun reference =>
    (system.worker reference.holder).Waiting).map (·.connection)

/-- Every connection of the pool is held by a worker waiting for another. -/
def AllHeldByWaiting (system : WorkerSystem) : Prop :=
  ∀ connection ∈ system.world.pool.pool ++ system.world.pool.borrowed,
    connection ∈ system.heldByWaiting

instance (system : WorkerSystem) : Decidable system.AllHeldByWaiting :=
  inferInstanceAs (Decidable (∀ connection ∈ _, _))

/-- `borrow` finds a connection, unless the factory throws. -/
def BorrowCanSucceed (system : WorkerSystem) : Prop :=
  system.world.pool.pool ≠ [] ∨
    ∃ connection ∈ system.world.pool.borrowed, system.world.unique connection = true

instance (system : WorkerSystem) : Decidable system.BorrowCanSucceed :=
  inferInstanceAs (Decidable (_ ∨ _))

/-- Somebody who is not waiting holds a connection, or `borrow` finds one. -/
def CanProgress (system : WorkerSystem) : Prop :=
  (∃ reference ∈ system.world.references, ¬(system.worker reference.holder).Waiting) ∨
    system.BorrowCanSucceed

instance (system : WorkerSystem) : Decidable system.CanProgress :=
  inferInstanceAs (Decidable (_ ∨ _))

def DeadlockFree (system : WorkerSystem) : Prop :=
  ¬system.AllHeldByWaiting ∧
    ((∃ index, (system.worker index).Waiting) → system.CanProgress)

end WorkerSystem

end OperationFrontLine.Pool
