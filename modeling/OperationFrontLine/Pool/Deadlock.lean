import OperationFrontLine.Pool.Worker

/-!
# When the acquisition loop can deadlock

A waiting worker references at most one connection, the one in `opflcon`.  The
number of connections held by waiting workers therefore grows in one step
only: an empty-handed worker getting its first connection.  The pool is
deadlocked as soon as that step takes the last connection left.
-/

namespace OperationFrontLine.Pool

open OperationFrontLine.Library

namespace PoolWorld

def own (world : PoolWorld ℕ) (index : ℕ) : List (Reference ℕ) :=
  world.references.filter (·.holder = index)

def others (world : PoolWorld ℕ) (index : ℕ) : List (Reference ℕ) :=
  world.references.filter (·.holder ≠ index)

theorem own_of_others_eq {world next : PoolWorld ℕ} {index other : ℕ}
    (same : next.others index = world.others index) (different : other ≠ index) :
    next.own other = world.own other := by
  have restrict : ∀ w : PoolWorld ℕ, w.own other = (w.others index).filter (·.holder = other) := by
    intro w
    rw [own, others, List.filter_filter]
    refine List.filter_congr fun reference _ => ?_
    by_cases mine : reference.holder = other <;> simp [mine, different]
  rw [restrict, restrict, same]

theorem own_drop (world : PoolWorld ℕ) (reference : Reference ℕ) (index : ℕ) :
    (world.drop reference).own index = (world.own index).erase reference :=
  List.erase_filter.symm

theorem others_drop (world : PoolWorld ℕ) (index : ℕ) (connection : Connection)
    (returned : Bool) :
    (world.drop ⟨index, connection, returned⟩).others index = world.others index := by
  rw [others, drop, ← List.erase_filter, List.erase_of_not_mem (by simp)]
  rfl

theorem others_overwrite (world : PoolWorld ℕ) (index : ℕ) (old : Option Connection) :
    (world.overwrite index old).others index = world.others index := by
  cases old with
  | none => rfl
  | some connection => exact world.others_drop index connection false

theorem others_unborrow (world : PoolWorld ℕ) (index : ℕ) (connection : Connection) :
    (world.unborrow index connection).others index = world.others index := by
  have erased := world.others_drop index connection false
  simpa [others, unborrow, drop] using erased

theorem others_dropAll (world : PoolWorld ℕ) (index : ℕ) :
    (world.dropAll index).others index = world.others index := by
  simp [others, dropAll, List.filter_filter]

theorem own_dropAll (world : PoolWorld ℕ) (index : ℕ) :
    (world.dropAll index).own index = [] := by
  simp [own, dropAll]

theorem invariant_overwrite {world : PoolWorld ℕ} (invariant : PoolInvariant world)
    (index : ℕ) (old : Option Connection) : PoolInvariant (world.overwrite index old) := by
  cases old with
  | none => exact invariant
  | some connection => exact invariant.drop _

theorem invariant_dropAll {world : PoolWorld ℕ} (invariant : PoolInvariant world)
    (index : ℕ) : PoolInvariant (world.dropAll index) :=
  have sublist : (world.dropAll index).lent.Sublist world.lent :=
    (List.filter_sublist.filter _).map _
  { invariant with
    lentBorrowed := fun connection lent =>
      invariant.lentBorrowed connection (sublist.subset lent)
    lentNodup := invariant.lentNodup.sublist sublist }

/-- `borrow` hands out a connection: the next free one, or the replacement of
an abandoned one if the factory does not throw. -/
def Gives (world : PoolWorld ℕ) (created : Option Connection) : Prop :=
  world.pool.pool ≠ [] ∨
    created ≠ none ∧ ∃ connection ∈ world.pool.borrowed, world.unique connection = true

instance (world : PoolWorld ℕ) (created : Option Connection) :
    Decidable (world.Gives created) :=
  inferInstanceAs (Decidable (_ ∨ _))

theorem borrow_outcome (world : PoolWorld ℕ) (index : ℕ) (created : Option Connection) :
    (∃ connection pool, world.Gives created ∧
      world.borrow index created =
        (.ok connection, ⟨pool, ⟨index, connection, false⟩ :: world.references⟩)) ∨
    (∃ error, ¬world.Gives created ∧ world.borrow index created = (.error error, world)) := by
  unfold PoolWorld.borrow Gives
  rcases world.pool.borrow_cases world.unique created with
    ⟨connection, rest, deque, result⟩ |
    ⟨abandoned, connection, deque, member, unique, rfl, result⟩ |
    ⟨error, deque, result, nothing⟩
  · exact .inl ⟨connection, _, by simp [deque], by rw [result]⟩
  · exact .inl ⟨connection, _, .inr ⟨by simp, abandoned, member, unique⟩, by rw [result]⟩
  · refine .inr ⟨error, ?_, by rw [result]⟩
    rintro (free | ⟨creates, connection, member, unique⟩)
    · exact free deque
    · rcases nothing with used | throws
      · simp [used connection member] at unique
      · exact creates throws

@[simp]
theorem overwrite_pool (world : PoolWorld ℕ) (index : ℕ) (old : Option Connection) :
    (world.overwrite index old).pool = world.pool := by
  cases old <;> rfl

end PoolWorld

namespace WorkerSystem

def waitingCount (system : WorkerSystem) : ℕ :=
  system.world.references.countP fun reference => (system.worker reference.holder).Waiting

theorem length_heldByWaiting (system : WorkerSystem) :
    system.heldByWaiting.length = system.waitingCount := by
  simp [heldByWaiting, waitingCount, List.countP_eq_length_filter]

theorem waitingCount_split (system : WorkerSystem) (index : ℕ) :
    system.waitingCount =
      (if (system.worker index).Waiting then (system.world.own index).length else 0) +
        (system.world.others index).countP
          fun reference => (system.worker reference.holder).Waiting := by
  unfold waitingCount PoolWorld.own PoolWorld.others
  induction system.world.references with
  | nil => simp
  | cons reference references inductionHypothesis =>
      rw [List.countP_cons, inductionHypothesis]
      by_cases mine : reference.holder = index
      · subst mine
        by_cases waiting : (system.worker reference.holder).Waiting <;> simp [waiting]
        omega
      · by_cases waiting : (system.worker reference.holder).Waiting <;> simp [mine, waiting]
        omega

theorem waitingCount_update {system : WorkerSystem} {world : PoolWorld ℕ} {index : ℕ}
    (worker : Worker) (same : world.others index = system.world.others index) :
    (system.update world index worker).waitingCount +
        (if (system.worker index).Waiting then (system.world.own index).length else 0) =
      system.waitingCount + (if worker.Waiting then (world.own index).length else 0) := by
  have before := system.waitingCount_split index
  have after := (system.update world index worker).waitingCount_split index
  have rest : (world.others index).countP
        (fun reference => ((system.update world index worker).worker reference.holder).Waiting) =
      (system.world.others index).countP
        (fun reference => (system.worker reference.holder).Waiting) := by
    rw [same]
    refine List.countP_congr fun reference member => ?_
    have different : reference.holder ≠ index := by
      simpa using (List.mem_filter.mp member).2
    rw [system.update_worker_of_ne _ _ _ different]
  rw [update_world, rest, update_worker_self] at after
  omega

theorem waitingCount_update_le {system : WorkerSystem} {world : PoolWorld ℕ} {index : ℕ}
    {worker : Worker} (same : world.others index = system.world.others index)
    (fewer : worker.Waiting → (system.worker index).Waiting ∧
      (world.own index).length ≤ (system.world.own index).length) :
    (system.update world index worker).waitingCount ≤ system.waitingCount := by
  have counted := waitingCount_update worker same
  by_cases waits : worker.Waiting
  · obtain ⟨waited, shorter⟩ := fewer waits
    rw [if_pos waits, if_pos waited] at counted
    omega
  · rw [if_neg waits] at counted
    omega

end WorkerSystem

structure WorkerInvariant (system : WorkerSystem) : Prop where
  pool : PoolInvariant system.world
  /-- Until it has both connections a worker stores at most `opflcon`. -/
  held : ∀ index, (system.worker index).retry = true →
    (system.worker index).opflcon2 = none ∧
    system.world.own index =
      (system.worker index).opflcon.toList.map fun connection => ⟨index, connection, false⟩
  acquiring : ∀ index, (system.worker index).phase = .idle ∨
    (system.worker index).phase = .borrowFirst ∨
    (system.worker index).phase = .borrowSecond →
      (system.worker index).retry = true ∧ (system.worker index).stable = true
  idle : ∀ index, (system.worker index).phase = .idle → (system.worker index).opflcon = none

namespace WorkerInvariant

variable {system : WorkerSystem}

theorem start {pool : ConnectionPool} (initial : PoolInvariant (⟨pool, []⟩ : PoolWorld ℕ)) :
    WorkerInvariant (.start pool) where
  pool := initial
  held _ _ := ⟨rfl, rfl⟩
  acquiring _ _ := ⟨rfl, rfl⟩
  idle _ _ := rfl

/-- A step of one worker leaves the pointers and the state of the others. -/
theorem update (invariant : WorkerInvariant system) {world : PoolWorld ℕ} {index : ℕ}
    {worker : Worker} (pool : PoolInvariant world)
    (same : world.others index = system.world.others index)
    (held : worker.retry = true → worker.opflcon2 = none ∧
      world.own index =
        worker.opflcon.toList.map fun connection => ⟨index, connection, false⟩)
    (acquiring : worker.phase = .idle ∨ worker.phase = .borrowFirst ∨
      worker.phase = .borrowSecond → worker.retry = true ∧ worker.stable = true)
    (started : worker.phase ≠ .idle) :
    WorkerInvariant (system.update world index worker) where
  pool := pool
  held other retry := by
    by_cases mine : other = index
    · subst mine
      rw [WorkerSystem.update_worker_self] at retry ⊢
      exact held retry
    · rw [WorkerSystem.update_worker_of_ne _ _ _ _ mine] at retry ⊢
      rw [WorkerSystem.update_world, PoolWorld.own_of_others_eq same mine]
      exact invariant.held other retry
  acquiring other phase := by
    by_cases mine : other = index
    · subst mine
      rw [WorkerSystem.update_worker_self] at phase ⊢
      exact acquiring phase
    · rw [WorkerSystem.update_worker_of_ne _ _ _ _ mine] at phase ⊢
      exact invariant.acquiring other phase
  idle other phase := by
    by_cases mine : other = index
    · subst mine
      rw [WorkerSystem.update_worker_self] at phase
      exact absurd phase started
    · rw [WorkerSystem.update_worker_of_ne _ _ _ _ mine] at phase ⊢
      exact invariant.idle other phase

end WorkerInvariant

namespace WorkerSystem

def TakesFirst (system : WorkerSystem) : WorkerLabel → Prop
  | .borrowFirst index created =>
      (system.worker index).opflcon = none ∧ system.world.Gives created
  | _ => False

/-- An empty-handed worker gets a connection only while that leaves one that no
waiting worker holds. -/
def LeavesRoom (system : WorkerSystem) (label : WorkerLabel) : Prop :=
  system.TakesFirst label →
    system.heldByWaiting.length + 1 < system.world.pool.poolSize

/-- What one step does, `takes` telling whether it is the one that hands an
empty-handed worker its first connection. -/
structure Stepped (system next : WorkerSystem) (takes : Prop) : Prop where
  invariant : WorkerInvariant next
  poolSize : next.world.pool.poolSize = system.world.pool.poolSize
  taken : takes → next.waitingCount = system.waitingCount + 1
  kept : ¬takes → next.waitingCount ≤ system.waitingCount

theorem Stepped.room_iff {system next : WorkerSystem} {label : WorkerLabel}
    (stepped : system.Stepped next (system.TakesFirst label))
    (room : system.waitingCount < system.world.pool.poolSize) :
    next.waitingCount < next.world.pool.poolSize ↔ system.LeavesRoom label := by
  rw [stepped.poolSize, LeavesRoom, length_heldByWaiting]
  by_cases takes : system.TakesFirst label
  · simp [takes, stepped.taken takes]
  · have kept := stepped.kept takes
    simp only [takes, false_implies, iff_true]
    omega

end WorkerSystem

namespace WorkerInvariant

variable {system : WorkerSystem} (invariant : WorkerInvariant system) {index : ℕ}

include invariant

theorem own_eq (retry : (system.worker index).retry = true) :
    system.world.own index =
      (system.worker index).opflcon.toList.map fun connection => ⟨index, connection, false⟩ :=
  (invariant.held index retry).2

theorem spawn (phase : (system.worker index).phase = .idle) :
    system.Stepped (system.update system.world index
      { system.worker index with phase := .borrowFirst }) False := by
  have acquiring := invariant.acquiring index (.inl phase)
  refine ⟨invariant.update invariant.pool rfl (invariant.held index) (fun _ => acquiring)
    (by simp), rfl, False.elim, fun _ => ?_⟩
  have nothing : system.world.own index = [] := by
    rw [invariant.own_eq acquiring.1, invariant.idle index phase]
    rfl
  have counted := WorkerSystem.waitingCount_update
    { system.worker index with phase := .borrowFirst } (Eq.refl (system.world.others index))
  rw [nothing] at counted
  simpa using counted.le

theorem catchError (error : BorrowError)
    (phase : (system.worker index).phase = .borrowFirst ∨
      (system.worker index).phase = .borrowSecond) :
    system.Stepped (system.update system.world index
      ((system.worker index).catchError error)) False := by
  have acquiring := invariant.acquiring index (.inr phase)
  refine ⟨invariant.update invariant.pool rfl (fun retry => invariant.held index retry)
    (by simp [Worker.catchError]) (by simp [Worker.catchError]), rfl, False.elim, fun _ => ?_⟩
  exact WorkerSystem.waitingCount_update_le rfl
    fun _ => ⟨⟨phase.imp_right .inl, acquiring⟩, le_rfl⟩

theorem borrowFirst {created : Option Connection}
    (phase : (system.worker index).phase = .borrowFirst)
    (fresh : ∀ connection ∈ created, system.world.useCount connection = 0) :
    system.Stepped (system.borrowFirst index created)
      ((system.worker index).opflcon = none ∧ system.world.Gives created) := by
  have acquiring := invariant.acquiring index (.inr (.inl phase))
  have owned := invariant.own_eq acquiring.1
  have borrowed := invariant.pool.borrow index fresh
  unfold WorkerSystem.borrowFirst
  rcases system.world.borrow_outcome index created with
    ⟨connection, pool, gives, result⟩ | ⟨error, refused, result⟩
  · rw [result] at borrowed
    simp only [result]
    have same : (PoolWorld.overwrite
        ⟨pool, ⟨index, connection, false⟩ :: system.world.references⟩ index
        (system.worker index).opflcon).others index = system.world.others index := by
      rw [PoolWorld.others_overwrite]
      simp [PoolWorld.others]
    -- the new pointer replaces the old one
    have own : (PoolWorld.overwrite
        ⟨pool, ⟨index, connection, false⟩ :: system.world.references⟩ index
        (system.worker index).opflcon).own index = [⟨index, connection, false⟩] := by
      have cons : PoolWorld.own
          ⟨pool, ⟨index, connection, false⟩ :: system.world.references⟩ index =
            ⟨index, connection, false⟩ :: system.world.own index := by
        simp [PoolWorld.own]
      cases stored : (system.worker index).opflcon with
      | none => rw [PoolWorld.overwrite, cons, owned, stored]; rfl
      | some old =>
          rw [PoolWorld.overwrite, PoolWorld.own_drop, cons, owned, stored]
          by_cases again : connection = old <;> simp [again]
    have counted := WorkerSystem.waitingCount_update
      { system.worker index with phase := .borrowSecond, opflcon := some connection } same
    have waiting : (system.worker index).Waiting := ⟨.inl phase, acquiring⟩
    rw [if_pos waiting, if_pos ⟨.inr (.inl rfl), acquiring⟩, own, owned] at counted
    refine ⟨invariant.update (PoolWorld.invariant_overwrite borrowed.invariant _ _) same
      (fun retry => ⟨(invariant.held index retry).1, own⟩) (fun _ => acquiring) (by simp),
      by simpa using borrowed.poolSize, ?_, ?_⟩
    · rintro ⟨empty, -⟩
      simpa [empty] using counted
    · intro keeps
      cases stored : (system.worker index).opflcon with
      | none => exact absurd ⟨stored, gives⟩ keeps
      | some old => simpa [stored] using counted.le
  · simp only [result]
    have caught := invariant.catchError error (.inl phase)
    exact ⟨caught.invariant, rfl, fun takes => absurd takes.2 refused,
      fun _ => caught.kept id⟩

theorem borrowSecond {created : Option Connection}
    (phase : (system.worker index).phase = .borrowSecond)
    (fresh : ∀ connection ∈ created, system.world.useCount connection = 0) :
    system.Stepped (system.borrowSecond index created) False := by
  have borrowed := invariant.pool.borrow index fresh
  unfold WorkerSystem.borrowSecond
  rcases system.world.borrow_outcome index created with
    ⟨connection, pool, -, result⟩ | ⟨error, -, result⟩
  · rw [result] at borrowed
    simp only [result]
    have same : (PoolWorld.overwrite
        ⟨pool, ⟨index, connection, false⟩ :: system.world.references⟩ index
        (system.worker index).opflcon2).others index = system.world.others index := by
      rw [PoolWorld.others_overwrite]
      simp [PoolWorld.others]
    refine ⟨invariant.update (PoolWorld.invariant_overwrite borrowed.invariant _ _) same
      (by simp) (by simp) (by simp), by simpa using borrowed.poolSize, False.elim,
      fun _ => ?_⟩
    exact WorkerSystem.waitingCount_update_le same fun waits => by simp [Worker.Waiting] at waits
  · simp only [result]
    exact invariant.catchError error (.inr phase)

theorem poll (message : PolledMessage) (phase : (system.worker index).phase = .poll) :
    system.Stepped (system.poll index message) False := by
  unfold WorkerSystem.poll
  by_cases again : message ≠ .commit ∧ (system.worker index).retry = true ∧
      (system.worker index).stable = true
  · simp only [if_pos again]
    refine ⟨invariant.update invariant.pool rfl (invariant.held index) (fun _ => again.2)
      (by simp), rfl, False.elim, fun _ => ?_⟩
    exact WorkerSystem.waitingCount_update_le rfl
      fun _ => ⟨⟨.inr (.inr phase), again.2⟩, le_rfl⟩
  · simp only [if_neg again]
    refine ⟨invariant.update invariant.pool rfl (invariant.held index) (by simp)
      (by simp), rfl, False.elim, fun _ => ?_⟩
    exact WorkerSystem.waitingCount_update_le rfl fun waits => by simp [Worker.Waiting] at waits

theorem unborrow {connection : Connection} (phase : (system.worker index).phase = .session)
    (both : (system.worker index).retry = false)
    (present : ⟨index, connection, false⟩ ∈ system.world.references) :
    system.Stepped { system with world := system.world.unborrow index connection } False := by
  have unchanged : ({ system with world := system.world.unborrow index connection } :
      WorkerSystem) = system.update (system.world.unborrow index connection) index
        (system.worker index) := by
    rw [WorkerSystem.update, Function.update_eq_self]
  rw [unchanged]
  have same := system.world.others_unborrow index connection
  refine ⟨invariant.update (invariant.pool.unborrow present) same (by simp [both])
    (by simp [phase]) (by simp [phase]), rfl, False.elim, fun _ => ?_⟩
  exact WorkerSystem.waitingCount_update_le same
    fun waits => by simp [Worker.Waiting, both] at waits

theorem exit : system.Stepped (system.update (system.world.dropAll index) index
    { system.worker index with phase := .done, opflcon := none, opflcon2 := none }) False := by
  have same := system.world.others_dropAll index
  refine ⟨invariant.update (PoolWorld.invariant_dropAll invariant.pool index) same
    (fun _ => ⟨rfl, system.world.own_dropAll index⟩) (by simp) (by simp), rfl, False.elim,
    fun _ => ?_⟩
  exact WorkerSystem.waitingCount_update_le same fun waits => by simp [Worker.Waiting] at waits

/-- Only a worker's first connection lets the number of connections held by
waiting workers grow. -/
theorem step {label : WorkerLabel} {next : WorkerSystem}
    (stepped : workerStep system label = some next) :
    system.Stepped next (system.TakesFirst label) := by
  cases label with
  | spawn index =>
      simp only [workerStep, Option.ite_none_right_eq_some, Option.some.injEq] at stepped
      obtain ⟨phase, rfl⟩ := stepped
      exact invariant.spawn phase
  | borrowFirst index created =>
      simp only [workerStep, Option.ite_none_right_eq_some, Option.some.injEq] at stepped
      obtain ⟨⟨phase, fresh⟩, rfl⟩ := stepped
      exact invariant.borrowFirst phase fresh
  | borrowSecond index created =>
      simp only [workerStep, Option.ite_none_right_eq_some, Option.some.injEq] at stepped
      obtain ⟨⟨phase, fresh⟩, rfl⟩ := stepped
      exact invariant.borrowSecond phase fresh
  | poll index message =>
      simp only [workerStep, Option.ite_none_right_eq_some, Option.some.injEq] at stepped
      obtain ⟨phase, rfl⟩ := stepped
      exact invariant.poll message phase
  | unborrow index connection =>
      simp only [workerStep, Option.ite_none_right_eq_some, Option.some.injEq] at stepped
      obtain ⟨⟨phase, both, present⟩, rfl⟩ := stepped
      exact invariant.unborrow phase both present
  | exit index =>
      simp only [workerStep, Option.ite_none_right_eq_some, Option.some.injEq] at stepped
      obtain ⟨-, rfl⟩ := stepped
      exact invariant.exit

theorem not_returned {reference : Reference ℕ} (present : reference ∈ system.world.references)
    (waiting : (system.worker reference.holder).Waiting) : reference.returned = false := by
  have member : reference ∈ system.world.own reference.holder :=
    List.mem_filter.mpr ⟨present, by simp⟩
  rw [invariant.own_eq waiting.2.1] at member
  obtain ⟨connection, -, same⟩ := List.mem_map.mp member
  exact (congrArg Reference.returned same).symm

theorem heldByWaiting_sublist : system.heldByWaiting.Sublist system.world.lent := by
  have restrict : system.world.references.filter
        (fun reference => (system.worker reference.holder).Waiting) =
      (system.world.references.filter (!·.returned)).filter
        (fun reference => (system.worker reference.holder).Waiting) := by
    rw [List.filter_filter]
    refine List.filter_congr fun reference present => ?_
    by_cases waiting : (system.worker reference.holder).Waiting
    · simp [waiting, invariant.not_returned present waiting]
    · simp [waiting]
  rw [WorkerSystem.heldByWaiting, restrict]
  exact List.filter_sublist.map _

theorem heldByWaiting_subperm : system.heldByWaiting.Subperm system.world.pool.borrowed :=
  List.subperm_of_subset (invariant.pool.lentNodup.sublist invariant.heldByWaiting_sublist)
    fun connection held =>
      invariant.pool.lentBorrowed connection (invariant.heldByWaiting_sublist.subset held)

theorem waitingCount_le : system.waitingCount ≤ system.world.pool.poolSize := by
  have held := invariant.heldByWaiting_subperm.length_le
  have size := invariant.pool.size
  rw [system.length_heldByWaiting] at held
  omega

theorem allHeldByWaiting_iff :
    system.AllHeldByWaiting ↔ system.waitingCount = system.world.pool.poolSize := by
  have subperm := invariant.heldByWaiting_subperm
  have held := subperm.length_le
  have size := invariant.pool.size
  rw [← system.length_heldByWaiting]
  constructor
  · intro all
    have nodup : (system.world.pool.pool ++ system.world.pool.borrowed).Nodup :=
      List.nodup_append'.mpr ⟨invariant.pool.poolNodup, invariant.pool.borrowedNodup,
        fun connection free borrowed => invariant.pool.disjoint connection free borrowed⟩
    have bounded := (List.subperm_of_subset nodup all).length_le
    rw [List.length_append] at bounded
    omega
  · intro full connection member
    have perm := subperm.perm_of_length_le (by omega)
    have empty : system.world.pool.pool = [] := List.eq_nil_of_length_eq_zero (by omega)
    exact perm.mem_iff.mpr (by simpa [empty] using member)

/-- A connection that no waiting worker holds is free, held by somebody who is
not waiting, or abandoned. -/
theorem canProgress (notAll : ¬system.AllHeldByWaiting) : system.CanProgress := by
  simp only [WorkerSystem.AllHeldByWaiting, not_forall] at notAll
  obtain ⟨connection, member, notHeld⟩ := notAll
  rcases List.mem_append.mp member with free | borrowed
  · exact .inr (.inl (List.ne_nil_of_mem free))
  · by_cases referenced : ∃ reference ∈ system.world.references,
        reference.connection = connection
    · obtain ⟨reference, present, rfl⟩ := referenced
      refine .inl ⟨reference, present, fun waiting => notHeld ?_⟩
      exact List.mem_map.mpr
        ⟨reference, List.mem_filter.mpr ⟨present, by simpa using waiting⟩, rfl⟩
    · refine .inr (.inr ⟨connection, borrowed, ?_⟩)
      have notFree : connection ∉ system.world.pool.pool :=
        fun free => invariant.pool.disjoint connection free borrowed
      have nobody : system.world.references.countP (·.connection = connection) = 0 :=
        List.countP_eq_zero.mpr fun reference present same =>
          referenced ⟨reference, present, by simpa using same⟩
      simp [PoolWorld.unique, PoolWorld.useCount, nobody, List.count_eq_zero.mpr notFree,
        List.count_eq_one_of_mem invariant.pool.borrowedNodup borrowed]

theorem deadlockFree_iff :
    system.DeadlockFree ↔ system.waitingCount < system.world.pool.poolSize := by
  have bounded := invariant.waitingCount_le
  have full := invariant.allHeldByWaiting_iff
  constructor
  · intro free
    exact lt_of_le_of_ne bounded fun all => free.1 (full.mpr all)
  · intro room
    have notAll : ¬system.AllHeldByWaiting := fun all => room.ne (full.mp all)
    exact ⟨notAll, fun _ => invariant.canProgress notAll⟩

end WorkerInvariant

/-- Along every run the acquisition stays free of deadlock exactly when an
empty-handed worker never gets the last connection that no waiting worker
holds. -/
theorem acquisition_deadlockFree_iff {poolSize : ℕ} {create : ℕ → Option Connection}
    {pool : ConnectionPool}
    (distinct : ∀ i j connection, create i = some connection →
      create j = some connection → i = j)
    (constructed : ConnectionPool.construct poolSize create = some pool)
    (several : 2 ≤ poolSize) (labels : List WorkerLabel) :
    ((WorkerSystem.start pool).DeadlockFree ∧
      Along workerStep (fun _ _ after => after.DeadlockFree) (.start pool) labels) ↔
    Along workerStep (fun before label _ => before.LeavesRoom label) (.start pool) labels := by
  have initial := PoolInvariant.initial ℕ distinct constructed
  have start := WorkerInvariant.start initial.1
  have room : (WorkerSystem.start pool).waitingCount < pool.poolSize := by
    have none_yet : (WorkerSystem.start pool).waitingCount = 0 := rfl
    omega
  rw [and_iff_right (start.deadlockFree_iff.mpr room)]
  refine along_iff_of_invariant
    (fun system => WorkerInvariant system ∧
      system.waitingCount < system.world.pool.poolSize)
    (fun before label after invariant leaves stepped => ?_)
    (fun before label after invariant stepped => ?_) ⟨start, room⟩ labels
  · have spec := invariant.1.step stepped
    exact ⟨spec.invariant, (spec.room_iff invariant.2).mpr leaves⟩
  · have spec := invariant.1.step stepped
    rw [spec.invariant.deadlockFree_iff]
    exact spec.room_iff invariant.2

/-- Two workers, two connections: each of the two takes one. -/
theorem acquisition_deadlock :
    ∃ system, run workerStep (.start ⟨2, [0, 1], []⟩)
        [.spawn 0, .spawn 1, .borrowFirst 0 none, .borrowFirst 1 none] = some system ∧
      system.AllHeldByWaiting ∧ (∀ index < 2, (system.worker index).Waiting) ∧
      ¬system.CanProgress :=
  ⟨_, rfl, by decide, by decide, by decide⟩

theorem acquisition_deadlockFree_iff_two :
    Along workerStep (fun before label _ => before.LeavesRoom label) (.start ⟨2, [0, 1], []⟩)
      [.spawn 0, .borrowFirst 0 none, .borrowSecond 0 none] ∧
    (WorkerSystem.start ⟨2, [0, 1], []⟩).DeadlockFree ∧
      Along workerStep (fun _ _ after => after.DeadlockFree) (.start ⟨2, [0, 1], []⟩)
        [.spawn 0, .borrowFirst 0 none, .borrowSecond 0 none] := by
  have constructed : ConnectionPool.construct 2 some = some ⟨2, [0, 1], []⟩ := rfl
  have leaves : Along workerStep (fun before label _ => before.LeavesRoom label)
      (.start ⟨2, [0, 1], []⟩) [.spawn 0, .borrowFirst 0 none, .borrowSecond 0 none] := by
    rintro _ ⟨⟩
    refine ⟨False.elim, ?_⟩
    rintro _ ⟨⟩
    refine ⟨fun _ => by decide, ?_⟩
    rintro _ ⟨⟩
    exact ⟨False.elim, trivial⟩
  exact ⟨leaves,
    (acquisition_deadlockFree_iff (by simp) constructed le_rfl _).mpr leaves⟩

end OperationFrontLine.Pool
