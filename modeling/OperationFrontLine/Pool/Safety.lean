import OperationFrontLine.Pool.Callback

/-!
# What a worker does with its connections

Along its statements a worker keeps the pointers that are still to be used, and
the pool keeps lending it what they store.  The one statement that uses a
pointer without asking whether it was ever set is the last `ThreadEnd`.
-/

namespace OperationFrontLine.Pool

open OperationFrontLine.Library

inductive Effect (system : CallbackSystem) : CallbackLabel → CallbackSystem → Prop where
  | aside {label : CallbackLabel} {next : CallbackSystem}
      (callbacks : next.callback = system.callback) (posts : next.cleanupO = system.cleanupO)
      (references : next.world.references = system.world.references)
      (installed : system.installed = true → next.installed = true)
      (noPool : ∀ index created, label = .borrow index created → system.installed = false) :
      Effect system label next
  | connect {index : ℕ} {rejoin : Bool} (idle : (system.callback index).statement = .idle) :
      Effect system (.connect index rejoin)
        (system.update system.world index ((system.callback index).connect rejoin))
  | first {index : ℕ} {created : Option Connection} {connection : Connection}
      {world : PoolWorld ℕ} (here : (system.callback index).statement = .borrowFirst)
      (installed : system.installed = true)
      (lent : system.world.borrow index created = (.ok connection, world)) :
      Effect system (.borrow index created)
        (system.update (world.overwrite index (system.callback index).opflcon) index
          ((system.callback index).receiveFirst connection))
  | second {index : ℕ} {created : Option Connection} {connection : Connection}
      {world : PoolWorld ℕ} (here : (system.callback index).statement = .borrowSecond)
      (lent : system.world.borrow index created = (.ok connection, world)) :
      Effect system (.borrow index created)
        (system.update (world.overwrite index (system.callback index).opflcon2) index
          ((system.callback index).receiveSecond connection))
  | refused {index : ℕ} {created : Option Connection} {error : BorrowError}
      {world : PoolWorld ℕ}
      (here : (system.callback index).statement = .borrowFirst ∨
        (system.callback index).statement = .borrowSecond)
      (thrown : system.world.borrow index created = (.error error, world)) :
      Effect system (.borrow index created)
        (system.update world index ((system.callback index).catchError error))
  | poll {index : ℕ} {message : PolledMessage} (here : (system.callback index).statement = .poll) :
      Effect system (.poll index message)
        (system.update system.world index ((system.callback index).polled message))
  | call {index : ℕ} {result : Bool} {pointer : Variable}
      (here : (system.callback index).statement.receiver = some pointer) :
      Effect system (.call index result)
        (system.update system.world index ((system.callback index).called result))
  | unborrow {index : ℕ} {pointer : Variable} {connection : Connection}
      (here : (system.callback index).statement.returned = some pointer)
      (stored : (system.callback index).pointer pointer = some connection) :
      Effect system (.unborrow index)
        (system.update (system.world.unborrow index connection) index
          ((system.callback index).handBack connection))
  | reply {index : ℕ} (here : (system.callback index).statement = .reply) :
      Effect system (.reply index)
        (system.update system.world index { system.callback index with statement := .receive })
  | receive {index : ℕ} {message : SessionMessage}
      (here : (system.callback index).statement = .receive) :
      Effect system (.receive index message)
        (system.update system.world index ((system.callback index).receiveMsg message))
  | post {index : ℕ} (here : (system.callback index).statement = .post) :
      Effect system (.post index)
        { system.update system.world index
            { system.callback index with statement := .lastThreadEnd } with
          cleanupO := index :: system.cleanupO }
  | leave {index : ℕ} (here : (system.callback index).statement = .leave) :
      Effect system (.leave index)
        (system.update (system.world.dropAll index) index
          { system.callback index with statement := .done, opflcon := none, opflcon2 := none })

theorem Effect.terminate {system : CallbackSystem} {label : CallbackLabel}
    (noPool : ∀ index created, label = .borrow index created → system.installed = false) :
    Effect system label system.terminate := .aside rfl rfl rfl id noPool

theorem callbackStep_effect {system next : CallbackSystem} {label : CallbackLabel}
    (stepped : callbackStep system label = some next) : Effect system label next := by
  unfold callbackStep at stepped
  split at stepped
  · cases stepped
  · cases label with
    | install created =>
        simp only [Option.ite_none_right_eq_some] at stepped
        obtain ⟨-, stepped⟩ := stepped
        split at stepped <;> cases stepped
        · exact .aside rfl rfl rfl (fun _ => rfl) (by simp)
        · exact .terminate (by simp)
    | connect index rejoin =>
        simp only [Option.ite_none_right_eq_some, Option.some.injEq] at stepped
        obtain ⟨idle, rfl⟩ := stepped
        exact .connect idle
    | borrow index created =>
        simp only [Option.ite_none_right_eq_some] at stepped
        obtain ⟨-, stepped⟩ := stepped
        split at stepped
        · rename_i here
          cases stepped
          split
          · rename_i installed
            unfold CallbackSystem.borrowFirst
            split
            · rename_i connection world lent
              exact .first here installed lent
            · rename_i error world thrown
              exact .refused (.inl here) thrown
          · rename_i noPool
            exact .terminate fun _ _ _ => by simpa using noPool
        · rename_i here
          cases stepped
          split
          · unfold CallbackSystem.borrowSecond
            split
            · rename_i connection world lent
              exact .second here lent
            · rename_i error world thrown
              exact .refused (.inr here) thrown
          · rename_i noPool
            exact .terminate fun _ _ _ => by simpa using noPool
        · cases stepped
    | poll index message =>
        simp only [Option.ite_none_right_eq_some, Option.some.injEq] at stepped
        obtain ⟨here, rfl⟩ := stepped
        exact .poll here
    | call index result =>
        obtain ⟨pointer, here, rfl⟩ := Option.map_eq_some_iff.mp stepped
        split
        · exact .call here
        · exact .terminate (by simp)
    | unborrow index =>
        obtain ⟨pointer, here, rfl⟩ := Option.map_eq_some_iff.mp stepped
        split
        · rename_i connection stored
          exact .unborrow here stored
        · exact .terminate (by simp)
    | reply index =>
        simp only [Option.ite_none_right_eq_some, Option.some.injEq] at stepped
        obtain ⟨here, rfl⟩ := stepped
        exact .reply here
    | receive index message =>
        simp only [Option.ite_none_right_eq_some, Option.some.injEq] at stepped
        obtain ⟨here, rfl⟩ := stepped
        exact .receive here
    | post index =>
        simp only [Option.ite_none_right_eq_some, Option.some.injEq] at stepped
        obtain ⟨here, rfl⟩ := stepped
        exact .post here
    | leave index =>
        simp only [Option.ite_none_right_eq_some, Option.some.injEq] at stepped
        obtain ⟨here, rfl⟩ := stepped
        exact .leave here

namespace PoolWorld

def holding (world : PoolWorld ℕ) (index : ℕ) (connection : Connection) : ℕ :=
  world.references.count ⟨index, connection, false⟩

variable {world next : PoolWorld ℕ} {index other : ℕ} {connection stored : Connection}

theorem borrow_ok_references {created : Option Connection}
    (lent : world.borrow index created = (.ok connection, next)) :
    next.references = ⟨index, connection, false⟩ :: world.references := by
  unfold borrow at lent
  split at lent <;> cases lent
  rfl

theorem borrow_error_references {created : Option Connection} {error : BorrowError}
    (thrown : world.borrow index created = (.error error, next)) :
    next.references = world.references := by
  unfold borrow at thrown
  split at thrown <;> cases thrown
  rfl

theorem holding_borrow_self {created : Option Connection}
    (lent : world.borrow index created = (.ok connection, next)) :
    next.holding index stored = world.holding index stored + [connection].count stored := by
  rw [holding, borrow_ok_references lent, holding, List.count_cons]
  by_cases same : connection = stored <;> simp [same]

theorem holding_borrow_other (different : other ≠ index) {created : Option Connection}
    (lent : world.borrow index created = (.ok connection, next)) :
    next.holding other stored = world.holding other stored := by
  rw [holding, borrow_ok_references lent, holding, List.count_cons]
  simp [different.symm]

theorem holding_borrow_error {created : Option Connection} {error : BorrowError}
    (thrown : world.borrow index created = (.error error, next)) :
    next.holding other stored = world.holding other stored := by
  rw [holding, borrow_error_references thrown, holding]

theorem holding_overwrite_self (old : Option Connection) :
    world.holding index stored ≤
      (world.overwrite index old).holding index stored + old.toList.count stored := by
  cases old with
  | none => simp [overwrite]
  | some connection =>
      simp only [overwrite, drop, holding, List.count_erase, Option.toList_some]
      by_cases same : connection = stored
      · simp only [same, beq_self_eq_true, if_true, List.count_singleton_self]
        omega
      · simp [same]

theorem holding_overwrite_other (different : other ≠ index) (old : Option Connection) :
    (world.overwrite index old).holding other stored = world.holding other stored := by
  cases old with
  | none => rfl
  | some connection => simp [overwrite, drop, holding, List.count_erase, different.symm]

theorem holding_unborrow_self :
    world.holding index stored ≤
      (world.unborrow index connection).holding index stored + [connection].count stored := by
  simp only [unborrow, holding, List.count_cons, List.count_erase]
  by_cases same : connection = stored
  · simp only [same, beq_self_eq_true, if_true]
    omega
  · simp [same]

theorem holding_unborrow_other (different : other ≠ index) :
    (world.unborrow index connection).holding other stored = world.holding other stored := by
  simp [unborrow, holding, List.count_erase, different.symm]

theorem holding_dropAll_other (different : other ≠ index) :
    (world.dropAll index).holding other stored = world.holding other stored := by
  simp [dropAll, holding, List.count_filter, different]

end PoolWorld

namespace Statement

def needs : Statement → List Variable
  | idle | borrowFirst | poll | leave | done => []
  | borrowSecond | earlyUnborrow | threadEnd | commitData | unborrow | post | lastThreadEnd =>
      [.opflcon]
  | _ => [.opflcon, .opflcon2]

def keeps : Statement → List Variable
  | earlyUnborrow | threadEnd | commitData | unborrow => [.opflcon]
  | leave | done => []
  | _ => [.opflcon, .opflcon2]

theorem keeps_sublist (statement : Statement) :
    statement.keeps.Sublist [.opflcon, .opflcon2] := by
  cases statement <;> decide

theorem keeps_of_used {statement : Statement} {pointer : Variable}
    (used : statement.receiver = some pointer ∨ statement.returned = some pointer) :
    pointer ∈ statement.keeps := by
  rcases used with here | here <;> cases statement <;> cases here <;> decide

theorem keeps_afterCall {statement : Statement} {pointer : Variable}
    (here : statement.receiver = some pointer) (rejoin result : Bool) :
    (statement.afterCall rejoin result).keeps.Sublist statement.keeps := by
  cases statement <;> cases here <;> cases rejoin <;> cases result <;> decide

theorem keeps_afterUnborrow {statement : Statement} {pointer : Variable}
    (here : statement.returned = some pointer) :
    (statement.afterUnborrow.keeps ++ [pointer]).Sublist statement.keeps := by
  cases statement <;> cases here <;> decide

theorem needs_of_receiver {statement : Statement} {pointer : Variable}
    (here : statement.receiver = some pointer) : pointer ∈ statement.needs := by
  cases statement <;> cases here <;> decide

theorem needs_of_returned {statement : Statement} {pointer : Variable}
    (here : statement.returned = some pointer) : pointer ∈ statement.needs := by
  cases statement <;> cases here <;> decide

theorem needs_afterCall {statement : Statement} {pointer : Variable}
    (here : statement.receiver = some pointer) (rejoin result : Bool) :
    (statement.afterCall rejoin result).needs ⊆ statement.needs := by
  cases statement <;> cases here <;> cases rejoin <;> cases result <;> decide

/-- Only `ThreadInit` is followed by a poll, and no call by a `borrow`. -/
theorem afterCall_cases {statement : Statement} {pointer : Variable}
    (here : statement.receiver = some pointer) (rejoin result : Bool) :
    (statement.afterCall rejoin result = poll → statement = threadInit) ∧
      statement.afterCall rejoin result ≠ idle ∧
      statement.afterCall rejoin result ≠ borrowFirst ∧
      statement.afterCall rejoin result ≠ borrowSecond := by
  cases statement <;> cases here <;> cases rejoin <;> cases result <;> decide

theorem afterUnborrow_cases (statement : Statement) :
    statement.afterUnborrow = earlyUnborrow ∨ statement.afterUnborrow = threadEnd ∨
      statement.afterUnborrow = leave := by
  cases statement <;> simp [afterUnborrow]

theorem needs_afterUnborrow {statement : Statement} {pointer : Variable}
    (here : statement.returned = some pointer) :
    statement.afterUnborrow.needs ⊆ statement.needs := by
  cases statement <;> cases here <;> decide

end Statement

namespace Callback

attribute [local simp] Statement.needs

def owed (callback : Callback) : List Connection :=
  callback.statement.keeps.filterMap callback.pointer

structure Ready (callback : Callback) : Prop where
  pointers : ∀ pointer ∈ callback.statement.needs, (callback.pointer pointer).isSome
  acquired : callback.statement = .poll → callback.retry = false →
    ∀ pointer, (callback.pointer pointer).isSome
  retrying : callback.statement = .idle ∨ callback.statement = .borrowFirst ∨
    callback.statement = .borrowSecond → callback.retry = true

theorem Ready.initial : Ready initial where
  pointers pointer needed := by simp [Callback.initial] at needed
  acquired here := by simp [Callback.initial] at here
  retrying _ := rfl

variable {callback : Callback}

theorem Ready.connect (ready : callback.Ready) (idle : callback.statement = .idle)
    (rejoin : Bool) : (callback.connect rejoin).Ready where
  pointers pointer needed := by simp [Callback.connect] at needed
  acquired here := by simp [Callback.connect] at here
  retrying _ := ready.retrying (.inl idle)

theorem Ready.receiveFirst (ready : callback.Ready) (here : callback.statement = .borrowFirst)
    (connection : Connection) : (callback.receiveFirst connection).Ready where
  pointers pointer needed := by
    obtain rfl : pointer = .opflcon := by
      simpa [Callback.receiveFirst] using needed
    rfl
  acquired here := by simp [Callback.receiveFirst] at here
  retrying _ := ready.retrying (.inr (.inl here))

theorem Ready.receiveSecond (ready : callback.Ready) (here : callback.statement = .borrowSecond)
    (connection : Connection) : (callback.receiveSecond connection).Ready where
  pointers pointer _ := by
    cases pointer with
    | opflcon => exact ready.pointers .opflcon (by simp [here])
    | opflcon2 => rfl
  acquired here := by simp [Callback.receiveSecond] at here
  retrying here := by simp [Callback.receiveSecond] at here

theorem Ready.catchError (ready : callback.Ready)
    (here : callback.statement = .borrowFirst ∨ callback.statement = .borrowSecond)
    (error : BorrowError) : (callback.catchError error).Ready where
  pointers pointer needed := by simp [Callback.catchError] at needed
  acquired _ gotten := by
    have retry := ready.retrying (.inr here)
    simp [Callback.catchError, retry] at gotten
  retrying here := by simp [Callback.catchError] at here

theorem Ready.polled (ready : callback.Ready) (here : callback.statement = .poll)
    {message : PolledMessage}
    (stored : callback.stable = false → message ≠ .commit → callback.opflcon.isSome) :
    (callback.polled message).Ready := by
  have acquired := ready.acquired here
  unfold Callback.polled
  split
  · constructor
    · intro pointer needed
      cases retry : callback.retry with
      | true => simp [retry] at needed
      | false => exact acquired retry pointer
    · intro poll
      cases retry : callback.retry <;> simp [retry] at poll
    · intro early
      cases retry : callback.retry <;> simp [retry] at early
  · rename_i notCommit
    split
    · rename_i again
      exact ⟨by simp, by simp, fun _ => again.1⟩
    · rename_i ended
      constructor
      · intro pointer needed
        cases stable : callback.stable with
        | true =>
            have gotten : callback.retry = false := by simpa [stable] using ended
            exact acquired gotten pointer
        | false =>
            obtain rfl : pointer = .opflcon := by simpa [stable] using needed
            exact stored stable notCommit
      · intro poll
        cases stable : callback.stable <;> simp [stable] at poll
      · intro early
        cases stable : callback.stable <;> simp [stable] at early

theorem Ready.called (ready : callback.Ready) {pointer : Variable}
    (here : callback.statement.receiver = some pointer) (result : Bool) :
    (callback.called result).Ready := by
  constructor
  · intro other needed
    exact ready.pointers other (Statement.needs_afterCall here _ _ needed)
  · intro poll gotten other
    have start := (Statement.afterCall_cases here callback.rejoin result).1 poll
    apply ready.pointers
    rw [start]
    cases other <;> decide
  · rintro (early | early | early)
    · exact absurd early (Statement.afterCall_cases here callback.rejoin result).2.1
    · exact absurd early (Statement.afterCall_cases here callback.rejoin result).2.2.1
    · exact absurd early (Statement.afterCall_cases here callback.rejoin result).2.2.2

theorem Ready.handBack (ready : callback.Ready) {pointer : Variable}
    (here : callback.statement.returned = some pointer) (connection : Connection) :
    (callback.handBack connection).Ready := by
  have behind := Statement.afterUnborrow_cases callback.statement
  constructor
  · intro other needed
    exact ready.pointers other (Statement.needs_afterUnborrow here needed)
  · intro poll
    rcases behind with same | same | same <;> cases poll.symm.trans same
  · rintro (early | early | early) <;>
      rcases behind with same | same | same <;> cases early.symm.trans same

theorem Ready.receiveMsg (ready : callback.Ready) (here : callback.statement = .receive)
    (message : SessionMessage) : (callback.receiveMsg message).Ready := by
  have both : ∀ pointer, (callback.pointer pointer).isSome := fun pointer =>
    ready.pointers pointer (by rw [here]; cases pointer <;> decide)
  cases message with
  | publish => exact ⟨fun pointer _ => both pointer, by simp [Callback.receiveMsg],
      by simp [Callback.receiveMsg]⟩
  | commit punishment =>
      cases punishment <;> exact ⟨fun pointer _ => both pointer, by simp [Callback.receiveMsg],
        by simp [Callback.receiveMsg]⟩

/-- At the other statements a worker only goes on, with less to come. -/
theorem Ready.goOn (ready : callback.Ready) {statement : Statement}
    (fewer : statement.needs ⊆ callback.statement.needs) (noPoll : statement ≠ .poll)
    (behind : statement ≠ .idle ∧ statement ≠ .borrowFirst ∧ statement ≠ .borrowSecond) :
    ({ callback with statement := statement } : Callback).Ready where
  pointers pointer needed := ready.pointers pointer (fewer needed)
  acquired poll := absurd poll noPoll
  retrying early := by
    rcases early with same | same | same
    · exact absurd same behind.1
    · exact absurd same behind.2.1
    · exact absurd same behind.2.2

theorem Ready.leave (callback : Callback) :
    ({ callback with statement := .done, opflcon := none, opflcon2 := none } : Callback).Ready :=
  ⟨by simp, by simp, by simp⟩

theorem mem_owed {pointer : Variable} {connection : Connection}
    (used : callback.statement.receiver = some pointer ∨
      callback.statement.returned = some pointer)
    (stored : callback.pointer pointer = some connection) : connection ∈ callback.owed :=
  List.mem_filterMap.mpr ⟨pointer, Statement.keeps_of_used used, stored⟩

/-- A worker that goes on with the same pointers owes no more than before. -/
theorem owed_sublist {after : Callback} (same : after.pointer = callback.pointer)
    (fewer : after.statement.keeps.Sublist callback.statement.keeps) :
    after.owed.Sublist callback.owed := by
  unfold owed
  rw [same]
  exact fewer.filterMap _

theorem owed_polled (here : callback.statement = .poll) (message : PolledMessage) :
    (callback.polled message).owed.Sublist callback.owed := by
  have pointers : (callback.polled message).pointer = callback.pointer := by
    unfold polled
    split
    · rfl
    · split <;> rfl
  apply owed_sublist pointers
  rw [here]
  exact Statement.keeps_sublist _

theorem owed_called {pointer : Variable} (here : callback.statement.receiver = some pointer)
    (result : Bool) : (callback.called result).owed.Sublist callback.owed :=
  owed_sublist rfl (Statement.keeps_afterCall here _ _)

theorem owed_receiveMsg (here : callback.statement = .receive) (message : SessionMessage) :
    (callback.receiveMsg message).owed.Sublist callback.owed := by
  apply owed_sublist
  · cases message <;> rfl
  · rw [here]
    exact Statement.keeps_sublist _

theorem owed_handBack {pointer : Variable} {connection : Connection}
    (here : callback.statement.returned = some pointer)
    (stored : callback.pointer pointer = some connection) :
    ((callback.handBack connection).owed ++ [connection]).Sublist callback.owed := by
  have sublist := (Statement.keeps_afterUnborrow here).filterMap callback.pointer
  have single : [pointer].filterMap callback.pointer = [connection] := by simp [stored]
  rw [List.filterMap_append, single] at sublist
  exact sublist

theorem owed_both (keeps : callback.statement.keeps = [.opflcon, .opflcon2]) :
    callback.owed = callback.opflcon.toList ++ callback.opflcon2.toList := by
  unfold owed
  rw [keeps]
  rcases callback with ⟨_, _ | _, _ | _⟩ <;> rfl

end Callback

namespace CallbackSystem

/-- Every worker has the pointers it is going to use, and the pool still lends
it what they store. -/
structure Sound (system : CallbackSystem) : Prop where
  ready : ∀ index, (system.callback index).Ready
  held : ∀ index connection,
    (system.callback index).owed.count connection ≤ system.world.holding index connection

variable {system : CallbackSystem}

theorem Sound.start : Sound start where
  ready _ := .initial
  held _ _ := Nat.zero_le _

theorem Sound.holdsPointer (sound : Sound system) {index : ℕ} {pointer : Variable}
    (used : (system.callback index).statement.receiver = some pointer ∨
      (system.callback index).statement.returned = some pointer) :
    system.HoldsPointer index pointer := by
  have needed : pointer ∈ (system.callback index).statement.needs :=
    used.elim Statement.needs_of_receiver Statement.needs_of_returned
  obtain ⟨connection, stored⟩ :=
    Option.isSome_iff_exists.mp ((sound.ready index).pointers pointer needed)
  refine ⟨connection, stored, List.count_pos_iff.mp ?_⟩
  have owed := List.count_pos_iff.mpr (Callback.mem_owed used stored)
  exact Nat.lt_of_lt_of_le owed (sound.held index connection)

/-- A worker that acts by itself, with the pool lending it what it owes. -/
theorem Sound.update (sound : Sound system) {world : PoolWorld ℕ} {index : ℕ}
    {callback : Callback} (ready : callback.Ready)
    (held : ∀ connection, callback.owed.count connection ≤ world.holding index connection)
    (others : ∀ other ≠ index, ∀ connection,
      world.holding other connection = system.world.holding other connection) :
    Sound (system.update world index callback) where
  ready other := by
    by_cases same : other = index
    · subst same
      simpa using ready
    · simpa [Function.update_of_ne same] using sound.ready other
  held other connection := by
    by_cases same : other = index
    · subst same
      simpa using held connection
    · rw [update_callback, Function.update_of_ne same, update_world, others other same]
      exact sound.held other connection

theorem Sound.goOn (sound : Sound system) {index : ℕ} {callback : Callback}
    (ready : callback.Ready) (less : callback.owed.Sublist (system.callback index).owed) :
    Sound (system.update system.world index callback) :=
  sound.update ready
    (fun connection => (less.count_le connection).trans (sound.held index connection))
    fun _ _ _ => rfl

theorem Sound.receive (sound : Sound system) {index : ℕ} {created : Option Connection}
    {connection : Connection} {world : PoolWorld ℕ} {old : Option Connection}
    (lent : system.world.borrow index created = (.ok connection, world))
    {callback : Callback} (ready : callback.Ready)
    (replaced : ∀ other, callback.owed.count other + old.toList.count other =
      (system.callback index).owed.count other + [connection].count other) :
    Sound (system.update (world.overwrite index old) index callback) := by
  refine sound.update ready (fun other => ?_) fun other different stored => ?_
  · have before := sound.held index other
    have counts := replaced other
    have kept : system.world.holding index other + [connection].count other ≤
        (world.overwrite index old).holding index other + old.toList.count other :=
      (PoolWorld.holding_borrow_self lent).symm.le.trans (PoolWorld.holding_overwrite_self old)
    omega
  · rw [PoolWorld.holding_overwrite_other different, PoolWorld.holding_borrow_other different lent]

theorem Sound.handBack (sound : Sound system) {index : ℕ} {pointer : Variable}
    {connection : Connection}
    (here : (system.callback index).statement.returned = some pointer)
    (stored : (system.callback index).pointer pointer = some connection) :
    Sound (system.update (system.world.unborrow index connection) index
      ((system.callback index).handBack connection)) := by
  refine sound.update ((sound.ready index).handBack here connection) (fun other => ?_)
    fun other different stored => PoolWorld.holding_unborrow_other different
  have before := sound.held index other
  have less := (Callback.owed_handBack here stored).count_le other
  have returned : system.world.holding index other ≤
      (system.world.unborrow index connection).holding index other + [connection].count other :=
    PoolWorld.holding_unborrow_self
  rw [List.count_append] at less
  omega

/-- The start of the pool comes before the first `borrow`, and no worker goes on
without a first connection once it has seen that there will be none. -/
def Orderly (system : CallbackSystem) : CallbackLabel → CallbackSystem → Prop
  | .borrow _ _, _ => system.installed = true
  | .poll index message, _ => (system.callback index).stable = false → message ≠ .commit →
      (system.callback index).opflcon.isSome
  | _, _ => True

instance Orderly.decidable (system : CallbackSystem) (label : CallbackLabel)
    (next : CallbackSystem) : Decidable (system.Orderly label next) := by
  cases label <;> unfold Orderly <;> infer_instance

theorem Sound.step (sound : Sound system) {label : CallbackLabel} {next : CallbackSystem}
    (orderly : system.Orderly label next) (effect : Effect system label next) : Sound next := by
  cases effect with
  | aside callbacks posts references installed noPool =>
      refine ⟨fun index => ?_, fun index connection => ?_⟩
      · rw [callbacks]
        exact sound.ready index
      · rw [callbacks, PoolWorld.holding, references]
        exact sound.held index connection
  | connect idle =>
      refine sound.goOn ((sound.ready _).connect idle _) (Callback.owed_sublist rfl ?_)
      rw [idle]
      exact Statement.keeps_sublist _
  | first here installed lent =>
      refine sound.receive lent ((sound.ready _).receiveFirst here _) fun other => ?_
      rw [Callback.owed_both rfl, Callback.owed_both (by rw [here]; rfl), List.count_append,
        List.count_append]
      simp only [Callback.receiveFirst, Option.toList_some]
      omega
  | second here lent =>
      refine sound.receive lent ((sound.ready _).receiveSecond here _) fun other => ?_
      rw [Callback.owed_both rfl, Callback.owed_both (by rw [here]; rfl), List.count_append,
        List.count_append]
      simp only [Callback.receiveSecond, Option.toList_some]
      omega
  | @refused index created error world here thrown =>
      refine sound.update ((sound.ready index).catchError here error) (fun connection => ?_)
        fun other different connection => PoolWorld.holding_borrow_error thrown
      have less : ((system.callback index).catchError error).owed.Sublist
          (system.callback index).owed := by
        have pointers : ((system.callback index).catchError error).pointer =
            (system.callback index).pointer := rfl
        apply Callback.owed_sublist pointers
        rcases here with same | same <;> rw [same] <;> exact Statement.keeps_sublist _
      rw [PoolWorld.holding_borrow_error thrown]
      exact (less.count_le connection).trans (sound.held index connection)
  | poll here =>
      exact sound.goOn ((sound.ready _).polled here orderly) (Callback.owed_polled here _)
  | call here => exact sound.goOn ((sound.ready _).called here _) (Callback.owed_called here _)
  | unborrow here stored => exact sound.handBack here stored
  | reply here =>
      refine sound.goOn ((sound.ready _).goOn ?_ (by decide) (by decide))
        (Callback.owed_sublist rfl ?_) <;> rw [here]
      · decide
      · exact Statement.keeps_sublist _
  | receive here =>
      exact sound.goOn ((sound.ready _).receiveMsg here _) (Callback.owed_receiveMsg here _)
  | @post index here =>
      have same : Sound (system.update system.world index
          { system.callback index with statement := .lastThreadEnd }) := by
        refine sound.goOn ((sound.ready _).goOn ?_ (by decide) (by decide))
          (Callback.owed_sublist rfl ?_) <;> rw [here]
        · decide
        · exact Statement.keeps_sublist _
      exact ⟨same.ready, same.held⟩
  | leave here =>
      refine sound.update (.leave _) (fun connection => Nat.zero_le _)
        fun other different connection => PoolWorld.holding_dropAll_other different

theorem Sound.allowed (sound : Sound system) {label : CallbackLabel} {next : CallbackSystem}
    (orderly : system.Orderly label next) : system.Allowed label := by
  cases label with
  | borrow => exact orderly
  | call => exact fun pointer here => sound.holdsPointer (.inl here)
  | unborrow => exact fun pointer here => sound.holdsPointer (.inr here)
  | _ => trivial

end CallbackSystem

section Endings

/-- How many Commits a worker has consumed and how many messages it has posted,
from its statement. -/
def Statement.tally : Statement → List (ℕ × ℕ)
  | earlyThreadEnd | earlyUnborrow2 | earlyUnborrow | punishGetBanData | punishWriteBanData
  | punishCommitData | unborrow2 | threadEnd | commitData | unborrow => [(1, 0)]
  | lastThreadEnd => [(0, 1)]
  | leave | done => [(1, 0), (0, 1)]
  | _ => [(0, 0)]

theorem Statement.tally_afterCall {statement : Statement} {pointer : Variable}
    (here : statement.receiver = some pointer) (rejoin result : Bool) :
    statement.tally ⊆ (statement.afterCall rejoin result).tally := by
  cases statement <;> cases here <;> cases rejoin <;> cases result <;> decide

theorem Statement.tally_afterUnborrow {statement : Statement} {pointer : Variable}
    (here : statement.returned = some pointer) :
    statement.tally ⊆ statement.afterUnborrow.tally := by
  cases statement <;> cases here <;> decide

def Callback.Tallied (callback : Callback) (posts : ℕ) : Prop :=
  (callback.consumed, posts) ∈ callback.statement.tally

theorem Callback.Tallied.polled {callback : Callback} {posts : ℕ}
    (tallied : callback.Tallied posts) (here : callback.statement = .poll)
    (message : PolledMessage) : (callback.polled message).Tallied posts := by
  have none : callback.consumed = 0 ∧ posts = 0 := by
    simpa [Callback.Tallied, here, Statement.tally] using tallied
  unfold Callback.polled Callback.Tallied
  rw [none.1, none.2]
  split
  · cases callback.retry <;> simp [Statement.tally]
  · split
    · simp [Statement.tally]
    · cases callback.stable <;> simp [Statement.tally]

theorem Callback.Tallied.receiveMsg {callback : Callback} {posts : ℕ}
    (tallied : callback.Tallied posts) (here : callback.statement = .receive)
    (message : SessionMessage) : (callback.receiveMsg message).Tallied posts := by
  have none : callback.consumed = 0 ∧ posts = 0 := by
    simpa [Callback.Tallied, here, Statement.tally] using tallied
  unfold Callback.receiveMsg Callback.Tallied
  rcases message with _ | ⟨_ | _⟩ <;> simp [none, Statement.tally]

namespace CallbackSystem

def Tallied (system : CallbackSystem) : Prop :=
  ∀ index, (system.callback index).Tallied (system.cleanupO.count index)

variable {system : CallbackSystem}

theorem Tallied.update (tallied : Tallied system) {world : PoolWorld ℕ} {index : ℕ}
    {callback : Callback} (own : callback.Tallied (system.cleanupO.count index)) :
    Tallied (system.update world index callback) := by
  intro other
  by_cases same : other = index
  · subst same
    simpa using own
  · simpa [Function.update_of_ne same] using tallied other

theorem Tallied.step (tallied : Tallied system) {label : CallbackLabel} {next : CallbackSystem}
    (effect : Effect system label next) : Tallied next := by
  -- a statement that consumes and posts nothing
  have goOn : ∀ {index : ℕ} {callback : Callback} {world : PoolWorld ℕ},
      callback.consumed = (system.callback index).consumed →
      (system.callback index).statement.tally ⊆ callback.statement.tally →
      Tallied (system.update world index callback) := by
    intro index callback world same more
    apply tallied.update
    unfold Callback.Tallied
    rw [same]
    exact more (tallied index)
  cases effect with
  | aside callbacks posts references installed noPool =>
      intro index
      rw [callbacks, posts]
      exact tallied index
  | connect idle => exact goOn rfl (by rw [idle]; exact fun _ member => member)
  | first here installed lent => exact goOn rfl (by rw [here]; exact fun _ member => member)
  | second here lent => exact goOn rfl (by rw [here]; exact fun _ member => member)
  | refused here thrown =>
      refine goOn rfl ?_
      rcases here with same | same <;> rw [same] <;> exact fun _ member => member
  | poll here => exact tallied.update ((tallied _).polled here _)
  | call here => exact goOn rfl (Statement.tally_afterCall here _ _)
  | unborrow here stored => exact goOn rfl (Statement.tally_afterUnborrow here)
  | reply here => exact goOn rfl (by rw [here]; exact fun _ member => member)
  | receive here => exact tallied.update ((tallied _).receiveMsg here _)
  | @post index here =>
      intro other
      by_cases same : other = index
      · subst same
        have none := tallied other
        simp only [Callback.Tallied, here, Statement.tally, List.mem_singleton,
          Prod.mk.injEq] at none
        simp [Callback.Tallied, Statement.tally, none]
      · simpa [Function.update_of_ne same, List.count_cons_of_ne (Ne.symm same)]
          using tallied other
  | leave here => exact goOn rfl (by rw [here]; exact fun _ member => member)

theorem Tallied.ended (tallied : Tallied system) {index : ℕ}
    (done : (system.callback index).statement = .done) : system.Ended index := by
  have counts := tallied index
  rw [Callback.Tallied, done] at counts
  simpa [Ended, Statement.tally] using counts

end CallbackSystem

end Endings

open CallbackSystem

/-- In an orderly run every worker borrows from a pool, uses only what it holds,
and ends by a Commit or by one message to `CLEANUP_O`. -/
theorem workers_safe {labels : List CallbackLabel} {system : CallbackSystem}
    (orderly : Along callbackStep Orderly start labels)
    (ran : run callbackStep start labels = some system) :
    Along callbackStep (fun before label _ => before.Allowed label) start labels ∧
      ∀ index, (system.callback index).statement = .done → system.Ended index := by
  constructor
  · refine along_of_along Sound (fun before label after sound orderly stepped => ?_) .start orderly
    exact ⟨sound.step orderly (callbackStep_effect stepped), sound.allowed orderly⟩
  · have tallied : Tallied system :=
      run_invariant Tallied
        (fun before label after tallied stepped => tallied.step (callbackStep_effect stepped))
        (fun index => List.mem_singleton.mpr rfl) ran
    exact fun index done => tallied.ended done

/-- A worker that goes on without a first connection uses it in the end. -/
theorem unsafe_of_disorderly {system next : CallbackSystem} {index : ℕ} {message : PolledMessage}
    (stepped : callbackStep system (.poll index message) = some next)
    (disorderly : ¬system.Orderly (.poll index message) next) :
    ∃ posted, callbackStep next (.post index) = some posted ∧
      ¬posted.Allowed (.call index true) := by
  simp only [Orderly, Classical.not_imp] at disorderly
  obtain ⟨unstable, notCommit, notSet⟩ := disorderly
  unfold callbackStep at stepped
  split at stepped
  · cases stepped
  · rename_i running
    simp only [Option.ite_none_right_eq_some, Option.some.injEq] at stepped
    obtain ⟨here, rfl⟩ := stepped
    have going : (system.callback index).polled message =
        { system.callback index with statement := .post } := by
      simp [Callback.polled, notCommit, unstable]
    have alive : ¬(system.update system.world index
        ((system.callback index).polled message)).terminated = true := running
    have waiting : ((system.update system.world index
        ((system.callback index).polled message)).callback index).statement = .post := by
      simp [going]
    refine ⟨_, (if_neg alive).trans (if_pos waiting), fun allowed => ?_⟩
    obtain ⟨connection, stored, -⟩ := allowed .opflcon (by simp [Statement.receiver])
    have empty : (system.callback index).opflcon = none := by simpa using notSet
    simp [Callback.pointer, going, empty] at stored

def acquisition (index : ℕ) : List CallbackLabel :=
  [.connect index false, .borrow index none, .borrow index none, .call index true,
    .poll index .none]

def session (index : ℕ) : List CallbackLabel :=
  acquisition index ++
    [.call index true, .call index true, .call index true, .call index true, .call index true,
      .reply index, .receive index .publish, .call index true,
      .receive index (.commit false), .unborrow index, .call index true, .call index true,
      .unborrow index, .leave index]

theorem workers_safe_session :
    ∃ system, run callbackStep start (.install (List.range 50) :: session 0) = some system ∧
      (system.callback 0).statement = .done ∧ system.Ended 0 := by
  have ends : (run callbackStep start (.install (List.range 50) :: session 0)).map
      (fun system => (system.callback 0).statement) = some .done := by decide +kernel
  obtain ⟨system, ran, done⟩ := Option.map_eq_some_iff.mp ends
  have orderly : Along callbackStep Orderly start
      (.install (List.range 50) :: session 0) := by decide +kernel
  exact ⟨system, ran, done, (workers_safe orderly ran).2 0 done⟩

/-- The pool is exhausted, one of its connections was abandoned, and the
database is down when the last worker asks for its first connection. -/
def outage : List CallbackLabel :=
  .install (List.range 50) :: (List.range 25).flatMap acquisition ++
    [.call 0 false, .post 0, .call 0 true, .leave 0,
      .connect 25 false, .borrow 25 none, .poll 25 .none, .post 25, .call 25 true]

/-- The last `ThreadEnd` is called on a pointer that was never set. -/
theorem outage_unsafe :
    ¬∀ (labels : List CallbackLabel) (system : CallbackSystem),
      run callbackStep start labels = some system →
        Along callbackStep (fun before label _ => before.Allowed label) start labels ∧
          ∀ index, (system.callback index).statement = .done → system.Ended index := by
  intro safe
  have ends : (run callbackStep start outage).isSome = true := by decide +kernel
  obtain ⟨system, ran⟩ := Option.isSome_iff_exists.mp ends
  have allowed := (safe outage system ran).1
  have before : (run callbackStep start outage.dropLast).map (fun system =>
      ((system.callback 25).statement, (system.callback 25).opflcon)) =
        some (.lastThreadEnd, none) := by decide +kernel
  obtain ⟨middle, reached, here⟩ := Option.map_eq_some_iff.mp before
  simp only [Prod.mk.injEq] at here
  have split : outage = outage.dropLast ++ [.call 25 true] := rfl
  rw [split] at ran allowed
  rw [run_append, reached, Option.bind_some, run_cons] at ran
  obtain ⟨next, stepped, -⟩ := Option.bind_eq_some_iff.mp ran
  have last := ((along_append.mp allowed).2 middle reached next stepped).1
  obtain ⟨connection, stored, -⟩ := last .opflcon (by rw [here.1]; rfl)
  rw [Callback.pointer, here.2] at stored
  cases stored

end OperationFrontLine.Pool
