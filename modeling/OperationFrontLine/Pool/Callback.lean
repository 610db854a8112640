import OperationFrontLine.Pool.Worker

/-!
# The whole of `mycallback`

A worker borrows its two connections, loads the account, answers, and writes
what the session publishes until a Commit arrives or the database fails.  One
step executes one statement, so that the workers and the start of the cleanup
thread interleave in every order.  What the calls read and write stays out:
a call to the database is its receiver and its result.
-/

namespace OperationFrontLine.Pool

open OperationFrontLine.Library

/-- The statement of `mycallback` that is executed next. -/
inductive Statement where
  | idle
  | borrowFirst
  | borrowSecond
  | threadInit
  /-- `receiveMsg(msg, false)` -/
  | poll
  -- a Commit was found while acquiring
  | earlyThreadEnd
  | earlyUnborrow2
  | earlyUnborrow
  | createAccount
  | getAccount
  | createBanData
  | getBanData
  /-- `if (stable && rejoin)` -/
  | writeBanData
  | commitBanData
  | reply
  /-- `receiveMsg(msg, true)` -/
  | receive
  /-- `WriteKills`, `WriteChickens` or `WriteAccount` -/
  | write
  -- a Commit with the punishment variable
  | punishGetBanData
  | punishWriteBanData
  | punishCommitData
  | unborrow2
  | threadEnd
  | commitData
  | unborrow
  /-- The message to `CLEANUP_O`. -/
  | post
  | lastThreadEnd
  | leave
  | done
  deriving DecidableEq, Repr

inductive Variable where
  | opflcon
  | opflcon2
  deriving DecidableEq, Repr

namespace Statement

def receiver : Statement → Option Variable
  | threadInit | earlyThreadEnd | createAccount | getAccount | write | threadEnd | commitData
  | lastThreadEnd => some .opflcon
  | createBanData | getBanData | writeBanData | commitBanData | punishGetBanData
  | punishWriteBanData | punishCommitData => some .opflcon2
  | _ => none

def returned : Statement → Option Variable
  | earlyUnborrow2 | unborrow2 => some .opflcon2
  | earlyUnborrow | unborrow => some .opflcon
  | _ => none

/-- The statement behind a call.  `ThreadInit` and `ThreadEnd` have no result. -/
def afterCall (rejoin : Bool) : Statement → (result : Bool) → Statement
  | threadInit, _ => poll
  | earlyThreadEnd, _ => earlyUnborrow2
  | createAccount, true => getAccount
  | getAccount, true => createBanData
  | createBanData, true => getBanData
  | getBanData, true => if rejoin then writeBanData else commitBanData
  | writeBanData, true => commitBanData
  | commitBanData, true => reply
  | write, true => receive
  | punishGetBanData, true => punishWriteBanData
  | punishWriteBanData, true => punishCommitData
  | punishCommitData, true => unborrow2
  | punishGetBanData, false | punishWriteBanData, false | punishCommitData, false => threadEnd
  | threadEnd, _ => commitData
  | commitData, true => unborrow
  | commitData, false => leave
  | lastThreadEnd, _ => leave
  -- `stable` is false: whatever comes before the message to `CLEANUP_O` is skipped
  | _, _ => post

def afterUnborrow : Statement → Statement
  | earlyUnborrow2 => earlyUnborrow
  | unborrow2 => threadEnd
  | _ => leave

end Statement

/-- A worker: the local variables of `mycallback`, and, for the record, which
connections it received from `borrow`, which it handed to `unborrow`, and how
many Commits it consumed. -/
structure Callback where
  statement : Statement
  opflcon : Option Connection
  opflcon2 : Option Connection
  retry : Bool
  stable : Bool
  rejoin : Bool
  received : List Connection
  handed : List Connection
  consumed : ℕ
  deriving DecidableEq, Repr

namespace Callback

def initial : Callback := ⟨.idle, none, none, true, true, false, [], [], 0⟩

def pointer (callback : Callback) : Variable → Option Connection
  | .opflcon => callback.opflcon
  | .opflcon2 => callback.opflcon2

def connect (callback : Callback) (rejoin : Bool) : Callback :=
  { callback with statement := .borrowFirst, rejoin := rejoin }

def receiveFirst (callback : Callback) (connection : Connection) : Callback :=
  { callback with
    statement := .borrowSecond
    opflcon := some connection
    received := connection :: callback.received }

def receiveSecond (callback : Callback) (connection : Connection) : Callback :=
  { callback with
    statement := .threadInit
    opflcon2 := some connection
    received := connection :: callback.received }

/-- The `catch` block: only `ConnectionImpossible` ends the retrying. -/
def catchError (callback : Callback) (error : BorrowError) : Callback :=
  { callback with statement := .poll, stable := decide (error ≠ .connectionImpossible) }

/-- A Commit ends the session; otherwise the loop condition decides. -/
def polled (callback : Callback) (message : PolledMessage) : Callback :=
  if message = .commit then
    { callback with
      statement := if callback.retry = false then .earlyThreadEnd else .leave
      consumed := callback.consumed + 1 }
  else if callback.retry = true ∧ callback.stable = true then
    { callback with statement := .borrowFirst }
  else
    { callback with statement := if callback.stable = true then .createAccount else .post }

def called (callback : Callback) (result : Bool) : Callback :=
  { callback with
    statement := callback.statement.afterCall callback.rejoin result
    retry := if callback.statement = .threadInit then false else callback.retry }

def handBack (callback : Callback) (connection : Connection) : Callback :=
  { callback with
    statement := callback.statement.afterUnborrow
    handed := connection :: callback.handed }

end Callback

inductive SessionMessage where
  | publish
  | commit (punishment : Bool)
  deriving DecidableEq, Repr

def Callback.receiveMsg (callback : Callback) : SessionMessage → Callback
  | .publish => { callback with statement := .write }
  | .commit punishment =>
      { callback with
        statement := if punishment then .punishGetBanData else .unborrow2
        consumed := callback.consumed + 1 }

/-- The workers, the pool they share and the output queue `CLEANUP_O`, as the
workers that posted there. -/
structure CallbackSystem where
  /-- `active911::mysql_pool` is set. -/
  installed : Bool
  /-- The process has ended: by `std::terminate`, or as a null pointer was used. -/
  terminated : Bool
  world : PoolWorld ℕ
  callback : ℕ → Callback
  cleanupO : List ℕ

inductive CallbackLabel where
  /-- `CleanupThreads` constructs the pool; the factory throws behind the last
  of the connections. -/
  | install (created : List Connection)
  /-- The request of `RVExtension` that spawns a worker. -/
  | connect (index : ℕ) (rejoin : Bool)
  | borrow (index : ℕ) (created : Option Connection)
  | poll (index : ℕ) (message : PolledMessage)
  | call (index : ℕ) (result : Bool)
  | unborrow (index : ℕ)
  | reply (index : ℕ)
  | receive (index : ℕ) (message : SessionMessage)
  | post (index : ℕ)
  | leave (index : ℕ)
  deriving DecidableEq, Repr

namespace CallbackSystem

def start : CallbackSystem := ⟨false, false, ⟨⟨50, [], []⟩, []⟩, fun _ => .initial, []⟩

def update (system : CallbackSystem) (world : PoolWorld ℕ) (index : ℕ) (callback : Callback) :
    CallbackSystem :=
  { system with world := world, callback := Function.update system.callback index callback }

def terminate (system : CallbackSystem) : CallbackSystem := { system with terminated := true }

/-- `opflcon = mysql_pool->borrow()` -/
def borrowFirst (system : CallbackSystem) (index : ℕ) (created : Option Connection) :
    CallbackSystem :=
  let callback := system.callback index
  match system.world.borrow index created with
  | (.ok connection, world) =>
      system.update (world.overwrite index callback.opflcon) index
        (callback.receiveFirst connection)
  | (.error error, world) => system.update world index (callback.catchError error)

/-- `opflcon2 = mysql_pool->borrow()` -/
def borrowSecond (system : CallbackSystem) (index : ℕ) (created : Option Connection) :
    CallbackSystem :=
  let callback := system.callback index
  match system.world.borrow index created with
  | (.ok connection, world) =>
      system.update (world.overwrite index callback.opflcon2) index
        (callback.receiveSecond connection)
  | (.error error, world) => system.update world index (callback.catchError error)

end CallbackSystem

def callbackStep (system : CallbackSystem) (label : CallbackLabel) : Option CallbackSystem :=
  if system.terminated = true then
    none
  else
    match label with
    | .install created =>
        if system.installed = false ∧ created.Nodup then
          match ConnectionPool.construct 50 fun i => created[i]? with
          | some pool =>
              some { system with installed := true, world := ⟨pool, system.world.references⟩ }
          | none => some system.terminate
        else
          none
    | .connect index rejoin =>
        if (system.callback index).statement = .idle then
          some (system.update system.world index ((system.callback index).connect rejoin))
        else
          none
    | .borrow index created =>
        if ∀ connection ∈ created, system.world.useCount connection = 0 then
          match (system.callback index).statement with
          | .borrowFirst =>
              some (if system.installed then system.borrowFirst index created
                else system.terminate)
          | .borrowSecond =>
              some (if system.installed then system.borrowSecond index created
                else system.terminate)
          | _ => none
        else
          none
    | .poll index message =>
        if (system.callback index).statement = .poll then
          some (system.update system.world index ((system.callback index).polled message))
        else
          none
    | .call index result =>
        (system.callback index).statement.receiver.map fun pointer =>
          if ((system.callback index).pointer pointer).isSome then
            system.update system.world index ((system.callback index).called result)
          else
            system.terminate
    | .unborrow index =>
        (system.callback index).statement.returned.map fun pointer =>
          match (system.callback index).pointer pointer with
          | some connection =>
              system.update (system.world.unborrow index connection) index
                ((system.callback index).handBack connection)
          | none => system.terminate
    | .reply index =>
        if (system.callback index).statement = .reply then
          some (system.update system.world index
            { system.callback index with statement := .receive })
        else
          none
    | .receive index message =>
        if (system.callback index).statement = .receive then
          some (system.update system.world index ((system.callback index).receiveMsg message))
        else
          none
    | .post index =>
        if (system.callback index).statement = .post then
          some { system.update system.world index
              { system.callback index with statement := .lastThreadEnd } with
            cleanupO := index :: system.cleanupO }
        else
          none
    | .leave index =>
        if (system.callback index).statement = .leave then
          some (system.update (system.world.dropAll index) index
            { system.callback index with statement := .done, opflcon := none, opflcon2 := none })
        else
          none

namespace CallbackSystem

section Update

variable (system : CallbackSystem) (world : PoolWorld ℕ) (index : ℕ) (callback : Callback)

@[simp]
theorem update_world : (system.update world index callback).world = world := rfl

@[simp]
theorem update_installed :
    (system.update world index callback).installed = system.installed := rfl

@[simp]
theorem update_cleanupO : (system.update world index callback).cleanupO = system.cleanupO := rfl

@[simp]
theorem update_callback : (system.update world index callback).callback =
    Function.update system.callback index callback := rfl

end Update

/-- A worker holds what it borrowed and neither returned nor lost the pointer to. -/
def Holds (system : CallbackSystem) (index : ℕ) (connection : Connection) : Prop :=
  ⟨index, connection, false⟩ ∈ system.world.references

def HoldsPointer (system : CallbackSystem) (index : ℕ) (pointer : Variable) : Prop :=
  ∃ connection, (system.callback index).pointer pointer = some connection ∧
    system.Holds index connection

/-- What a worker may do: borrow once there is a pool, and call or return a
connection that it holds. -/
def Allowed (system : CallbackSystem) : CallbackLabel → Prop
  | .borrow _ _ => system.installed = true
  | .call index _ => ∀ pointer ∈ (system.callback index).statement.receiver,
      system.HoldsPointer index pointer
  | .unborrow index => ∀ pointer ∈ (system.callback index).statement.returned,
      system.HoldsPointer index pointer
  | _ => True

/-- A worker ends by a Commit, or by one message to `CLEANUP_O`. -/
def Ended (system : CallbackSystem) (index : ℕ) : Prop :=
  (system.callback index).consumed = 1 ∧ system.cleanupO.count index = 0 ∨
    (system.callback index).consumed = 0 ∧ system.cleanupO.count index = 1

end CallbackSystem

end OperationFrontLine.Pool
