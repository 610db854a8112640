import OperationFrontLine.Library.Run
import Mathlib.Data.List.Sort

/-!
# The connection pool

`ConnectionPool` keeps its free connections in a deque and the lent ones in a
`std::set`.  A connection is a `shared_ptr`; whether a lent connection was
abandoned is read off its reference count, so the model carries, beside the
pool, every `shared_ptr` that is still alive outside it.
-/

namespace OperationFrontLine.Pool

open OperationFrontLine.Library

/-- A `shared_ptr<Connection>`, named by the address it stores. -/
abbrev Connection := ℕ

inductive BorrowError where
  | connectionUnavailable
  | connectionImpossible
  deriving DecidableEq, Repr

structure ConnectionPool where
  poolSize : ℕ
  pool : List Connection
  borrowed : List Connection
  deriving DecidableEq, Repr

namespace ConnectionPool

/-- `std::set::insert`: the set is kept in the order of the addresses. -/
def setInsert (connection : Connection) (set : List Connection) : List Connection :=
  if connection ∈ set then set else set.orderedInsert (· ≤ ·) connection

/-- The constructor's loop; `create i` is the outcome of the `i`-th call of
`factory->create`, `none` when it throws. -/
def fill (create : ℕ → Option Connection) :
    (missing : ℕ) → (pool : List Connection) → Option (List Connection)
  | 0, pool => some pool
  | missing + 1, pool =>
      match create pool.length with
      | some connection => fill create missing (pool ++ [connection])
      | none => none

def construct (poolSize : ℕ) (create : ℕ → Option Connection) :
    Option ConnectionPool :=
  (fill create poolSize []).map fun pool => ⟨poolSize, pool, []⟩

/-- `unique` is `shared_ptr::unique` at the time of the call and `created` the
outcome of `factory->create`, should it be called. -/
def borrow (this : ConnectionPool) (unique : Connection → Bool)
    (created : Option Connection) : Except BorrowError Connection × ConnectionPool :=
  match this.pool with
  | [] =>
      -- the first connection of the set that nobody references any more
      match this.borrowed.find? unique with
      | some abandoned =>
          match created with
          | some connection =>
              (.ok connection,
                { this with
                  borrowed := setInsert connection (this.borrowed.erase abandoned) })
          | none => (.error .connectionImpossible, this)
      | none => (.error .connectionUnavailable, this)
  | connection :: rest =>
      (.ok connection,
        { this with pool := rest, borrowed := setInsert connection this.borrowed })

def unborrow (this : ConnectionPool) (connection : Connection) : ConnectionPool :=
  { this with
    pool := this.pool ++ [connection]
    borrowed := this.borrowed.erase connection }

end ConnectionPool

/-- A `shared_ptr` alive outside the pool.  `returned` tells that its holder
has already handed the connection back and merely still stores the pointer. -/
structure Reference (Holder : Type) where
  holder : Holder
  connection : Connection
  returned : Bool
  deriving DecidableEq, Repr

structure PoolWorld (Holder : Type) where
  pool : ConnectionPool
  references : List (Reference Holder)
  deriving DecidableEq, Repr

variable {Holder : Type}

namespace PoolWorld

def useCount (world : PoolWorld Holder) (connection : Connection) : ℕ :=
  world.pool.pool.count connection + world.pool.borrowed.count connection +
    world.references.countP (·.connection = connection)

def unique (world : PoolWorld Holder) (connection : Connection) : Bool :=
  world.useCount connection == 1

def lent (world : PoolWorld Holder) : List Connection :=
  (world.references.filter (!·.returned)).map (·.connection)

def borrow (world : PoolWorld Holder) (holder : Holder)
    (created : Option Connection) : Except BorrowError Connection × PoolWorld Holder :=
  match world.pool.borrow world.unique created with
  | (.ok connection, pool) =>
      (.ok connection, ⟨pool, ⟨holder, connection, false⟩ :: world.references⟩)
  | (.error error, pool) => (.error error, ⟨pool, world.references⟩)

variable [DecidableEq Holder]

/-- `holder` returns the connection but may go on storing the pointer. -/
def unborrow (world : PoolWorld Holder) (holder : Holder) (connection : Connection) :
    PoolWorld Holder :=
  ⟨world.pool.unborrow connection,
    ⟨holder, connection, true⟩ :: world.references.erase ⟨holder, connection, false⟩⟩

def drop (world : PoolWorld Holder) (reference : Reference Holder) : PoolWorld Holder :=
  { world with references := world.references.erase reference }

end PoolWorld

/-- What the holders do.  The outcome of `factory->create` belongs to the
label: it is `none` when the database refuses the connection. -/
inductive PoolOperation (Holder : Type) where
  | borrow (holder : Holder) (created : Option Connection)
  | unborrow (holder : Holder) (connection : Connection)
  | drop (reference : Reference Holder)
  deriving DecidableEq, Repr

/-- A new object never has the address of one that is still alive; a holder
returns only what it borrowed and has not returned yet. -/
def poolStep [DecidableEq Holder] (world : PoolWorld Holder) :
    PoolOperation Holder → Option (PoolWorld Holder)
  | .borrow holder created =>
      if ∀ connection ∈ created, world.useCount connection = 0 then
        some (world.borrow holder created).2
      else
        none
  | .unborrow holder connection =>
      if ⟨holder, connection, false⟩ ∈ world.references then
        some (world.unborrow holder connection)
      else
        none
  | .drop reference =>
      if reference ∈ world.references then some (world.drop reference) else none

end OperationFrontLine.Pool
