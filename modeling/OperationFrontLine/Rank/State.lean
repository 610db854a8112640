import Mathlib.Algebra.Order.Field.Basic
import Mathlib.Data.Nat.Factorial.Basic
import Mathlib.Data.Nat.Sqrt
import Mathlib.Data.Rat.Floor
import OperationFrontLine.Library.Script

/-!
# The state of the rank module

The global variables of `RankMain.sqf` with what the module reads from outside:
the clients of the connection tables, the clock, and the session threads of the
extension.  Numbers of the script engine are elements of an ordered field.
-/

namespace OperationFrontLine.Rank

open OperationFrontLine.Library

/-- The functions of the script engine on numbers. -/
structure Engine (Number : Type) where
  sqrt : Number → Number
  exp : Number → Number
  round : Number → Number

/-- Approximations on rational numbers, for running the module: the root to six
decimals, the exponential by forty terms of its series. -/
def Engine.rational : Engine ℚ where
  sqrt x := (⌊x * 10 ^ 12⌋.toNat.sqrt : ℚ) / 10 ^ 6
  exp x :=
    let series := ((List.range 40).map fun power => |x| ^ power / power.factorial).sum
    if x < 0 then 1 / series else series
  round x := ⌊x + 1 / 2⌋

/-- The value of a player's `_SIDE` variable, and the winner given to `EndGame`. -/
inductive Side where
  | west
  | east
  | independent
  deriving DecidableEq, Repr

inductive ShopSide where
  | W
  | E
  deriving DecidableEq, Repr

/-- `['W', 'E'] select (side == east)` -/
def Side.shopSide (side : Side) : ShopSide :=
  if side = .east then .E else .W

structure ShopVehicle (Number : Type) where
  category : ℕ
  price : Number
  deriving DecidableEq, Repr

structure Settings (Number : Type) where
  engine : Engine Number
  /-- `PCS_RNK_ON` -/
  ranked : Bool
  /-- `PCS_SHOP_VEHICLES_LIST_%1` -/
  vehicles : ShopSide → List (ShopVehicle Number)
  /-- The second component of every entry of `PCS_SHOP_CATEGORY_LIST`. -/
  categoryLimits : List ℤ

/-- The numbers of a record, which follow the UID in its array. -/
structure Account (Number : Type) where
  rank : Number
  level : Number
  matches' : Number
  wins : Number
  losses : Number
  kills : Number
  chickens : Number
  left : Number
  year : Number
  month : Number
  day : Number
  hour : Number
  minute : Number
  second : Number
  deriving DecidableEq, Repr

structure Record (Uid Number : Type) where
  uidName : Uid
  account : Account Number
  deriving DecidableEq, Repr

/-- The array `[input, output]` that `Connect` returns, named by the number
`PCS_RNK_LAST_TRD` given to that call. -/
abbrev Handle := ℕ

abbrev ClientId := ℕ

/-- The array under the UID of a connected player: record, handle and points. -/
structure Session (Uid Number : Type) where
  record : Record Uid Number
  handle : Handle
  points : Number
  deriving DecidableEq, Repr

/-- Set components of the record in place. -/
def Session.withAccount {Uid Number : Type} (session : Session Uid Number)
    (account : Account Number) : Session Uid Number :=
  { session with record := { session.record with account } }

/-- The value of a UID in `PCS_RNK_RECORDS`: once its player has left, only the
points remain. -/
inductive Slot (Uid Number : Type) where
  | session (session : Session Uid Number)
  | points (value : Number)
  deriving DecidableEq, Repr

structure PendingRecord (Uid Name : Type) where
  uid : Uid
  name : Name
  handle : Handle
  deriving DecidableEq, Repr

/-- A reply of `GetOutput`, less the UID that is its first component. -/
structure Answer (Number : Type) where
  account : Account Number
  banned : Number
  deriving DecidableEq, Repr

inductive ExtensionCall (Uid Number : Type) where
  | connect (handle : Handle) (uid : Uid) (rejoin : Bool)
  | getOutput (handle : Handle) (answer : Option (Answer Number))
  | publishAccount (handle : Handle) (record : Record Uid Number)
  | commit (handles : List (Handle × Bool))
  deriving DecidableEq, Repr

structure Client (Name : Type) where
  name : Name
  id : ClientId
  deriving DecidableEq, Repr

/-- The thread spawned by `PCS_SHOP_CreateVehicle`, which waits for the vehicle
to be abandoned; then `statements` counts the statements it has run. -/
structure ShopThread (Uid : Type) where
  side : ShopSide
  category : ℕ
  uid : Uid
  object : ℕ
  statements : ℕ
  deriving DecidableEq, Repr

structure Shop (Uid : Type) where
  /-- `SHOP_%1_%2`, by category and side -/
  count : ℕ → ShopSide → ℤ
  /-- `SHOP_E%1_%2`, by UID and side -/
  registered : Uid → ShopSide → Option ℕ
  /-- The vehicles that still exist; any other object is null. -/
  objects : List ℕ
  lastObject : ℕ
  threads : List (ShopThread Uid)

structure State (Uid Name Number : Type) where
  records : Uid → Option (Slot Uid Number)
  side : Uid → Option Side
  agreed : Uid → Bool
  /-- `%1_LPI`, the index that `pushBackUnique` gave -/
  lpi : Uid → Option ℤ
  /-- `none` stands for the -1 that marks an entry as done. -/
  pending : List (Option (PendingRecord Uid Name))
  active : List Uid
  west : List Uid
  east : List Uid
  publish : List (Uid × ClientId)
  lastThread : ℕ
  running : Bool
  realGameLength : ℕ
  clockStart : Bool
  shop : Shop Uid
  /-- `PCS_%1_CLIENT` and what hangs on it -/
  clients : Uid → Option (Client Name)
  /-- `PCS_%1_UID` -/
  uidOf : ClientId → Option Uid
  lastId : ClientId
  /-- The account name that the thread of a handle was started with. -/
  accountName : Handle → Option Uid
  calls : List (ExtensionCall Uid Number)

namespace State

variable {Uid Name Number : Type}

/-- The variables as `RankMain.sqf` initialises them. -/
def initial : State Uid Name Number where
  records _ := none
  side _ := none
  agreed _ := false
  lpi _ := none
  pending := []
  active := []
  west := []
  east := []
  publish := []
  lastThread := 0
  running := true
  realGameLength := 0
  clockStart := false
  shop := ⟨fun _ _ => 0, fun _ _ => none, [], 0, []⟩
  clients _ := none
  uidOf _ := none
  lastId := 0
  accountName _ := none
  calls := []

/-- The session under a UID; selecting from anything else is an error. -/
def session? (state : State Uid Name Number) (uid : Uid) : Option (Session Uid Number) :=
  match state.records uid with
  | some (.session session) => some session
  | _ => none

theorem session?_eq_some_iff {state : State Uid Name Number} {uid : Uid}
    {session : Session Uid Number} :
    state.session? uid = some session ↔ state.records uid = some (.session session) := by
  unfold session?
  split <;> simp_all

variable [DecidableEq Uid]

def setSlot (state : State Uid Name Number) (uid : Uid) (slot : Slot Uid Number) :
    State Uid Name Number :=
  { state with records := Function.update state.records uid (some slot) }

def call (state : State Uid Name Number) (made : ExtensionCall Uid Number) :
    State Uid Name Number :=
  { state with calls := state.calls ++ [made] }

end State

end OperationFrontLine.Rank
