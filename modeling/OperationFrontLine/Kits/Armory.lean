import OperationFrontLine.Identity.Tables

/-!
# The kit table and its queue

Requests and disconnections append to `PKS_SERVER_KIT_QUEUE`; the server kit
thread takes one entry at a time and changes `PKS_KIT_TABLE`, one statement after
the other.  The table is two maps here: a kit's variable holds a number, a
player's variable `P<uid>KIT` a name.  Both are looked up by the folded name, and a
request for a kit named like a player's variable compares a string with 0, which
stops that statement as an unknown name does.
-/

namespace OperationFrontLine.Kits

open OperationFrontLine.Library
open OperationFrontLine.Identity

/-- `WestDefaultKit` and `EastDefaultKit`, which `PKS_LoadKits` leaves out. -/
def isDefault (kitName : Text) : Bool :=
  fold kitName = fold "WestDefaultKit".toList ∨ fold kitName = fold "EastDefaultKit".toList

/-- `PKS_KitActionUpdater`: the first kit of a name sets the stock to its limit. -/
def kitActionUpdater (stock : Text → Option ℤ) (kit : Text × ℕ) : Text → Option ℤ :=
  if (stock (fold kit.1)).isSome then stock
  else Function.update stock (fold kit.1) (some kit.2)

def loadKits (kits : List (Text × ℕ)) : Text → Option ℤ :=
  (kits.filter fun kit => !isDefault kit.1).foldl kitActionUpdater fun _ => none

/-- An element of the queue that is not the mark `-1`. -/
inductive Entry where
  | setKit (id kitName uid : Text)
  | disconnectKit (uid : Text)
  deriving DecidableEq, Repr

/-- What a drop is followed by: `PKS_SetKit` gives the player the kit it took from the
stock, `PKS_DisconnectKit` clears the player's variable. -/
inductive Rest where
  | give (kitName : Text)
  | clear
  deriving DecidableEq, Repr

/-- The next statement of the server kit thread. -/
inductive Thread where
  /-- `_executeState = PKS_SERVER_KIT_QUEUE select 0`, once the queue is not empty -/
  | select
  /-- the `switch` on the entry -/
  | dispatch (entry : Entry)
  /-- `if (P<uid>KIT == _kitName) exitWith {}` -/
  | exitIfHeld (kitName uid : Text)
  /-- `if ((_table getVariable _kitName) > 0) then` -/
  | ifAvailable (kitName uid : Text)
  /-- `_table setVariable [_kitName, … - 1]` -/
  | take (kitName uid : Text)
  /-- `if (!isNil P<uid>KIT) then`, with `_lastKitName` read -/
  | dropKit (uid : Text) (rest : Rest)
  /-- `_table setVariable [_lastKitName, … + 1]` -/
  | putBack (lastKitName uid : Text) (rest : Rest)
  /-- `_table setVariable [P<uid>KIT, …]`, after the drop -/
  | assign (uid : Text) (rest : Rest)
  /-- `PKS_SERVER_KIT_QUEUE set [0, -1]` -/
  | mark
  /-- `PKS_SERVER_KIT_QUEUE = PKS_SERVER_KIT_QUEUE - [-1]` -/
  | filter
  deriving DecidableEq, Repr

structure State where
  /-- `PKS_SERVER_KIT_QUEUE`; `none` is the mark `-1` -/
  queue : List (Option Entry)
  /-- the kits' variables of `PKS_KIT_TABLE` -/
  stock : Text → Option ℤ
  /-- the variables `P<uid>KIT`, by UID -/
  holder : Text → Option Text
  directory : Directory
  thread : Thread

def State.start (kits : List (Text × ℕ)) : State where
  queue := []
  stock := loadKits kits
  holder _ := none
  directory := .initial
  thread := .select

/-- `PCS_TempID` of a string: the owner number of the client with that ID. -/
def tempId (tables : Tables) (id : Text) : ℤ :=
  match tables.idToTemp (.text id) with
  | .number owner => owner
  | .text _ => 0

inductive Event where
  /-- `PKS_RequestSetKit` with the client's ID and the kit it wants -/
  | request (id kitName : Text)
  /-- a client connects or disconnects -/
  | connection (event : Identity.Event)
  /-- the server kit thread takes its next statement -/
  | thread
  deriving DecidableEq, Repr

namespace State

def requestSetKit (state : State) (id kitName : Text) : State :=
  if 0 < tempId state.directory.tables id then
    { state with queue := state.queue ++
        [some (.setKit id kitName (state.directory.tables.idToUid (.text id)).print)] }
  else state

def attemptDisconnectKit (state : State) (uid : Text) : State :=
  { state with queue := state.queue ++ [some (.disconnectKit uid)] }

/-- `PCS_OnConnected` and `PCS_OnDisconnected`, whose handlers run in reverse: the
entry is appended before `PCS_RemoveConnection` runs. -/
def connection (state : State) (event : Identity.Event) : Option State :=
  (state.directory.step event).map fun directory =>
    match event with
    | .connect _ _ _ => { state with directory := directory }
    | .disconnect uid => { state.attemptDisconnectKit uid with directory := directory }

/-- The next statement of the server kit thread; it waits on an empty queue. -/
def threadStep (state : State) : Option State :=
  match state.thread with
  | .select =>
      match state.queue with
      | [] => none
      | none :: _ => some { state with thread := .mark }
      | some entry :: _ => some { state with thread := .dispatch entry }
  | .dispatch (.setKit _ kitName uid) => some { state with thread := .exitIfHeld kitName uid }
  | .dispatch (.disconnectKit uid) => some { state with thread := .dropKit uid .clear }
  | .exitIfHeld kitName uid =>
      if (state.holder (fold uid)).map fold = some (fold kitName) then
        some { state with thread := .mark }
      else some { state with thread := .ifAvailable kitName uid }
  | .ifAvailable kitName uid =>
      match state.stock (fold kitName) with
      | some available =>
          if 0 < available then some { state with thread := .take kitName uid }
          else some { state with thread := .mark }
      | none => some { state with thread := .mark }
  | .take kitName uid =>
      some { state with
        stock := Function.update state.stock (fold kitName)
          ((state.stock (fold kitName)).map (· - 1))
        thread := .dropKit uid (.give kitName) }
  | .dropKit uid rest =>
      match state.holder (fold uid) with
      | some lastKitName => some { state with thread := .putBack lastKitName uid rest }
      | none => some { state with thread := .assign uid rest }
  | .putBack lastKitName uid rest =>
      some { state with
        stock := Function.update state.stock (fold lastKitName)
          ((state.stock (fold lastKitName)).map (· + 1))
        thread := .assign uid rest }
  | .assign uid (.give kitName) =>
      some { state with
        holder := Function.update state.holder (fold uid) (some kitName)
        thread := .mark }
  | .assign uid .clear =>
      some { state with
        holder := Function.update state.holder (fold uid) none
        thread := .mark }
  | .mark => some { state with queue := state.queue.set 0 none, thread := .filter }
  | .filter =>
      some { state with queue := state.queue.filter (· ≠ none), thread := .select }

def step (state : State) : Event → Option State
  | .request id kitName => some (state.requestSetKit id kitName)
  | .connection event => state.connection event
  | .thread => state.threadStep

end State

end OperationFrontLine.Kits
