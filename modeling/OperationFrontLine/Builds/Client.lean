import OperationFrontLine.Library.Run
import OperationFrontLine.Library.Script

/-!
# The player's own work

A player builds, heals or repairs.  Key presses and menu actions only append to two queues, which
the handler of each frame empties; attempts to heal or repair come through the queue of atomic
calls.  The armory fills the kit again by itself when it is closed.  The three activities
themselves are scheduled scripts, which stop between any two of their statements.
`PKS_PLAYER_IS_BUSY` is to keep them apart.
-/

namespace OperationFrontLine.Builds

open OperationFrontLine.Library

/-- `BUILDING_ACTION_STATE`, with the names of `ClientKitThread`. -/
inductive ActionState where
  | mainMenu
  | buildList
  | selectBuild
  deriving DecidableEq, Repr

inductive Command where
  | mainMenu
  | buildList
  | selectBuild
  | build
  | cancel
  deriving DecidableEq, Repr

/-- An entry of `PKS_BUILDING_MENU_QUEUE`; no class is the empty text. -/
structure MenuEntry (Kit Class : Type) where
  argument : Option Class
  command : Command
  kit : Kit
  deriving DecidableEq, Repr

/-- The two modes of the special abilities, which differ in what they do to the other object. -/
inductive Kind where
  | heal
  | repair
  deriving DecidableEq, Repr

/-- The next statement of `HealMode` or `RepairMode`. -/
inductive Stage where
  /-- the `waitUntil` -/
  | work
  /-- `if (!_fail) then` -/
  | report (fail : Bool)
  /-- `_person setVariable ["PKS_HEAL_ACTIVITY_IN_PROGRESS", nil]`, or the other -/
  | clear
  /-- `PKS_PLAYER_IS_BUSY = false` -/
  | release
  deriving DecidableEq, Repr

structure Mode (Object : Type) where
  kind : Kind
  person : Object
  friendUnit : Object
  stage : Stage
  deriving DecidableEq, Repr

/-- The next statement of `BuildTimeClock`. -/
inductive Clock (Class : Type) where
  /-- `waitUntil {(count PKS_BUILD_ARGUMENTS) > 0}` -/
  | wait
  /-- `_arguments = PKS_BUILD_ARGUMENTS` -/
  | take
  /-- the direction, by the object that `PKS_BUILD_VISUALIZER` shows -/
  | aim (arguments : Class)
  /-- the loop of one second a round, with the class of the direction -/
  | work (arguments aimed : Class) (i : ℕ)
  /-- `if(_i == _bTime) then` -/
  | report (arguments aimed : Class) (i : ℕ)
  /-- `PKS_BUILD_ARGUMENTS = []` -/
  | clear (arguments : Class) (built : Bool)
  /-- `PKS_PLAYER_IS_BUSY = false` -/
  | release
  /-- an error has stopped the thread -/
  | stopped
  deriving DecidableEq, Repr

inductive Message (Class Object : Type) where
  /-- `PKS_ServerBS_BuildObjectMsg`, with the class that the direction is taken from -/
  | buildObject (arguments aimed : Class)
  /-- `PKS_HealMsg` or `PKS_RepairMsg` -/
  | finished (kind : Kind) (friendUnit : Object)
  deriving DecidableEq, Repr

structure Client (Kit Class Object : Type) where
  /-- `PLAYER_KIT` -/
  playerKit : Kit
  /-- `BUILDING_ACTIONS_KIT` -/
  actionsKit : Kit
  actionState : ActionState
  /-- `PKS_BUILD_VISUALIZER`; `none` is the empty array -/
  visualizer : Option Class
  /-- `PKS_BUILD_ARGUMENTS`; `none` is the empty array -/
  arguments : Option Class
  /-- `PKS_PLAYER_IS_BUSY` -/
  busy : Bool
  /-- `PKS_NEED_REFILL` -/
  needRefill : Bool
  /-- `PKS_CLIENT_KIT_QUEUE`: each entry names a kit, or none to fill the same again -/
  kitEntries : List (Option Kit)
  menuEntries : List (MenuEntry Kit Class)
  /-- the `ObjBuild` scripts behind their checks -/
  objBuilds : List Kit
  /-- `PKS_HEAL_ACTIVITY_IN_PROGRESS` and `PKS_REPAIR_ACTIVITY_IN_PROGRESS` of each object -/
  inProgress : Kind → Object → Bool
  modes : List (Mode Object)
  clock : Clock Class
  /-- the messages sent, in order -/
  messages : List (Message Class Object)
  /-- every class that the clock was given, in order, with the kit whose menu it was in -/
  accepted : List (Kit × Class)
  /-- and every one that the clock is done with, and whether it was built -/
  finished : List (Class × Bool)

inductive Event (Kit Class Object : Type) where
  /-- the handler of `ClientKitThread` -/
  | frame
  /-- an entry for the kit queue: at a respawn, at a refill or from the server -/
  | kitEntry (kit : Option Kit)
  /-- `ChangeWeapons`, when there is another weapon on that side -/
  | changeWeapons
  /-- `CloseGUI`, and whether the player lives -/
  | closeGui (alive : Bool)
  /-- `BuildingList` -/
  | buildingList (kit : Kit)
  /-- `BuildSelectedObject` -/
  | buildSelectedObject (kit : Kit) (selected : Class)
  /-- the checks of `ObjBuild` -/
  | objBuild (kit : Kit) (inSafeZone : Bool)
  /-- and the last statement of one of those that are behind them -/
  | objBuildAppend (index : ℕ)
  /-- `ObjCancel` -/
  | objCancel (kit : Kit)
  /-- `HealAttempt` or `RepairAttempt`, and whether the object may be healed or repaired -/
  | attempt (kind : Kind) (person friendUnit : Object) (allowed : Bool)
  /-- the next statement of a mode, which may have failed -/
  | mode (index : ℕ) (fail : Bool)
  /-- the next statement of the clock, and whether the player lives and is not interrupted -/
  | clock (holds : Bool)
  deriving DecidableEq, Repr

variable {Kit Class Object : Type}

def Client.start (kit : Kit) : Client Kit Class Object where
  playerKit := kit
  actionsKit := kit
  actionState := .mainMenu
  visualizer := none
  arguments := none
  busy := false
  needRefill := false
  kitEntries := []
  menuEntries := []
  objBuilds := []
  inProgress _ _ := false
  modes := []
  clock := .wait
  messages := []
  accepted := []
  finished := []

namespace Client

def clearBuildingActions (client : Client Kit Class Object) : Client Kit Class Object :=
  { client with visualizer := none, actionState := .mainMenu }

def buildingActionMenu (client : Client Kit Class Object) (kit : Kit) :
    Client Kit Class Object :=
  { client.clearBuildingActions with actionsKit := kit }

def fillKit (client : Client Kit Class Object) (kit : Option Kit) : Client Kit Class Object :=
  let playerKit := kit.getD client.playerKit
  { ({ client with playerKit := playerKit }.buildingActionMenu playerKit) with
    needRefill := false }

def closeGui (client : Client Kit Class Object) (alive : Bool) : Client Kit Class Object :=
  { (if client.needRefill && alive then client.fillKit none else client) with
    needRefill := false }

def build (client : Client Kit Class Object) : Client Kit Class Object :=
  if !client.busy && client.actionState = .selectBuild then
    if client.arguments.isNone then
      { client with
        busy := true
        arguments := client.visualizer
        accepted := client.accepted ++ client.visualizer.toList.map (client.actionsKit, ·) }
    else { client with busy := true }
  else client

def cancel (client : Client Kit Class Object) : Client Kit Class Object :=
  match client.actionState with
  | .selectBuild => { client with visualizer := none, actionState := .buildList }
  | .buildList => { client with actionState := .mainMenu }
  | .mainMenu => client

section Steps

variable [DecidableEq Kit]

def menuQueue (client : Client Kit Class Object) (entry : MenuEntry Kit Class) :
    Client Kit Class Object :=
  if client.actionsKit = entry.kit then
    match entry.command with
    | .mainMenu =>
        if client.actionState ≠ .mainMenu then { client with actionState := .mainMenu }
        else client
    | .buildList =>
        if client.actionState = .mainMenu then { client with actionState := .buildList }
        else client
    | .selectBuild =>
        if client.actionState = .buildList then
          { client with visualizer := entry.argument, actionState := .selectBuild }
        else client
    | .build => client.build
    | .cancel => client.cancel
  else client

/-- Both loops of the handler: neither queue grows while it runs, and no loop takes more than
its rounds. -/
def frame (client : Client Kit Class Object) : Client Kit Class Object :=
  let filled := (client.kitEntries.take unscheduledRounds).foldl fillKit client
  { (client.menuEntries.take unscheduledRounds).foldl menuQueue filled with
    kitEntries := client.kitEntries.drop unscheduledRounds
    menuEntries := client.menuEntries.drop unscheduledRounds }

def append (client : Client Kit Class Object) (entry : MenuEntry Kit Class) :
    Client Kit Class Object :=
  { client with menuEntries := client.menuEntries ++ [entry] }

variable [DecidableEq Object]

def attempt (client : Client Kit Class Object) (kind : Kind) (person friendUnit : Object)
    (allowed : Bool) : Client Kit Class Object :=
  if allowed && !client.busy && !client.inProgress kind person then
    { client with
      inProgress := Function.update client.inProgress kind
        (Function.update (client.inProgress kind) person true)
      busy := true
      modes := client.modes ++ [⟨kind, person, friendUnit, .work⟩] }
  else client

def modeStep (client : Client Kit Class Object) (index : ℕ) (fail : Bool) :
    Option (Client Kit Class Object) :=
  match client.modes[index]? with
  | none => none
  | some mode =>
      match mode.stage with
      | .work => some { client with
          modes := client.modes.set index { mode with stage := .report fail } }
      | .report failed => some { client with
          messages := client.messages ++
            if failed then [] else [.finished mode.kind mode.friendUnit]
          modes := client.modes.set index { mode with stage := .clear } }
      | .clear => some { client with
          inProgress := Function.update client.inProgress mode.kind
            (Function.update (client.inProgress mode.kind) mode.person false)
          modes := client.modes.set index { mode with stage := .release } }
      | .release => some { client with busy := false, modes := client.modes.eraseIdx index }

def clockStep (buildTime : Class → ℕ) (client : Client Kit Class Object) (holds : Bool) :
    Option (Client Kit Class Object) :=
  match client.clock with
  | .wait => if client.arguments.isSome then some { client with clock := .take } else none
  | .take =>
      match client.arguments with
      | some arguments => some { client with clock := .aim arguments }
      | none => some { client with clock := .stopped }
  | .aim arguments =>
      -- an array is no name of a variable
      match client.visualizer with
      | some shown => some { client with clock := .work arguments shown 0 }
      | none => some { client with clock := .stopped }
  | .work arguments aimed i =>
      if i < buildTime arguments && holds then
        some { client with clock := .work arguments aimed (i + 1) }
      else some { client with clock := .report arguments aimed i }
  | .report arguments aimed i =>
      if i = buildTime arguments then
        some { client with
          messages := client.messages ++ [.buildObject arguments aimed]
          clock := .clear arguments true }
      else some { client with clock := .clear arguments false }
  | .clear arguments built =>
      some { client with
        arguments := none
        finished := client.finished ++ [(arguments, built)]
        clock := .release }
  | .release => some { client with busy := false, clock := .wait }
  | .stopped => none

end Steps

end Client

variable [DecidableEq Kit] [DecidableEq Object]

/-- A step of the client; the menu of a kit offers its buildings. -/
def step [DecidableEq Class] (buildings : Kit → List Class) (buildTime : Class → ℕ)
    (client : Client Kit Class Object) : Event Kit Class Object →
      Option (Client Kit Class Object)
  | .frame => some client.frame
  | .kitEntry kit => some { client with kitEntries := client.kitEntries ++ [kit] }
  | .changeWeapons => some { client with needRefill := true }
  | .closeGui alive => some (client.closeGui alive)
  | .buildingList kit => some (client.append ⟨none, .buildList, kit⟩)
  | .buildSelectedObject kit selected =>
      if selected ∈ buildings kit then some (client.append ⟨some selected, .selectBuild, kit⟩)
      else none
  | .objBuild kit inSafeZone =>
      if !inSafeZone && client.arguments.isNone then
        some { client with objBuilds := client.objBuilds ++ [kit] }
      else some client
  | .objBuildAppend index =>
      (client.objBuilds[index]?).map fun kit =>
        { client with objBuilds := client.objBuilds.eraseIdx index }.append ⟨none, .build, kit⟩
  | .objCancel kit => some (client.append ⟨none, .cancel, kit⟩)
  | .attempt kind person friendUnit allowed => some (client.attempt kind person friendUnit allowed)
  | .mode index fail => client.modeStep index fail
  | .clock holds => client.clockStep buildTime holds

end OperationFrontLine.Builds
