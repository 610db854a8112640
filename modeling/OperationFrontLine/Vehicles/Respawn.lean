import OperationFrontLine.Library.Countdown
import OperationFrontLine.Vehicles.Synchronised

/-!
# When vehicles are replaced

Once a second `VRS_MainThread` looks at every vehicle of its list.  One that has left its
place or was damaged loses a second of its two counters when nobody is in or near it, of
`VRS_RS_COUNT` only while it is wrecked; somebody in or near it sets both back.  When a
counter that should lose a second has none left, the vehicle is replaced by a new one at the
first one's place.
-/

namespace OperationFrontLine.Vehicles

open OperationFrontLine.Library

universe u v

structure Sight where
  /-- from `VRS_INIT_POS` -/
  distance : ℚ
  damage : ℚ
  /-- how many of the crew live -/
  aliveCrew : ℕ
  /-- how many men are within `VRS_NEAR_DIST` -/
  nearMen : ℕ
  alive : Bool
  /-- `GSC_IsDisabled` -/
  disabled : Bool
  deriving DecidableEq, Repr

namespace Sight

/-- The vehicle has left its place, or is more damaged than at first. -/
def away (initDmg : ℚ) (sight : Sight) : Bool :=
  10 < sight.distance || initDmg < sight.damage

def unused (sight : Sight) : Bool :=
  sight.aliveCrew < 1 && sight.nearMen = 0

def wrecked (sight : Sight) : Bool :=
  !sight.alive || sight.disabled

end Sight

structure Variables (Place : Type u) where
  initPos : Place
  initDir : ℚ
  abTime : ℚ
  rsTime : ℚ
  abCount : ℚ
  rsCount : ℚ
  initDmg : ℚ
  nearDist : ℚ
  deriving DecidableEq, Repr

namespace Variables

variable {Place : Type u}

/-- The loop of `VRS_MainThread` for one vehicle: its variables, and `_dead`. -/
def look (values : Variables Place) (sight : Sight) : Variables Place × Bool :=
  if sight.away values.initDmg then
    if sight.unused then
      let (values, dead) :=
        if sight.wrecked then
          if 0 < values.rsCount then
            ({ values with rsCount := values.rsCount - 1 }, false)
          else (values, true)
        else (values, false)
      if 0 < values.abCount then
        ({ values with abCount := values.abCount - 1 }, dead)
      else (values, true)
    else
      ({ values with abCount := values.abTime, rsCount := values.rsTime }, false)
  else (values, false)

/-- The variables of the vehicle that `VRS_RespawnVehicle` creates, with its damage. -/
def renewed (values : Variables Place) (damage : ℚ) : Variables Place :=
  { values with
    abCount := values.abTime
    rsCount := values.rsTime
    initDmg := damage }

end Variables

/-- What `VRS_RVInit` is called with for a vehicle, and what the vehicle is. -/
structure Slot (Kind Place Code : Type u) where
  kind : Kind
  initPos : Place
  initDir : ℚ
  abTime : ℚ
  rsTime : ℚ
  nearDist : ℚ
  /-- the damage of the vehicle that it creates -/
  damage : ℚ
  code : Code

def Slot.values {Kind Place Code : Type u} (slot : Slot Kind Place Code) :
    Variables Place where
  initPos := slot.initPos
  initDir := slot.initDir
  abTime := slot.abTime
  rsTime := slot.rsTime
  abCount := slot.abTime
  rsCount := slot.rsTime
  initDmg := slot.damage
  nearDist := slot.nearDist

/-- The server with its vehicles, which are numbered as they are created. -/
structure Depot (Uid : Type v) (Kind Place Code : Type u) where
  /-- the list and the clients -/
  system : State Uid ℕ
  /-- `VRS_INIT_LIST` -/
  initList : List Code
  kind : ℕ → Kind
  values : ℕ → Variables Place
  /-- the scripts of `VRS_INIT_LIST` that were called for a vehicle -/
  initialised : ℕ → List Code
  nextVehicle : ℕ
  deleted : List ℕ
  /-- `VRS_LAST_TIME_CHECK` -/
  lastTimeCheck : ℚ
  /-- the last `diag_tickTime` that was read -/
  time : ℚ
  /-- the looks at a vehicle with their times, newest first -/
  seen : ℕ → List (ℚ × Sight)

inductive DepotEvent (Uid : Type v) where
  /-- machines connect and leave, blocks are sent, messages arrive -/
  | system (event : Event Uid ℕ)
  /-- the first part of `VRS_MainThread`, with the times at which it starts and ends, and for
  every index what is found out and the damage of a new vehicle -/
  | check (now later : ℚ) (looks : ℕ → Sight × ℚ)

namespace Depot

variable {Uid : Type v} {Kind Place Code : Type u}

section Start

variable [Inhabited (Slot Kind Place Code)]

/-- After `VRS_RVInit` for every slot and `VRS_InitVehicleRespawn`. -/
def start (slots : List (Slot Kind Place Code)) (now : ℚ) : Depot Uid Kind Place Code where
  system := .initVehicleRespawn (List.range slots.length)
  initList := slots.map Slot.code
  kind vehicle := slots[vehicle]!.kind
  values vehicle := slots[vehicle]!.values
  initialised vehicle := [slots[vehicle]!.code]
  nextVehicle := slots.length
  deleted := []
  lastTimeCheck := 0
  time := now
  seen _ := []

end Start

variable [DecidableEq Uid]

def respawnVehicle (depot : Depot Uid Kind Place Code) (vehicle index : ℕ) (damage : ℚ) :
    Depot Uid Kind Place Code :=
  let new := depot.nextVehicle
  { depot with
    system := depot.system.respawnVehicle index new
    kind := Function.update depot.kind new (depot.kind vehicle)
    values := Function.update depot.values new ((depot.values vehicle).renewed damage)
    initialised := Function.update depot.initialised new (depot.initList[index]?).toList
    nextVehicle := new + 1
    deleted := vehicle :: depot.deleted
    seen := Function.update depot.seen new [] }

/-- The loop of `VRS_MainThread` for the vehicle at an index. -/
def visit (depot : Depot Uid Kind Place Code) (now : ℚ) (looks : ℕ → Sight × ℚ) (index : ℕ) :
    Depot Uid Kind Place Code :=
  match depot.system.vehicleList[index]? with
  | none => depot
  | some vehicle =>
      let (values, dead) := (depot.values vehicle).look (looks index).1
      let looked := { depot with
        values := Function.update depot.values vehicle values
        seen := Function.update depot.seen vehicle
          ((now, (looks index).1) :: depot.seen vehicle) }
      if dead then looked.respawnVehicle vehicle index (looks index).2 else looked

def check (depot : Depot Uid Kind Place Code) (now later : ℚ) (looks : ℕ → Sight × ℚ) :
    Depot Uid Kind Place Code :=
  if depot.lastTimeCheck + 1 ≤ now then
    { (List.range depot.system.vehicleList.length).foldl
        (fun depot index => depot.visit now looks index) depot with
      lastTimeCheck := later
      time := later }
  else { depot with time := later }

def step (depot : Depot Uid Kind Place Code) : DepotEvent Uid → Option (Depot Uid Kind Place Code)
  | .system (.respawnVehicle _ _) => none
  | .system event => (Vehicles.step depot.system event).map fun system => { depot with system }
  | .check now later looks =>
      if depot.system.mainThread ∧ depot.time ≤ now ∧ now ≤ later then
        some (depot.check now later looks)
      else none

end Depot

end OperationFrontLine.Vehicles
