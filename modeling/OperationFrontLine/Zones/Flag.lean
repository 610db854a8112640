import OperationFrontLine.Identity.Tables

/-!
# Flags and what the server keeps about them

The variables `FLAG_ZONE_*` of a flag object, the variables `OPFL_RP_*` of a unit, and
the globals that the zone system shares.  What the engine answers while a script runs
(who is alive, who stands where) is a `World`; it may be another one at every step.
-/

namespace OperationFrontLine.Zones

open OperationFrontLine.Library

inductive Side where
  | west
  | east
  deriving DecidableEq, Repr

def Side.enemy : Side → Side
  | .west => .east
  | .east => .west

structure Position where
  x : ℚ
  y : ℚ
  z : ℚ
  deriving DecidableEq, Repr

inductive Placement where
  | pos (position : Position)
  | posASL (position : Position)
  | posATL (position : Position)
  deriving DecidableEq, Repr

/-- A unit, told from the others by a number; `objNull` is `none` where it may occur. -/
abbrev Person := ℕ

abbrev Script := ℕ

/-- `Parameters.sqf` and the markers of the map. -/
structure Settings (Flag : Type) where
  deployReadyTime : ℚ := 120
  zoneRadius : ℚ := 10
  redeployRadius : ℚ := 100
  /-- `OPFL_DESTROYED_RADIUS`, which `PaintEndZones` takes from a marker -/
  destroyedRadius : ℚ
  zoneCaptureTime : ℚ := 60
  zoneDeathTime : ℚ := 300
  zoneDeathWarningTime : ℚ := 60
  /-- `OPFL_SCT` -/
  scanTime : ℚ := 1 / 2
  rpReadyTime : ℚ := 30
  rpDistance : ℚ := 15
  rpVotesReq : ℕ := 1
  pinnedZones : Bool := false
  roundMode : Bool := false
  /-- `OPFL_FLAG_ZONE_LIST` -/
  flagZoneList : List Flag
  /-- `FLAG_ZONE_SIDE`, which no script changes -/
  side : Flag → Side
  westFlag : Flag
  eastFlag : Flag
  /-- `getMarkerPos "BATTLE_POSITION_WEST"` and `_EAST` -/
  battlePosition : Side → Position
  /-- `(getMarkerSize "BATTLE_POSITION_WEST") select 0` -/
  battlePositionSize : ℚ
  /-- the second coordinate after `MSO_fnc_vectRotate2D` about `BP_AXIS_CONNECTOR` -/
  axis : Position → ℚ
  /-- `[position, "BATTLE_FIELD_AREA"] call MSO_fnc_inArea` -/
  inBattleField : Position → Bool
  /-- `[position, "BP_END_ZONE_WEST"] call MSO_fnc_inArea`, or `_EAST` -/
  inEndZone : Side → Position → Bool
  /-- `GSC_2dDistance` -/
  distance : Position → Position → ℚ
  /-- `getPosASL` of a flag that was put down, which depends on the terrain -/
  placed : Placement → Position
  mem_flagZoneList : ∀ flag, flag ∈ flagZoneList
  scanTime_pos : 0 < scanTime
  zoneDeathTime_pos : 0 < zoneDeathTime
  captureTime_multiple : ∃ scans : ℕ, zoneCaptureTime = scans * scanTime

/-- What the engine and the connection tables answer while a script runs. -/
structure World where
  /-- the object has not been deleted -/
  present : Person → Bool
  alive : Person → Bool
  /-- `getPosASL` of a unit -/
  posASL : Person → Position
  /-- `_person distance _position` -/
  distanceTo : Person → Position → ℚ
  /-- `GSC_Side` -/
  sideOf : Person → Option Side
  /-- `getPlayerUID` -/
  playerUid : Person → Text
  /-- `PCS_UIDToID` -/
  uidToId : Text → Text
  /-- `PCS_IDToUID` -/
  idToUid : Text → Text
  /-- how many units of a side are within `OPFL_ZONE_RADIUS` of the scanned flag -/
  unitsInZone : Side → ℕ
  /-- the point that `GSC_RandPosAroundObject` finds around the FOB of a side -/
  fobPoint : Side → Position
  /-- `PCS_RNK_ON` -/
  rnkOn : Bool

namespace World

def isNull (world : World) : Option Person → Bool
  | none => true
  | some person => !world.present person

def isAlive (world : World) : Option Person → Bool
  | none => false
  | some person => world.present person && world.alive person

/-- `==` on objects, which is false of null objects -/
def sameObject (world : World) (first second : Option Person) : Bool :=
  !world.isNull first && first == second

end World

structure VisualState where
  state : ℕ
  percent : ℚ
  posASL : Position
  destroyed : Bool
  deriving DecidableEq, Repr

/-- The variables `FLAG_ZONE_*` of a flag, and where it stands. -/
structure FlagZone where
  planted : Bool
  captured : ℚ
  support : ℚ
  carrierUnit : Option Person
  /-- `FLAG_ZONE_CARRIER_POS`; `[]` is `none` -/
  carrierPos : Option Position
  ready : Bool
  activated : Bool
  destroyed : Bool
  tod : ℚ
  lastScan : Option ℚ
  scripts : List Script
  visualState : VisualState
  place : Placement
  deriving DecidableEq, Repr

structure PersonVariables where
  /-- `OPFL_DELETE_LOCK` -/
  deleteLock : Bool := false
  rpPos : Option Position := none
  rpFlagPos : Option Position := none
  rpSide : Option Side := none
  rpId : Option Text := none
  rpTime : Option ℚ := none
  rpVote : Option ℕ := none
  rpVoteList : Option (List Text) := none
  deriving DecidableEq, Repr

structure RallyEntry where
  person : Person
  id : Text
  side : Side
  deriving DecidableEq, Repr

inductive Arguments (Flag : Type) where
  | deploy (flag : Flag) (carrier : Option Person) (positionPlayer : Position)
      (isAlive isQueue : Bool)
  | undeploy (flag : Flag) (carrier : Option Person) (lastFlagPos : Position) (isQueue : Bool)
  | redeploy (flag : Flag) (originalPos positionPlayer currentPlayerPos : Position)
      (isQueue : Bool)
  | destroy (flag : Flag) (destroyingSide : Side)
  | body (body : Option Person)
  | deployRP (person : Option Person) (positionPlayer originalPos : Position)
  | requestAllRP (id : Text)
  | fortifyRP (person : Option Person) (unitId : Text) (positionPlayer : Position)
  deriving DecidableEq, Repr

/-- The second element of a queue entry, from `_DEPLOY = 1` to `_FORTIFY_RP = 8`. -/
inductive Command where
  | deploy
  | undeploy
  | destroy
  | delBody
  | reDeploy
  | deployRP
  | requestRP
  | fortifyRP
  deriving DecidableEq, Repr

structure Request (Flag : Type) where
  arguments : Arguments Flag
  command : Command
  deriving DecidableEq, Repr

/-- A trace of the scans: each with the flag's variables before it, and each
destruction that went through. -/
inductive Report (Flag : Type) where
  | scanned (flag : Flag) (before : FlagZone)
  | destroyed (flag : Flag)
  deriving DecidableEq, Repr

/-- The globals of the zone system, and the variables of its objects. -/
structure State (Flag : Type) where
  /-- the last `diag_tickTime` that was read -/
  now : ℚ
  zone : Flag → FlagZone
  person : Person → PersonVariables
  queue : List (Request Flag)
  rpList : List RallyEntry
  /-- the `OPFL_Server_TicketGain` scripts that run, each with its flag -/
  running : List (Script × Flag)
  nextScript : Script
  ticketQueue : List (Side × Bool)
  /-- `OPFL_CLOCK_START` -/
  clockStart : Bool
  /-- `OPFL_ROUND_WIN` -/
  roundWin : Option Side
  /-- the latest first -/
  reports : List (Report Flag)

section Start

variable {Flag : Type} (settings : Settings Flag)

/-- `UpdateVisualState`: the state of a flag with these variables. -/
def Settings.visualState (zone : FlagZone) : VisualState where
  state := if zone.planted then 2 else 1
  percent :=
    if zone.support < zone.captured ∧ zone.support < settings.zoneDeathWarningTime then
      zone.support / settings.zoneDeathTime
    else zone.captured / settings.zoneCaptureTime
  posASL := settings.placed zone.place
  destroyed := zone.destroyed

/-- `CreateFlagZone`, at the match start time and with the flag placed somewhere
around its bunker. -/
def createFlagZone (matchStartTime : ℚ) (bunkerPoint : Position) : FlagZone :=
  let zone : FlagZone :=
    { planted := true, captured := settings.zoneCaptureTime, support := settings.zoneDeathTime,
      carrierUnit := none, carrierPos := none, ready := false, activated := true,
      destroyed := false, tod := matchStartTime, lastScan := none, scripts := [],
      visualState := ⟨0, 0, bunkerPoint, false⟩, place := .pos bunkerPoint }
  { zone with visualState := settings.visualState zone }

def State.start (rnkOn : Bool) (matchStartTime : ℚ) (bunkerPoint : Flag → Position) :
    State Flag where
  now := matchStartTime
  zone flag := createFlagZone settings matchStartTime (bunkerPoint flag)
  person _ := {}
  queue := []
  rpList := []
  running := []
  nextScript := 0
  ticketQueue := []
  clockStart := !rnkOn
  roundWin := none
  reports := []

end Start

end OperationFrontLine.Zones
