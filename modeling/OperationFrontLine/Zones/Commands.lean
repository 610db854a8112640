import Mathlib
import OperationFrontLine.Library.Script
import OperationFrontLine.Zones.Flag

/-!
# The operations on flags and rally points

The scripts of `SERVER_ZONE_SYSTEM`, as they run in the per-frame event.  Messages to
the clients are left out.
-/

namespace OperationFrontLine.Zones

open OperationFrontLine.Library

variable {Flag : Type} [DecidableEq Flag]

namespace State

section Variables

def setZone (state : State Flag) (flag : Flag) (change : FlagZone → FlagZone) : State Flag :=
  { state with zone := Function.update state.zone flag (change (state.zone flag)) }

def setPerson (state : State Flag) (person : Person)
    (change : PersonVariables → PersonVariables) : State Flag :=
  { state with person := Function.update state.person person (change (state.person person)) }

/-- `OPFL_DELETE_LOCK` of a carrier; a null object keeps no variables. -/
def setDeleteLock (state : State Flag) (carrier : Option Person) (lock : Bool) : State Flag :=
  match carrier with
  | none => state
  | some person => state.setPerson person fun unit => { unit with deleteLock := lock }

def enqueue (state : State Flag) (arguments : Arguments Flag) (command : Command) : State Flag :=
  { state with queue := state.queue ++ [⟨arguments, command⟩] }

/-- `{ terminate _x } foreach FLAG_ZONE_SCRIPTS`, and the list is emptied. -/
def terminateScripts (state : State Flag) (flag : Flag) : State Flag :=
  { state.setZone flag fun zone => { zone with scripts := [] } with
    running := state.running.filter fun entry => entry.1 ∉ (state.zone flag).scripts }

/-- `[_flagObject] spawn OPFL_Server_TicketGain`, kept in `FLAG_ZONE_SCRIPTS`. -/
def spawnTicketGain (state : State Flag) (flag : Flag) : State Flag :=
  { state.setZone flag fun zone => { zone with scripts := [state.nextScript] } with
    running := state.running ++ [(state.nextScript, flag)], nextScript := state.nextScript + 1 }

def report (state : State Flag) (entry : Report Flag) : State Flag :=
  { state with reports := entry :: state.reports }

end Variables

section Places

variable (settings : Settings Flag) (world : World) (state : State Flag)

def updateVisualState (flag : Flag) : State Flag :=
  state.setZone flag fun zone => { zone with visualState := settings.visualState zone }

/-- `GSC_OverEZW`: the position lies beyond the enemy's base, or beyond a planted flag
of the enemy, along the axis of the battlefield. -/
def overEZW (position : Position) (side : Side) : Bool :=
  let eastLine := settings.axis (settings.battlePosition .east)
  let westLine := settings.axis (settings.battlePosition .west)
  let beyond (line : ℚ) : Bool :=
    match side with
    | .west => if westLine < eastLine then line < settings.axis position
        else settings.axis position < line
    | .east => if westLine < eastLine then settings.axis position < line
        else line < settings.axis position
  beyond (settings.axis (settings.battlePosition side.enemy)) ||
    settings.flagZoneList.any fun flag =>
      side ≠ settings.side flag && (state.zone flag).planted &&
        beyond (settings.axis (settings.placed (state.zone flag).place))

/-- The position is past the enemy's line or out of the battlefield. -/
def overLine (flag : Flag) (position : Position) : Bool :=
  state.overEZW settings position (settings.side flag) || !settings.inBattleField position

/-- The position is in the protected circle of the enemy's base. -/
def nearEBase (flag : Flag) (position : Position) : Bool :=
  settings.distance position (settings.battlePosition (settings.side flag).enemy) ≤
    settings.zoneRadius + settings.battlePositionSize && !settings.roundMode

/-- The flag is pinned: `OPFL_PINNED_ZONES && (_sizePercent < 1)`. -/
def isPinned (flag : Flag) : Bool :=
  settings.pinnedZones && (state.zone flag).visualState.percent < 1

def detectRoundWin (flag : Flag) : State Flag :=
  if !settings.roundMode || state.roundWin.isSome then state
  else if settings.inEndZone (settings.side flag).enemy
      (settings.placed (state.zone flag).place) then
    { state with roundWin := some (settings.side flag) }
  else state

/-- `DestroyRepos`: the flag goes back to a point around its own FOB. -/
def destroyRepos (flag : Flag) : State Flag :=
  state.setZone flag fun zone =>
    { zone with place := .pos (world.fobPoint (settings.side flag)), activated := false }

end Places

section Flags

variable (settings : Settings Flag) (world : World) (state : State Flag)

def refusesDeploy (flag : Flag) (carrier : Option Person) (position : Position)
    (isAlive : Bool) : Bool :=
  (state.zone flag).planted ||
    (isAlive && !world.sameObject (state.zone flag).carrierUnit carrier) ||
    (state.overLine settings flag position && isAlive)

/-- A flag that falls with its carrier goes back to its base from these positions. -/
def sendsBack (flag : Flag) (position : Position) (isAlive : Bool) : Bool :=
  !isAlive && (state.overLine settings flag position || nearEBase settings flag position)

def plant (flag : Flag) (carrier : Option Person) : State Flag :=
  (((state.setZone flag fun zone =>
        { zone with planted := true, carrierUnit := none, carrierPos := none }).setDeleteLock
      carrier false).setZone flag fun zone =>
        { zone with ready := false, activated := true, tod := state.now }).terminateScripts flag

def putDown (flag : Flag) (position : Position) (isAlive sentBack : Bool) : State Flag :=
  if isAlive then
    state.setZone flag fun zone => { zone with place := .posASL position }
  else if sentBack then
    state.destroyRepos settings world flag
  else
    state.setZone flag fun zone => { zone with place := .pos ⟨position.x, position.y, 0⟩ }

def deployFlagZone (flag : Flag) (carrier : Option Person) (positionPlayer : Position)
    (isAlive isQueue : Bool) : State Flag :=
  if !isQueue then
    state.enqueue (.deploy flag carrier positionPlayer isAlive true) .deploy
  else if state.refusesDeploy settings world flag carrier positionPlayer isAlive then
    state
  else
    (((((state.plant flag carrier).putDown settings world flag positionPlayer isAlive
      (state.sendsBack settings flag positionPlayer isAlive)).updateVisualState settings
        flag).detectRoundWin settings flag).spawnTicketGain flag)

def isCarrier (person : Option Person) : Bool :=
  settings.flagZoneList.any fun flag => world.sameObject (state.zone flag).carrierUnit person

def refusesUnDeploy (flag : Flag) (carrier : Option Person) (lastFlagPos : Position) : Bool :=
  !(state.zone flag).planted || !world.isAlive carrier ||
    lastFlagPos ≠ settings.placed (state.zone flag).place ||
    state.isCarrier settings world carrier || !(state.zone flag).ready ||
    state.isPinned settings flag

def unDeployFlagZone (flag : Flag) (carrier : Option Person) (lastFlagPos : Position)
    (isQueue : Bool) : State Flag :=
  if !isQueue then
    state.enqueue (.undeploy flag carrier lastFlagPos true) .undeploy
  else if state.refusesUnDeploy settings world flag carrier lastFlagPos then
    state
  else
    ((((state.setZone flag fun zone =>
        { zone with
          planted := false
          carrierUnit := carrier
          carrierPos := some lastFlagPos
          activated := false
          lastScan := none }).setDeleteLock carrier true).terminateScripts
            flag).updateVisualState settings flag)

def refusesReDeploy (flag : Flag) (originalPos positionPlayer : Position) : Bool :=
  let flagPos := settings.placed (state.zone flag).place
  let redRad := if (state.zone flag).destroyed then settings.destroyedRadius
    else settings.redeployRadius
  !(state.zone flag).planted ||
    (state.overLine settings flag positionPlayer ||
      redRad < settings.distance positionPlayer flagPos) ||
    originalPos ≠ flagPos || !(state.zone flag).ready || state.isPinned settings flag

/-- `ReDeployFlagZone`; without the trailing flag the request is queued as command 1. -/
def reDeployFlagZone (flag : Flag) (originalPos positionPlayer currentPlayerPos : Position)
    (isQueue : Bool) : State Flag :=
  if !isQueue then
    state.enqueue (.redeploy flag originalPos positionPlayer currentPlayerPos true) .deploy
  else if state.refusesReDeploy settings flag originalPos positionPlayer then
    state
  else
    (((((state.terminateScripts flag).setZone flag fun zone =>
        { zone with
          ready := false
          activated := true
          destroyed := false
          tod := state.now
          place := .posATL positionPlayer }).updateVisualState settings flag).detectRoundWin
            settings flag).spawnTicketGain flag)

end Flags

section RallyPoints

variable (settings : Settings Flag) (world : World)

/-- `DisableRP`: the rally point is gone, its time is kept. -/
def disableRP (state : State Flag) (person : Person) : State Flag :=
  if !world.present person then state
  else
    state.setPerson person fun unit =>
      { unit with
        rpPos := none
        rpFlagPos := none
        rpSide := none
        rpId := none
        rpVote := none
        rpVoteList := none }

/-- `isNil {_person getVariable "OPFL_RP_POS"}` is false. -/
def hasRP (state : State Flag) (person : Person) : Bool :=
  world.present person && (state.person person).rpPos.isSome

/-- `((_person getVariable "OPFL_RP_TIME") + OPFL_RP_READY_TIME) < diag_tickTime` -/
def rpReady (state : State Flag) (person : Person) : Bool :=
  world.present person &&
    (state.person person).rpTime.any fun time => time + settings.rpReadyTime < state.now

def clearRPTime (state : State Flag) (person : Person) : State Flag :=
  state.setPerson person fun unit => { unit with rpTime := none }

/-- A loop over `OPFL_RP_LIST` that marks some of its elements with `-1`, and the
removal of the marks after it. -/
def sweepRP (state : State Flag) (body : State Flag → RallyEntry → State Flag × Bool) :
    State Flag :=
  let swept := state.rpList.foldl
    (fun (sofar : State Flag × List RallyEntry) entry =>
      let (after, marked) := body sofar.1 entry
      (after, if marked then sofar.2 else sofar.2 ++ [entry]))
    (state, [])
  { swept.1 with rpList := swept.2 }

/-- Delete the rally point of an element, and the element once its player may deploy
the next one. -/
def deleteRP (state : State Flag) (entry : RallyEntry) : State Flag × Bool :=
  let disabled := state.disableRP world entry.person
  if disabled.rpReady settings world entry.person then
    (disabled.clearRPTime entry.person, true)
  else (disabled, false)

/-- The loop of `DestroyFlagZone`: the rally points of the flag's side are deleted. -/
def deleteFriendlyRP (flag : Flag) (state : State Flag) (entry : RallyEntry) :
    State Flag × Bool :=
  if state.hasRP world entry.person && settings.side flag = entry.side then
    state.deleteRP settings world entry
  else (state, false)

/-- The loop of `FortifyRP`: the rally points of the flag's side are deleted, those of
the enemy when they are no longer valid for the enemy's flag. -/
def recheckRP (flag : Flag) (enemyFlag : Option Flag) (state : State Flag)
    (entry : RallyEntry) : State Flag × Bool :=
  if !state.hasRP world entry.person then (state, false)
  else if settings.side flag = entry.side then state.deleteRP settings world entry
  else
    match enemyFlag, (state.person entry.person).rpPos with
    | some enemyFlag, some position =>
        if !(state.zone enemyFlag).planted ||
            (state.overLine settings enemyFlag position ||
              settings.redeployRadius <
                settings.distance position (settings.placed (state.zone enemyFlag).place)) ||
            !(state.zone enemyFlag).ready then
          state.deleteRP settings world entry
        else (state, false)
    | _, _ => (state, false)

/-- The last flag of `OPFL_FLAG_ZONE_LIST` of, or not of, a side. -/
def lastFlag (isOf : Flag → Bool) : Option Flag :=
  settings.flagZoneList.reverse.find? isOf

def deployRP (state : State Flag) (person : Option Person)
    (positionPlayer originalPos : Position) : State Flag :=
  match person with
  | none => state
  | some person =>
      if !world.isAlive (some person) || world.playerUid person = [] then state
      else
        let id := world.uidToId (world.playerUid person)
        match world.sideOf person, lastFlag settings fun flag =>
            some (settings.side flag) = world.sideOf person with
        | some side, some flag =>
            let flagPos := settings.placed (state.zone flag).place
            let redRad := if (state.zone flag).destroyed then settings.destroyedRadius
              else settings.redeployRadius
            if id = [] || !(state.zone flag).planted ||
                (state.person person).rpTime.isSome ||
                (state.overLine settings flag positionPlayer ||
                  redRad < settings.distance positionPlayer flagPos) ||
                originalPos ≠ flagPos || !(state.zone flag).ready ||
                state.isPinned settings flag then
              state
            else
              { state.setPerson person fun unit =>
                  { unit with
                    rpPos := some positionPlayer
                    rpFlagPos := some originalPos
                    rpSide := some side
                    rpId := some id
                    rpTime := some state.now
                    rpVote := some 0
                    rpVoteList := some [] } with
                rpList := state.rpList ++ [⟨person, id, side⟩] }
        | _, _ => state

/-- `FortifyRP`; the voter's ID is compared with the list of votes and with the owner's
ID, and is not put into the list. -/
def fortifyRP (state : State Flag) (person : Option Person) (unitId : Text)
    (positionPlayer : Position) : State Flag :=
  match person with
  | none => state
  | some person =>
      if !world.isAlive (some person) || world.idToUid unitId = [] then state
      else
        match state.person person with
        | { rpPos := some rpPos, rpFlagPos := some rpFlagPos, rpSide := some rpSide,
            rpId := some rpId, rpVote := some rpVote, rpVoteList := some rpVoteList, .. } =>
            if unitId ∈ rpVoteList ∨ Identity.fold unitId = Identity.fold rpId then state
            else
              match lastFlag settings fun flag => settings.side flag = rpSide with
              | none => state
              | some flag =>
                  if state.isPinned settings flag && positionPlayer ≠ rpPos then state
                  else
                    let voted := state.setPerson person fun unit =>
                      { unit with rpVote := some (1 + rpVote) }
                    if 1 + rpVote = settings.rpVotesReq then
                      (voted.reDeployFlagZone settings flag rpFlagPos rpPos ⟨0, 0, 0⟩ true).sweepRP
                        (recheckRP settings world flag
                          (lastFlag settings fun flag => settings.side flag ≠ rpSide))
                    else voted
        | _ => state

def leaveRP (state : State Flag) (person : Person) : State Flag :=
  if (state.person person).rpPos.any fun rpPos =>
      settings.rpDistance < world.distanceTo person rpPos then
    state.disableRP world person
  else state

def trackRP (state : State Flag) (entry : RallyEntry) : State Flag × Bool :=
  let person := entry.person
  if !world.present person then (state, true)
  else if !world.isAlive (some person) then
    ((if state.hasRP world person then state.disableRP world person else state).clearRPTime person,
      true)
  else
    let left := state.leaveRP settings world person
    if !left.hasRP world person && left.rpReady settings world person then
      (left.clearRPTime person, true)
    else (left, false)

end RallyPoints

section Scans

variable (settings : Settings Flag) (world : World) (state : State Flag)

/-- The flag whose time of deployment `DestroyFlagZone` sets back. -/
def otherFlag (flag : Flag) : Flag :=
  match settings.side flag with
  | .west => settings.eastFlag
  | .east => settings.westFlag

def wreck (flag : Flag) : State Flag :=
  ((((state.report (.destroyed flag)).terminateScripts flag).setZone flag fun zone =>
    { zone with
      ready := false
      destroyed := true
      captured := settings.zoneCaptureTime
      support := settings.zoneDeathTime
      lastScan := none
      tod := state.now }).destroyRepos settings world flag)

def setBack (flag : Flag) : State Flag :=
  state.setZone (otherFlag settings flag) fun zone =>
    { zone with tod := state.now - settings.deployReadyTime }

/-- `DestroyFlagZone`; the destroying side only chooses the message. -/
def destroyFlagZone (flag : Flag) (_destroyingSide : Side) : State Flag :=
  if 0 < (state.zone flag).captured ∧ 0 < (state.zone flag).support then state
  else
    ((((state.wreck settings world flag).setBack settings flag).updateVisualState settings
      flag).sweepRP (deleteFriendlyRP settings world flag))

/-- The capture level after a scan by which the flag is not destroyed: the side with more
units in the zone moves it by one scan. -/
def scanCapture (flag : Flag) : ℚ :=
  let captureLevel := (state.zone flag).captured
  let friends := world.unitsInZone (settings.side flag)
  let enemies := world.unitsInZone (settings.side flag).enemy
  if enemies < friends ∧ captureLevel < settings.zoneCaptureTime then
    captureLevel + settings.scanTime
  else if friends < enemies ∧ 0 < captureLevel then captureLevel - settings.scanTime
  else captureLevel

def scanSupport (flag : Flag) : ℚ :=
  let supportLevel := (state.zone flag).support
  if ¬world.unitsInZone (settings.side flag) < 1 ∧ supportLevel < settings.zoneDeathTime then
    settings.zoneDeathTime
  else supportLevel

/-- `_destroyedType`, without the flag: the side that destroys it.  The check of the
support comes last and overwrites the other. -/
def destroyedType (flag : Flag) : Option Side :=
  let friends := world.unitsInZone (settings.side flag)
  let enemies := world.unitsInZone (settings.side flag).enemy
  if friends < 1 ∧ ¬0 < (state.zone flag).support then some (settings.side flag)
  else if friends < enemies ∧ ¬0 < (state.zone flag).captured then
    some (settings.side flag).enemy
  else none

def scanFlagZone (flag : Flag) : State Flag :=
  let scanned := (state.report (.scanned flag (state.zone flag))).setZone flag fun zone =>
    { zone with
      lastScan := some state.now
      captured := state.scanCapture settings world flag
      support := state.scanSupport settings world flag }
  match state.destroyedType settings world flag with
  | some destroyingSide => scanned.destroyFlagZone settings world flag destroyingSide
  | none => scanned

end Scans

end State

end OperationFrontLine.Zones
