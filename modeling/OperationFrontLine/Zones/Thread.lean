import OperationFrontLine.Library.Run
import OperationFrontLine.Zones.Commands

/-!
# The per-frame event of the zone system

`FlagZoneThread` runs once in every frame: it looks at the rally points, carries out
the queued requests one by one, and then goes through the flags.  No other script runs
meanwhile; messages and the `TicketGain` scripts come between two frames.  Every request
and every flag is a step of its own here, with its own time and its own answers of the
engine, so that a frame is a run of steps.
-/

namespace OperationFrontLine.Zones

open OperationFrontLine.Library

variable {Flag : Type} [DecidableEq Flag]

inductive Phase (Flag : Type) where
  | waiting
  /-- in the loop over `OPFL_FLAG_ZONE_QUEUE` -/
  | draining
  /-- in the loop over `OPFL_FLAG_ZONE_LIST`, with `_flagTimeLine` read -/
  | visiting (flagTimeLine : ℚ) (flags : List Flag)
  deriving DecidableEq, Repr

structure Server (Flag : Type) where
  zones : State Flag
  phase : Phase Flag

inductive Event (Flag : Type) where
  /-- a message, or `CleanBody`, asks for something -/
  | receive (world : World) (arguments : Arguments Flag)
  /-- the event begins, with the loop over `OPFL_RP_LIST` -/
  | frame (time : ℚ) (world : World)
  /-- `FlagZoneQueue` -/
  | command (time : ℚ) (world : World)
  /-- `_flagTimeLine = diag_tickTime`, when the queue is empty -/
  | look (time : ℚ)
  /-- the next flag of the loop over `OPFL_FLAG_ZONE_LIST` -/
  | visit (time : ℚ) (world : World)
  /-- a `TicketGain` script appends a ticket -/
  | ticketGain (script : Script)

namespace State

def atTime (state : State Flag) (time : ℚ) : State Flag :=
  { state with now := time }

def advance (state : State Flag) (time : ℚ) : Option (State Flag) :=
  if state.now ≤ time then some (state.atTime time) else none

section Requests

variable (settings : Settings Flag) (world : World)

/-- The message functions of `FunctionList` and the end of `CleanBody`.  A client sends
the four arguments of a deployment without the trailing flag, and `DeployFlagZone` queues
it; nothing appends command 3. -/
def receive (state : State Flag) (arguments : Arguments Flag) : Option (State Flag) :=
  match arguments with
  | .deploy flag carrier positionPlayer isAlive false =>
      some (state.deployFlagZone settings world flag carrier positionPlayer isAlive false)
  | .deploy _ _ _ _ true => none
  | .undeploy .. => some (state.enqueue arguments .undeploy)
  | .redeploy .. => some (state.enqueue arguments .reDeploy)
  | .destroy .. => none
  | .body .. => some (state.enqueue arguments .delBody)
  | .deployRP .. => some (state.enqueue arguments .deployRP)
  | .requestAllRP .. => some (state.enqueue arguments .requestRP)
  | .fortifyRP .. => some (state.enqueue arguments .fortifyRP)

/-- The `switch` of `FlagZoneQueue`.  `SafelyDeleteBody` and `RequestAllRP` change nothing
here.  A command that finds the arguments of another one stops with a type error in its
guard: `DeployFlagZone` takes the position in the place of `_isAlive` for a Boolean. -/
def execute (state : State Flag) (request : Request Flag) : Outcome (State Flag) :=
  match request.command, request.arguments with
  | .deploy, .deploy flag carrier positionPlayer isAlive isQueue =>
      .finished (state.deployFlagZone settings world flag carrier positionPlayer isAlive isQueue)
  | .undeploy, .undeploy flag carrier lastFlagPos isQueue =>
      .finished (state.unDeployFlagZone settings world flag carrier lastFlagPos isQueue)
  | .destroy, .destroy flag destroyingSide =>
      .finished (state.destroyFlagZone settings world flag destroyingSide)
  | .delBody, .body _ => .finished state
  | .reDeploy, .redeploy flag originalPos positionPlayer currentPlayerPos isQueue =>
      .finished (state.reDeployFlagZone settings flag originalPos positionPlayer
        currentPlayerPos isQueue)
  | .deployRP, .deployRP person positionPlayer originalPos =>
      .finished (state.deployRP settings world person positionPlayer originalPos)
  | .requestRP, .requestAllRP _ => .finished state
  | .fortifyRP, .fortifyRP person unitId positionPlayer =>
      .finished (state.fortifyRP settings world person unitId positionPlayer)
  | _, _ => .stopped state

/-- The end of `FlagZoneQueue`: the head is marked and the marks are removed. -/
def removeHead (state : State Flag) : State Flag :=
  { state with queue := state.queue.tail }

/-- `FlagZoneQueue`; an error leaves the entry in the queue. -/
def flagZoneQueue (state : State Flag) : Outcome (State Flag) :=
  match state.queue with
  | [] => .stopped state
  | request :: _ =>
      (state.execute settings world request).andThen fun after => .finished after.removeHead

end Requests

section Visits

variable (settings : Settings Flag) (world : World)

/-- `[_flagObject, OPFL_SCT] call OPFL_Server_NeedScan` -/
def needScan (state : State Flag) (flag : Flag) : Bool :=
  match (state.zone flag).lastScan with
  | none => true
  | some lastScan => lastScan + settings.scanTime ≤ state.now

def scanIfNeeded (state : State Flag) (flag : Flag) : State Flag :=
  if (state.zone flag).activated && state.needScan settings flag then
    (state.scanFlagZone settings world flag).updateVisualState settings flag
  else state

def readyIfTime (state : State Flag) (flag : Flag) (flagTimeLine : ℚ) : State Flag :=
  if !(state.zone flag).ready &&
      ((state.zone flag).tod + settings.deployReadyTime ≤ flagTimeLine && world.rnkOn) then
    { state.setZone flag fun zone => { zone with ready := true } with clockStart := true }
  else state

/-- The position of a carrier that is not null is kept. -/
def trackCarrier (state : State Flag) (flag : Flag) : State Flag :=
  match (state.zone flag).carrierUnit with
  | some person =>
      if world.present person then
        state.setZone flag fun zone => { zone with carrierPos := some (world.posASL person) }
      else state
  | none => state

/-- The flag of a carrier who is not alive is deployed without the queue. -/
def plantOnDeath (state : State Flag) (flag : Flag) : State Flag :=
  let zone := state.zone flag
  match world.isAlive zone.carrierUnit, zone.carrierPos with
  | false, some position =>
      state.deployFlagZone settings world flag zone.carrierUnit position false true
  | _, _ => state

/-- The body of the loop over `OPFL_FLAG_ZONE_LIST`. -/
def visitFlag (state : State Flag) (flag : Flag) (flagTimeLine : ℚ) : State Flag :=
  if (state.zone flag).planted then
    (state.scanIfNeeded settings world flag).readyIfTime settings world flag flagTimeLine
  else
    (state.trackCarrier world flag).plantOnDeath settings world flag

end Visits

def ticketGain (settings : Settings Flag) (state : State Flag) (script : Script) :
    Option (State Flag) :=
  (state.running.find? fun entry => entry.1 = script).bind fun entry =>
    if settings.roundMode then none
    else some { state with ticketQueue := state.ticketQueue ++ [(settings.side entry.2, true)] }

end State

/-- The zone system after `InitFlagZones`, before the first frame. -/
def Server.start (settings : Settings Flag) (rnkOn : Bool) (matchStartTime : ℚ)
    (bunkerPoint : Flag → Position) : Server Flag where
  zones := .start settings rnkOn matchStartTime bunkerPoint
  phase := .waiting

/-- One step of the zone system; an error leaves the whole per-frame event. -/
def step (settings : Settings Flag) (server : Server Flag) (event : Event Flag) :
    Option (Server Flag) :=
  match event, server.phase with
  | .receive world arguments, .waiting =>
      (server.zones.receive settings world arguments).map fun zones => ⟨zones, .waiting⟩
  | .frame time world, .waiting =>
      (server.zones.advance time).map fun zones =>
        ⟨zones.sweepRP (State.trackRP settings world), .draining⟩
  | .command time world, .draining =>
      if server.zones.queue = [] then none
      else
        (server.zones.advance time).map fun zones =>
          match zones.flagZoneQueue settings world with
          | .finished zones => ⟨zones, .draining⟩
          | .stopped zones => ⟨zones, .waiting⟩
  | .look time, .draining =>
      if server.zones.queue = [] then
        (server.zones.advance time).map fun zones =>
          ⟨zones, .visiting time settings.flagZoneList⟩
      else none
  | .visit time world, .visiting flagTimeLine (flag :: flags) =>
      (server.zones.advance time).map fun zones =>
        ⟨zones.visitFlag settings world flag flagTimeLine,
          if flags = [] then .waiting else .visiting flagTimeLine flags⟩
  | .ticketGain script, .waiting =>
      (server.zones.ticketGain settings script).map fun zones => ⟨zones, .waiting⟩
  | _, _ => none

end OperationFrontLine.Zones
