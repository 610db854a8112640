import OperationFrontLine.Zones.Invariant

/-!
# The loop over the queue

`FlagZoneThread` calls `FlagZoneQueue` until the queue is empty, from a per-frame handler and so
for a bounded number of rounds.  A zone request that comes without the trailing flag is not carried
out but queued once more, with the flag, by the operation it names, which has to give it its own
command again.
-/

namespace OperationFrontLine.Zones

open OperationFrontLine.Library

variable {Flag : Type}

namespace Arguments

/-- The trailing flag of a zone request; no other request has one. -/
def isQueue : Arguments Flag → Bool
  | .deploy _ _ _ _ isQueue => isQueue
  | .undeploy _ _ _ isQueue => isQueue
  | .redeploy _ _ _ _ isQueue => isQueue
  | _ => true

def flagged : Arguments Flag → Arguments Flag
  | .deploy flag carrier positionPlayer isAlive _ =>
      .deploy flag carrier positionPlayer isAlive true
  | .undeploy flag carrier lastFlagPos _ => .undeploy flag carrier lastFlagPos true
  | .redeploy flag originalPos positionPlayer currentPlayerPos _ =>
      .redeploy flag originalPos positionPlayer currentPlayerPos true
  | arguments => arguments

/-- The command whose operation takes these arguments. -/
def command : Arguments Flag → Command
  | .deploy .. => .deploy
  | .undeploy .. => .undeploy
  | .redeploy .. => .reDeploy
  | .destroy .. => .destroy
  | .body .. => .delBody
  | .deployRP .. => .deployRP
  | .requestAllRP .. => .requestRP
  | .fortifyRP .. => .fortifyRP

@[simp]
theorem isQueue_flagged (arguments : Arguments Flag) : arguments.flagged.isQueue = true := by
  cases arguments <;> rfl

@[simp]
theorem command_flagged (arguments : Arguments Flag) :
    arguments.flagged.command = arguments.command := by
  cases arguments <;> rfl

end Arguments

namespace Request

/-- The arguments are those of the command's operation. -/
def WellFormed (request : Request Flag) : Prop := request.command = request.arguments.command

instance (request : Request Flag) : Decidable request.WellFormed :=
  inferInstanceAs (Decidable (_ = _))

/-- What the operation carries out: nothing when it queues its request again. -/
def carriedOut (request : Request Flag) : List (Request Flag) :=
  if request.arguments.isQueue then [request] else []

def flagged (request : Request Flag) : Request Flag := ⟨request.arguments.flagged, request.command⟩

/-- A request that every operation queues again as its own. -/
def Lasting (request : Request Flag) : Prop :=
  request.WellFormed ∧ (request.command = .reDeploy → request.arguments.isQueue = true)

theorem Lasting.flagged {request : Request Flag} (lasting : request.Lasting) :
    request.flagged.Lasting :=
  ⟨lasting.1.trans (Arguments.command_flagged _).symm, fun _ => Arguments.isQueue_flagged _⟩

end Request

/-- In the order of arrival, the requests without the trailing flag where they are queued
again. -/
def inOrder (queue : List (Request Flag)) : List (Request Flag) :=
  queue.filter (·.arguments.isQueue) ++
    (queue.filter fun request => !request.arguments.isQueue).map Request.flagged

def rounds (queue : List (Request Flag)) : ℕ :=
  queue.length + (queue.filter fun request => !request.arguments.isQueue).length

variable [DecidableEq Flag]

namespace State

section Queue

variable (settings : Settings Flag) (world : World) (state : State Flag) (flag : Flag)

end Queue

variable (settings : Settings Flag)

/-- `while {(count OPFL_FLAG_ZONE_QUEUE) > 0} do {[] call OPFL_Server_FlagZoneQueue}`, which is
left after some rounds even if the condition still holds: how the loop ends, and what was carried
out.  Every iteration has its own time and its own answers of the engine. -/
def drain : (rounds : ℕ) → (answers : ℕ → ℚ × World) → State Flag →
    Outcome (State Flag) × List (Request Flag)
  | 0, _, state => (.finished state, [])
  | rounds + 1, answers, state =>
      match state.queue with
      | [] => (.finished state, [])
      | request :: _ =>
          match (state.atTime (answers 0).1).flagZoneQueue settings (answers 0).2 with
          | .finished after =>
              let later := drain rounds (fun iteration => answers (iteration + 1)) after
              (later.1, request.carriedOut ++ later.2)
          | .stopped after => (.stopped after, [])

end State

end OperationFrontLine.Zones
