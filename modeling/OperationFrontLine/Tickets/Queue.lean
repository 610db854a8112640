import OperationFrontLine.Library.Run
import OperationFrontLine.Zones.Flag

/-!
# The ticket queue

Outside round mode the clock thread takes one entry at a time from `OPFL_TICKET_QUEUE` and
changes a side's total, one statement after the other.  The `TicketGain` scripts, the
handler of `OPFL_DEATH` and the host's respawn handler append between any two of these
statements; an append is one statement, on the array that the variable holds then.  No
statement keeps a reference to that array for a later one, so the variable is its contents.
-/

namespace OperationFrontLine.Tickets

open OperationFrontLine.Zones (Side)

/-- An entry `[side, gains]` of the queue. -/
structure Entry where
  side : Side
  gains : Bool
  deriving DecidableEq, Repr

inductive Clock where
  /-- `waitUntil {OPFL_CLOCK_START}` -/
  | start
  /-- `if ((count OPFL_TICKET_QUEUE) > 0) then` -/
  | check
  /-- `_executeState = OPFL_TICKET_QUEUE select 0` -/
  | select
  /-- the `switch` on the side, and the `if` inside it; `none` is the mark `-1` -/
  | dispatch (executeState : Option Entry)
  /-- `OPFL_AMERICAN_TICKETS = OPFL_AMERICAN_TICKETS + 1`, and the like -/
  | change (executeState : Entry)
  /-- `publicVariable "OPFL_AMERICAN_TICKETS"`, or the other -/
  | publish (side : Side)
  /-- `OPFL_TICKET_QUEUE set [0, -1]` -/
  | mark
  /-- `OPFL_TICKET_QUEUE = OPFL_TICKET_QUEUE - [-1]` -/
  | filter
  /-- the condition of the `waitUntil` that the loop is -/
  | test
  /-- the time is over -/
  | ended
  /-- an error has stopped the thread -/
  | stopped
  deriving DecidableEq, Repr

def Clock.outside : Clock → Bool
  | start | check | test | ended => true
  | _ => false

structure State where
  /-- `OPFL_TICKET_QUEUE`; `none` is the mark `-1` -/
  queue : List (Option Entry)
  /-- `OPFL_AMERICAN_TICKETS` and `OPFL_RUSSIAN_TICKETS` -/
  tickets : Side → ℤ
  /-- what the clients have last received of them -/
  published : Side → ℤ
  clock : Clock
  /-- every entry ever appended, in order -/
  appended : List Entry
  /-- the entries by which a total was changed, in order -/
  applied : List Entry

def State.initial (startingTickets : ℤ) : State where
  queue := []
  tickets _ := startingTickets
  published _ := startingTickets
  clock := .start
  appended := []
  applied := []

inductive Event where
  /-- an iteration of a `TicketGain` script of a flag of this side -/
  | ticketGain (side : Side)
  /-- the handler of `OPFL_DEATH`, whose value is whether a player of the west died -/
  | death (isWest : Bool)
  /-- the host respawns -/
  | hostRespawn (isWest : Bool)
  /-- the next statement of the clock thread, with what it finds where it waits: that the
  clock may start, or that the time is over -/
  | clock (holds : Bool)
  deriving DecidableEq, Repr

namespace State

/-- `OPFL_TICKET_QUEUE set [(count OPFL_TICKET_QUEUE), entry]` -/
def append (state : State) (entry : Entry) : State :=
  { state with queue := state.queue ++ [some entry], appended := state.appended ++ [entry] }

/-- The side of a death, in the handler of `OPFL_DEATH` and in that of the host. -/
def sideOfDeath (isWest : Bool) : Side :=
  if isWest then .west else .east

/-- One more or one less, by the second element of the entry. -/
def apply (state : State) (entry : Entry) : State :=
  { state with
    tickets := Function.update state.tickets entry.side
      (if entry.gains then state.tickets entry.side + 1 else state.tickets entry.side - 1)
    applied := state.applied ++ [entry] }

def clockStep (state : State) (holds : Bool) : Option State :=
  match state.clock with
  | .start => if holds then some { state with clock := .check } else none
  | .check =>
      if 0 < state.queue.length then some { state with clock := .select }
      else some { state with clock := .test }
  | .select =>
      match state.queue with
      | [] => some { state with clock := .stopped }
      | executeState :: _ => some { state with clock := .dispatch executeState }
  | .dispatch (some entry) => some { state with clock := .change entry }
  | .dispatch none => some { state with clock := .stopped }
  | .change entry => some { state.apply entry with clock := .publish entry.side }
  | .publish side =>
      some { state with
        published := Function.update state.published side (state.tickets side)
        clock := .mark }
  | .mark => some { state with queue := none :: state.queue.tail, clock := .filter }
  | .filter => some { state with queue := state.queue.filter (· ≠ none), clock := .test }
  | .test => some { state with clock := if holds then .ended else .check }
  | .ended => none
  | .stopped => none

end State

def step (state : State) : Event → Option State
  | .ticketGain side => some (state.append ⟨side, true⟩)
  | .death isWest => some (state.append ⟨State.sideOfDeath isWest, false⟩)
  | .hostRespawn isWest => some (state.append ⟨State.sideOfDeath isWest, false⟩)
  | .clock holds => state.clockStep holds

end OperationFrontLine.Tickets
