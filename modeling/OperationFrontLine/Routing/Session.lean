import OperationFrontLine.Library.Run
import OperationFrontLine.Routing.Network

/-!
# A session of machines

Every machine has its queue `PCS_CPQ`, of which the per-frame handler takes the head, and
the scripts that were spawned, which run in any order; packets reach their machines in any
order.  Broadcasts are made at any time, also by the functions that broadcasts run.
-/

namespace OperationFrontLine.Routing

open OperationFrontLine.Library

universe u v

variable {Client : Type u} {Object : Type v}

inductive Address (Client : Type u) (Object : Type v) where
  /-- `PCS_S_SERVER` -/
  | server
  /-- `PCS_S_CLIENT` -/
  | client
  /-- `PCS_S_ALL` -/
  | all
  /-- the ID of a client -/
  | id (client : Client)
  | object (object : Object)

structure Broadcast (Client : Type u) (Object : Type v) where
  sender : Machine Client
  atomic : Bool
  scriptArguments : Value Object
  name : Text
  address : Address Client Object
  key : Key

/-- Something that is left over of the broadcast with this number. -/
structure Tagged (Content : Type u) where
  broadcast : ℕ
  content : Content

structure Execution (Client : Type u) (Object : Type v) where
  broadcast : ℕ
  machine : Machine Client
  function : ℤ
  scriptArguments : Value Object

structure State (Client : Type u) (Object : Type v) where
  /-- `PCS_CPQ` of every machine -/
  cpq : Machine Client → List (Tagged (Task Object))
  /-- the scripts that were spawned -/
  spawned : Machine Client → List (Tagged (Task Object))
  /-- the packets on their way -/
  flight : List (Tagged (Message Client Object))
  /-- the broadcasts made, and the functions run for them -/
  broadcasts : List (Broadcast Client Object)
  executed : List (Execution Client Object)

def State.initial : State Client Object where
  cpq _ := []
  spawned _ := []
  flight := []
  broadcasts := []
  executed := []

inductive Event (Client : Type u) (Object : Type v) where
  | broadcast (broadcast : Broadcast Client Object)
  /-- an iteration of the loop over `PCS_CPQ` in the per-frame handler -/
  | frame (machine : Machine Client)
  /-- the scheduler runs one of the spawned scripts -/
  | schedule (machine : Machine Client) (index : ℕ)
  /-- one of the packets on their way arrives -/
  | deliver (index : ℕ)

/-- The events by which the session goes on without a new broadcast. -/
def Event.internal : Event Client Object → Bool
  | broadcast _ => false
  | frame _ | schedule _ _ | deliver _ => true

namespace Network

variable (network : Network Client Object)

def addressValue : Address Client Object → Value Object
  | .server => .array [.string "SERVER".toList]
  | .client => .array [.string "CLIENT".toList]
  | .all => .array [.string "ALL".toList]
  | .id client => .string (network.unique client)
  | .object object => .object object

variable [DecidableEq Client]

/-- What a broadcast does on the machine that makes it. -/
def actions (broadcast : Broadcast Client Object) : List (Action Object) :=
  (if broadcast.atomic then network.mpCodeBroadcastAtomic else network.mpCodeBroadcast)
    broadcast.sender broadcast.scriptArguments broadcast.name
    (network.addressValue broadcast.address) broadcast.key.pipe

/-- `PCS_CallFnc` on a machine; what the function that is run does itself is not followed. -/
def callFnc (here : Machine Client) (broadcast : ℕ) (state : State Client Object) :
    Task Object → State Client Object
  | .run scriptArguments scriptEx =>
      match network.resolve scriptEx with
      | some function =>
          { state with
            executed := state.executed ++ [⟨broadcast, here, function, scriptArguments⟩] }
      | none => state
  | .sendData data type atomic pipe =>
      { state with
        flight := state.flight ++
          (network.sendData here data type atomic pipe).map (Tagged.mk broadcast) }

def perform (here : Machine Client) (broadcast : ℕ) (state : State Client Object) :
    Action Object → State Client Object
  | .spawn task =>
      { state with
        spawned := Function.update state.spawned here (state.spawned here ++ [⟨broadcast, task⟩]) }
  | .spawnAtomic task =>
      { state with
        cpq := Function.update state.cpq here (state.cpq here ++ [⟨broadcast, task⟩]) }
  | .call task => network.callFnc here broadcast state task

def performAll (here : Machine Client) (broadcast : ℕ) (state : State Client Object)
    (actions : List (Action Object)) : State Client Object :=
  actions.foldl (network.perform here broadcast) state

def step (state : State Client Object) : Event Client Object → Option (State Client Object)
  | .broadcast broadcast =>
      some <| network.performAll broadcast.sender state.broadcasts.length
        { state with broadcasts := state.broadcasts ++ [broadcast] } (network.actions broadcast)
  | .frame machine =>
      match state.cpq machine with
      | [] => none
      | job :: rest =>
          some <| network.callFnc machine job.broadcast
            { state with cpq := Function.update state.cpq machine rest } job.content
  | .schedule machine index =>
      match (state.spawned machine)[index]? with
      | none => none
      | some job =>
          some <| network.callFnc machine job.broadcast
            { state with
              spawned := Function.update state.spawned machine
                ((state.spawned machine).eraseIdx index) } job.content
  | .deliver index =>
      match state.flight[index]? with
      | none => none
      | some message =>
          some <| network.performAll message.content.receiver message.broadcast
            { state with flight := state.flight.eraseIdx index } (network.handle message.content)

end Network

structure State.Settled (state : State Client Object) : Prop where
  cpq : ∀ machine, state.cpq machine = []
  spawned : ∀ machine, state.spawned machine = []
  flight : state.flight = []

end OperationFrontLine.Routing
