import OperationFrontLine.Identity.Tables

/-!
# Public code

How a machine asks others to run a function: `PCS_MPCodeBroadcast` and its atomic variant,
the handlers `PCS_MPCodeEH` and `PCS_MPCodeEH_Atomic` of the two pipes, and `PCS_SendData`,
by which both publish a packet.  The server is dedicated.
-/

namespace OperationFrontLine.Routing

open OperationFrontLine.Library
open OperationFrontLine.Identity (fold Tables)

universe u v

inductive Machine (Client : Type u) where
  | server
  | client (client : Client)
  deriving DecidableEq, Repr

def Machine.isServer {Client : Type u} : Machine Client → Bool
  | server => true
  | client _ => false

/-- A value of the script language, as packets hold them. -/
inductive Value (Object : Type v) where
  | nil
  | scalar (number : ℤ)
  | string (text : Text)
  | object (object : Object)
  | array (elements : List (Value Object))

namespace Value

variable {Object : Type v}

/-- `values select index`; at the end of an array this gives `nil`. -/
def select (values : List (Value Object)) (index : ℕ) : Value Object :=
  values.getD index .nil

def isMinusOne : Value Object → Bool
  | scalar number => number = -1
  | _ => false

/-- `values - [-1]` -/
def withoutMinusOne (values : List (Value Object)) : List (Value Object) :=
  values.filter fun value => !value.isMinusOne

end Value

/-- The names of global variables that packets are published under. -/
inductive Pipe where
  /-- `PCS_KA_…`, with the key that the server has drawn -/
  | keyA
  /-- `PCS_KB_…` -/
  | keyB
  /-- `PCS_PUBLIC_EX` -/
  | publicEx
  /-- `PCS_PUBLIC_EX_ATOMIC` -/
  | publicExAtomic
  deriving DecidableEq, Repr

inductive Key where
  | a
  | b
  deriving DecidableEq, Repr

def Key.pipe : Key → Pipe
  | a => .keyA
  | b => .keyB

/-- The variable that `PCS_SendData` publishes, which need not be told it. -/
def Pipe.ofOption (atomic : Bool) : Option Pipe → Pipe
  | some pipe => pipe
  | none => if atomic then .publicExAtomic else .publicEx

inductive AddressType where
  | objectLocal
  | temporaryId
  | uid
  | server
  | client
  | all
  deriving DecidableEq, Repr

inductive Task (Object : Type v) where
  /-- `[_scriptArguments, _scriptEx]` -/
  | run (scriptArguments scriptEx : Value Object)
  /-- `[[_data, _type, _atomic, _pipe], "PCS_SendData"]`, or the same without a pipe -/
  | sendData (data : List (Value Object)) (type : AddressType) (atomic : Bool)
      (pipe : Option Pipe)

inductive Action (Object : Type v) where
  /-- `spawn PCS_CallFnc` -/
  | spawn (task : Task Object)
  /-- `call PCS_SpawnAtomic`, which appends to `PCS_CPQ` -/
  | spawnAtomic (task : Task Object)
  /-- `call PCS_CallFnc` -/
  | call (task : Task Object)

def Action.task {Object : Type v} : Action Object → Task Object
  | spawn task | spawnAtomic task | call task => task

def Action.ofHandler {Object : Type v} (atomic : Bool) (task : Task Object) : Action Object :=
  if atomic then .call task else .spawn task

/-- How the two broadcasts run a function on the machine that makes them. -/
def Action.ofBroadcast {Object : Type v} (atomic : Bool) (task : Task Object) : Action Object :=
  if atomic then .spawnAtomic task else .spawn task

structure Message (Client : Type u) (Object : Type v) where
  receiver : Machine Client
  pipe : Pipe
  value : List (Value Object)

/-- The clients connected to the server, what the engine knows of them and of the objects,
and the tables of the server. -/
structure Network (Client : Type u) (Object : Type v) where
  clients : List Client
  clients_nodup : clients.Nodup
  clients_complete : ∀ client, client ∈ clients
  /-- `PCS_UNIQUE`, the ID that the server has given the client -/
  unique : Client → Text
  unique_ne_nil : ∀ client, unique client ≠ []
  unique_injective : Function.Injective unique
  /-- the number by which the engine names a client -/
  owner : Client → ℕ
  owner_pos : ∀ client, 0 < owner client
  owner_injective : Function.Injective owner
  /-- where an object is local -/
  locality : Object → Machine Client
  /-- the connection tables in `PCS_FNC_TABLE` -/
  tables : Tables
  /-- the number of a function name in `PCS_FNC_TABLE`, which every machine fills alike -/
  functionNumber : Text → Option ℕ

namespace Network

variable {Client : Type u} {Object : Type v} (network : Network Client Object)

def machines : List (Machine Client) := .server :: network.clients.map .client

/-- `PCS_UNIQUE` on a machine; that of a dedicated server stays empty. -/
def uniqueOf : Machine Client → Text
  | .server => []
  | .client client => network.unique client

/-- `owner object` on the server, which has the number 2 itself -/
def ownerOf : Machine Client → ℕ
  | .server => 2
  | .client client => network.owner client

def tempId : Value Object → ℤ
  | .object object => network.ownerOf (network.locality object)
  | .string id =>
      match network.tables.idToTemp (.text id) with
      | .number temp => temp
      | .text _ => 0
  | .scalar number => number
  | .nil | .array _ => 0

def resolve : Value Object → Option ℤ
  | .scalar number => some number
  | .string name => (network.functionNumber name).map Int.ofNat
  | .nil | .object _ | .array _ => none

variable [DecidableEq Client]

def publicVariable (here : Machine Client) (pipe : Pipe) (value : List (Value Object)) :
    List (Message Client Object) :=
  (network.machines.filter fun machine => machine ≠ here).map fun machine => ⟨machine, pipe, value⟩

def publicVariableServer (pipe : Pipe) (value : List (Value Object)) :
    List (Message Client Object) :=
  [⟨.server, pipe, value⟩]

/-- `temp publicVariableClient pipe` -/
def publicVariableClient (temp : ℤ) (pipe : Pipe) (value : List (Value Object)) :
    List (Message Client Object) :=
  (network.clients.filter fun client => (network.owner client : ℤ) = temp).map fun client =>
    ⟨.client client, pipe, value⟩

/-- `PCS_SendData`, less the variable that it leaves behind when it publishes nothing -/
def sendData (here : Machine Client) (data : List (Value Object)) (type : AddressType)
    (atomic : Bool) (pipe : Option Pipe) : List (Message Client Object) :=
  let machine := Value.select data 2
  let data :=
    if type = .all ∨ type = .server then Value.withoutMinusOne (data.set 2 (.scalar (-1)))
    else data
  let pipe := Pipe.ofOption atomic pipe
  match type with
  | .server => if here.isServer then [] else publicVariableServer pipe data
  | .all => network.publicVariable here pipe data
  | .client =>
      if here.isServer then network.publicVariable here pipe (data.eraseIdx 2)
      else publicVariableServer pipe data
  | .objectLocal | .temporaryId | .uid =>
      if here.isServer then
        let temp := network.tempId machine
        if 0 < temp then
          network.publicVariableClient temp pipe
            (if type = .objectLocal then data else data.eraseIdx 2)
        else []
      else publicVariableServer pipe data

/-- The type of the address that a handler relays a packet with. -/
def relayType : Value Object → AddressType
  | .object _ => .objectLocal
  | .array _ => .client
  | .nil | .scalar _ | .string _ => .temporaryId

/-- Whether the handler on this machine takes the address to be its own. -/
def isMe (here : Machine Client) : Value Object → Bool
  | .object object => network.locality object = here
  | .scalar number => !here.isServer && (network.ownerOf here : ℤ) = number
  | .string id => !here.isServer && fold id = fold (network.uniqueOf here)
  | .array _ => !here.isServer
  | .nil => false

/-- The two handlers, which differ in how they run the function. -/
def handler (atomic : Bool) (here : Machine Client) (value : List (Value Object)) :
    List (Action Object) :=
  let scriptArguments := Value.select value 0
  let scriptEx := Value.select value 1
  let execute : Action Object := .ofHandler atomic (.run scriptArguments scriptEx)
  match Value.select value 2 with
  | .nil => [execute]
  | machine =>
      let relay : Action Object := .call (.sendData value (relayType machine) atomic none)
      if network.isMe here machine then
        if relayType machine = .client then [relay, execute] else [execute]
      else [relay]

/-- `PCS_MPCodeEH`, on the pipe `PCS_KA_…` -/
def mpCodeEH : Machine Client → List (Value Object) → List (Action Object) :=
  network.handler false

/-- `PCS_MPCodeEH_Atomic`, on the pipe `PCS_KB_…` -/
def mpCodeEHAtomic : Machine Client → List (Value Object) → List (Action Object) :=
  network.handler true

/-- The handler registered on a variable name does what it does; no other name has one. -/
def handle (message : Message Client Object) : List (Action Object) :=
  match message.pipe with
  | .keyA => network.mpCodeEH message.receiver message.value
  | .keyB => network.mpCodeEHAtomic message.receiver message.value
  | .publicEx | .publicExAtomic => []

/-- The two broadcasts, which differ in how they run the function on this machine and in
what they tell `PCS_SendData`. -/
def broadcast (atomic : Bool) (here : Machine Client) (scriptArguments : Value Object)
    (name : Text) (machine : Value Object) (pipe : Pipe) : List (Action Object) :=
  let scriptEx : Value Object :=
    match network.functionNumber name with
    | some number => .scalar number
    | none => .nil
  let packet := [scriptArguments, scriptEx, machine]
  let execute : Action Object := .ofBroadcast atomic (.run scriptArguments scriptEx)
  let send (type : AddressType) : Action Object :=
    .spawnAtomic (.sendData packet type atomic (some pipe))
  match machine with
  | .object object => if network.locality object = here then [execute] else [send .objectLocal]
  -- what follows the first `if` then compares a number to a string, an error
  | .scalar _ => [send .temporaryId]
  | .array elements =>
      match Value.select elements 0 with
      | .string group =>
          if fold group = fold "SERVER".toList then
            if here.isServer then [execute] else [send .server]
          else if fold group = fold "CLIENT".toList then [send .client]
          else if fold group = fold "ALL".toList then [send .all, execute]
          else []
      | _ => []
  | .string id => if fold id = fold (network.uniqueOf here) then [execute] else [send .uid]
  | .nil => []

def mpCodeBroadcast : Machine Client → Value Object → Text → Value Object → Pipe →
    List (Action Object) :=
  network.broadcast false

def mpCodeBroadcastAtomic : Machine Client → Value Object → Text → Value Object → Pipe →
    List (Action Object) :=
  network.broadcast true

end Network

end OperationFrontLine.Routing
