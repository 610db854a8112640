import OperationFrontLine.Library.Run

/-!
# The vehicle respawn system

The server sends `VRS_VEHICLE_LIST` in blocks of five.  One cursor serves all requests: a
pass that starts with one request pending goes to the client that asked last, any other pass
to everybody.  A client appends a block that starts where its own list ends and drops the
others; an update of one index is ignored while the list does not reach it.
-/

namespace OperationFrontLine.Vehicles

universe u v

inductive Element (Vehicle : Type u) where
  | nil
  | number (value : ℤ)
  | vehicle (vehicle : Vehicle)
  deriving DecidableEq, Repr

variable {Vehicle : Type u} {Uid : Type v}

namespace Element

/-- The number `-1`, which marks what an array subtraction removes. -/
def isMark : Element Vehicle → Bool
  | number value => value == -1
  | _ => false

def isVehicle : Element Vehicle → Bool
  | vehicle _ => true
  | _ => false

@[simp]
theorem isMark_number (value : ℤ) :
    (number value : Element Vehicle).isMark = (value == -1) := rfl

@[simp]
theorem isMark_vehicle (value : Vehicle) : (vehicle value).isMark = false := rfl

@[simp]
theorem isVehicle_number (value : ℤ) : (number value : Element Vehicle).isVehicle = false := rfl

@[simp]
theorem isVehicle_vehicle (value : Vehicle) : (vehicle value).isVehicle = true := rfl

end Element

/-- `array set [index, element]`; a place beyond the end is reached through nils. -/
def setElement (array : List (Element Vehicle)) (index : ℕ) (element : Element Vehicle) :
    List (Element Vehicle) :=
  if index < array.length then array.set index element
  else array ++ List.replicate (index - array.length) .nil ++ [element]

inductive FunctionName where
  /-- `VR_AddVBlck` -/
  | addVBlck
  /-- `VR_UpdIndex` -/
  | updIndex
  deriving DecidableEq, Repr

/-- A call on its way to a client, with the server's list as it was when it was sent. -/
structure Message (Vehicle : Type u) where
  function : FunctionName
  arguments : List (Element Vehicle)
  vehicleList : List Vehicle
  deriving DecidableEq, Repr

def Message.Concerns (index : ℕ) (message : Message Vehicle) : Prop :=
  match message.function, message.arguments with
  | .addVBlck, .number start :: rest =>
      start ≤ index ∧ index < start + rest.countP Element.isVehicle
  | .updIndex, .number place :: _ => place = index
  | _, _ => False

structure Client (Vehicle : Type u) where
  /-- `VRS_VEHICLE_LIST`, which is nil until the first block comes -/
  vehicleList : Option (List (Element Vehicle))
  /-- `VRS_VEHICLE_COUNT` -/
  vehicleCount : Option (Element Vehicle)
  /-- what was sent to the client and not handled yet, oldest first -/
  inbox : List (Message Vehicle)
  /-- what the client has handled, newest first -/
  handled : List (Message Vehicle)
  /-- the server has handled a request of the client -/
  asked : Bool
  deriving DecidableEq, Repr

namespace Client

def joining : Client Vehicle where
  vehicleList := none
  vehicleCount := none
  inbox := []
  handled := []
  asked := false

def store (vehicleList : List (Element Vehicle)) (index : ℕ) :
    List (Element Vehicle) → List (Element Vehicle)
  | [] => vehicleList
  | element :: args => store (setElement vehicleList index element) (index + 1) args

def addVBlck (client : Client Vehicle) (this : List (Element Vehicle)) : Client Vehicle :=
  let vehicleList := client.vehicleList.getD []
  match this.head? with
  | some (.number index) =>
      if index ≠ vehicleList.length then { client with vehicleList := some vehicleList }
      else
        let args := this.set 0 (.number (-1))
        let args := if index < 1 then args.set 1 (.number (-1)) else args
        let args := args.filter fun element => !element.isMark
        { client with
          vehicleCount := if index < 1 then this[1]? else client.vehicleCount
          vehicleList := some (store vehicleList index.toNat args) }
  | _ => { client with vehicleList := some vehicleList }

/-- `VRS_UpdIndex`; a negative index would be an error, which ends the script. -/
def updIndex (client : Client Vehicle) (this : List (Element Vehicle)) : Client Vehicle :=
  match client.vehicleList, this.head? with
  | some vehicleList, some (.number index) =>
      if index ≥ vehicleList.length ∨ index < 0 then client
      else
        { client with
          vehicleList := some (setElement vehicleList index.toNat (this[1]?.getD .nil)) }
  | _, _ => client

def handle (client : Client Vehicle) (message : Message Vehicle) : Client Vehicle :=
  match message.function with
  | .addVBlck => client.addVBlck message.arguments
  | .updIndex => client.updIndex message.arguments

def post (client : Client Vehicle) (message : Message Vehicle) : Client Vehicle :=
  { client with inbox := client.inbox ++ [message] }

/-- The client handles the oldest message that it has not handled. -/
def deliver (client : Client Vehicle) : Option (Client Vehicle) :=
  match client.inbox with
  | [] => none
  | message :: inbox =>
      some { client.handle message with inbox, handled := message :: client.handled }

end Client

inductive Machine (Uid : Type v) where
  /-- `PCS_S_ALL` -/
  | all
  /-- the UID of a player; `none` is `""` -/
  | uid (uid : Option Uid)
  deriving DecidableEq, Repr

def Machine.Covers (machine : Machine Uid) (uid : Uid) : Prop :=
  machine = .all ∨ machine = .uid (some uid)

instance [DecidableEq Uid] (machine : Machine Uid) (uid : Uid) :
    Decidable (machine.Covers uid) :=
  inferInstanceAs (Decidable (_ ∨ _))

structure State (Uid : Type v) (Vehicle : Type u) where
  /-- `VRS_PENDING_CLIENTS` -/
  pendingClients : ℕ
  /-- `VRS_LAST_CLIENT` -/
  lastClient : Option Uid
  /-- `VRS_ADDR` -/
  addr : Machine Uid
  /-- `VRS_BLCK_CURRENT_INDEX` -/
  currentIndex : ℕ
  /-- `VRS_VEHICLE_LIST` of the server -/
  vehicleList : List Vehicle
  /-- `VRS_VEHICLE_COUNT` of the server -/
  vehicleCount : ℕ
  /-- `VRS_MainThread` is a per-frame event -/
  mainThread : Bool
  /-- the machines that are connected, by the UIDs of their players -/
  clients : Uid → Option (Client Vehicle)

def blckSize : ℕ := 5

namespace State

/-- `VRS_InitVehicleRespawn`; without vehicles the list is nil and no event is added. -/
def initVehicleRespawn (vehicles : List Vehicle) : State Uid Vehicle where
  pendingClients := 0
  lastClient := none
  addr := .uid none
  currentIndex := 0
  vehicleList := vehicles
  vehicleCount := vehicles.length
  mainThread := !vehicles.isEmpty
  clients _ := none

variable [DecidableEq Uid]

def setClient (state : State Uid Vehicle) (uid : Uid) (client : Option (Client Vehicle)) :
    State Uid Vehicle :=
  { state with clients := Function.update state.clients uid client }

def broadcast (state : State Uid Vehicle) (function : FunctionName)
    (arguments : List (Element Vehicle)) (machine : Machine Uid) : State Uid Vehicle :=
  { state with
    clients uid := (state.clients uid).map fun client =>
      if machine.Covers uid then client.post ⟨function, arguments, state.vehicleList⟩
      else client }

def connectUID (state : State Uid Vehicle) (uid : Uid) : State Uid Vehicle :=
  { state with
    pendingClients := state.pendingClients + 1
    lastClient := some uid
    clients := Function.update state.clients uid
      ((state.clients uid).map fun client => { client with asked := true }) }

/-- `VRS_RespawnVehicle`, where a vehicle of the list is replaced. -/
def respawnVehicle (state : State Uid Vehicle) (index : ℕ) (newVehicle : Vehicle) :
    State Uid Vehicle :=
  { state with vehicleList := state.vehicleList.set index newVehicle }.broadcast .updIndex
    [.number index, .vehicle newVehicle] .all

/-- The vehicles that the loop of `VRS_MainThread` puts behind `_arg`, from its counter `i`
on, when it may run `rounds` times. -/
def block (state : State Uid Vehicle) : ℕ → ℕ → List (Element Vehicle)
  | 0, _ => []
  | rounds + 1, i =>
      if state.currentIndex + i < state.vehicleCount then
        (state.vehicleList[state.currentIndex + i]?).elim .nil .vehicle ::
          state.block rounds (i + 1)
      else []

/-- The part of `VRS_MainThread` that sends one block. -/
def sendBlock (state : State Uid Vehicle) : State Uid Vehicle :=
  let vehicles := state.block blckSize 0
  let sent : State Uid Vehicle :=
    if state.currentIndex < 1 then
      let addr : Machine Uid :=
        if state.pendingClients = 1 then .uid state.lastClient else .all
      { state with
        addr, pendingClients := 0
        currentIndex := state.currentIndex + vehicles.length }.broadcast .addVBlck
          (.number 0 :: .number state.vehicleCount :: vehicles) addr
    else
      { state with
        currentIndex := state.currentIndex + vehicles.length }.broadcast .addVBlck
          (.number state.currentIndex :: vehicles) state.addr
  if sent.currentIndex ≥ sent.vehicleCount then { sent with currentIndex := 0 } else sent

end State

inductive Event (Uid : Type v) (Vehicle : Type u) where
  /-- a machine connects -/
  | connect (uid : Uid)
  /-- the server handles `PCS_ConnectUID` -/
  | connectUID (uid : Uid)
  /-- a machine leaves -/
  | leave (uid : Uid)
  /-- the server replaces the vehicle at `index` -/
  | respawnVehicle (index : ℕ) (newVehicle : Vehicle)
  /-- the server sends a block, when `VRS_BLCK_DELAY` is over -/
  | sendBlock
  /-- a client handles the next message -/
  | deliver (uid : Uid)
  deriving DecidableEq, Repr

def step [DecidableEq Uid] (state : State Uid Vehicle) :
    Event Uid Vehicle → Option (State Uid Vehicle)
  | .connect uid =>
      if (state.clients uid).isNone then some (state.setClient uid (some .joining)) else none
  | .connectUID uid => some (state.connectUID uid)
  | .leave uid => some (state.setClient uid none)
  | .respawnVehicle index newVehicle =>
      if state.mainThread ∧ index < state.vehicleList.length then
        some (state.respawnVehicle index newVehicle)
      else none
  | .sendBlock =>
      if state.mainThread ∧ (state.pendingClients > 0 ∨ state.currentIndex > 0) then
        some state.sendBlock
      else none
  | .deliver uid =>
      (state.clients uid).bind fun client =>
        client.deliver.map fun next => state.setClient uid (some next)

end OperationFrontLine.Vehicles
