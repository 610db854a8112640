import OperationFrontLine.Rank.State
import OperationFrontLine.Library.Run

/-!
# The handlers of the rank module

One definition for each script of the module, and one step of the machine for
each event of the engine that runs them.  When a timer is due, what the
extension answers and when a vehicle is deleted is chosen by the event.
-/

namespace OperationFrontLine.Rank

open OperationFrontLine.Library

variable {Uid Name Number : Type} [DecidableEq Uid] [DecidableEq Name]
  [Field Number] [LinearOrder Number]

namespace State

/-- `PCS_AddConnection`, as far as this module reads its tables. -/
def addConnection (state : State Uid Name Number) (uid : Uid) (name : Name) :
    State Uid Name Number :=
  { state with
    lastId := state.lastId + 1
    clients := Function.update state.clients uid (some ⟨name, state.lastId + 1⟩)
    uidOf := Function.update state.uidOf (state.lastId + 1) (some uid) }

def removeConnection (state : State Uid Name Number) (uid : Uid) (client : Client Name) :
    State Uid Name Number :=
  { state with
    clients := Function.update state.clients uid none
    uidOf := Function.update state.uidOf client.id none }

/-- The record that `AddPlayer.sqf` creates while the database is still asked. -/
def emptyAccount : Account Number :=
  ⟨0, 0, 0, 0, 0, 0, 0, 0, 0, 0, 0, 0, 0, 0⟩

/-- `PCS_RNK_CreateRecord` with a record that is not activated: `points` is the
progress of the last connection. -/
def createRecord (state : State Uid Name Number) (uid : Uid) (handle : Handle)
    (points : Number) : State Uid Name Number :=
  { state.setSlot uid (.session ⟨⟨uid, emptyAccount⟩, handle, points⟩) with
    active := pushBackUnique state.active uid }

/-- `PCS_RNK_CreateRecord` with the reply of the database. -/
def activateRecord (uid : Uid) (account : Account Number) (handle : Handle)
    (state : State Uid Name Number) : Outcome (State Uid Name Number) :=
  match state.session? uid with
  | none => .stopped state
  | some session =>
      .finished <| state.setSlot uid <|
        .session ⟨{ session.record with account }, handle, session.points⟩

def connect (state : State Uid Name Number) (uid : Uid) (name : Name) (rejoin : Bool)
    (points : Number) : State Uid Name Number :=
  let handle := state.lastThread
  let connected := { state.call (.connect handle uid rejoin) with
    accountName := Function.update state.accountName handle (some uid) }
  let created := connected.createRecord uid handle points
  { created with pending := created.pending ++ [some ⟨uid, name, handle⟩] }

def addPlayer (uid : Uid) (name : Name) (state : State Uid Name Number) :
    Outcome (State Uid Name Number) :=
  if state.running then
    let numbered := { state with lastThread := state.lastThread + 2 }
    match state.records uid with
    | none => .finished (numbered.connect uid name false 0)
    | some (.points value) => .finished (numbered.connect uid name (0 < value) value)
    | some (.session _) => .stopped numbered
  else .finished state

/-- The first lines of `RemovePlayer.sqf`: the player is on no list any more. -/
def unlist (state : State Uid Name Number) (uid : Uid) : State Uid Name Number :=
  { state with
    west := without state.west uid
    east := without state.east uid
    active := without state.active uid }

/-- The removal of a record that is activated: publish it and drop the entry
that its `_LPI` variable points to. -/
def retireRecord (state : State Uid Name Number) (uid : Uid) (session : Session Uid Number) :
    State Uid Name Number :=
  let published := state.call (.publishAccount session.handle session.record)
  match state.lpi uid with
  | none => published
  | some index =>
      { published with
        publish := deleteAt state.publish index
        lpi := Function.update state.lpi uid none }

def closeRecord (settings : Settings Number) (state : State Uid Name Number) (uid : Uid)
    (session : Session Uid Number) : State Uid Name Number :=
  let unset := { state with
    agreed := Function.update state.agreed uid false
    side := Function.update state.side uid none }
  (unset.setSlot uid (.points session.points)).call <|
    .commit [(session.handle, decide (0 < session.points) && settings.ranked)]

/-- `PCS_RNK_RemovePlayer`; `find` and `deleteAt` take out the first such entry. -/
def removePlayer (settings : Settings Number) (uid : Uid) (name : Name)
    (state : State Uid Name Number) : Outcome (State Uid Name Number) :=
  if state.running then
    match state.session? uid with
    | none => .stopped state
    | some session =>
        let entry := some ⟨uid, name, session.handle⟩
        let removed :=
          if entry ∈ state.pending then
            { state.unlist uid with pending := state.pending.erase entry }
          else (state.unlist uid).retireRecord uid session
        .finished (removed.closeRecord settings uid session)
  else .finished state

/-- `PCS_RNK_PUBLISH pushBackUnique [uid, id]`, stored in the `_LPI` variable. -/
def pushPublish (state : State Uid Name Number) (uid : Uid) (id : ClientId) :
    State Uid Name Number :=
  { state with
    lpi := Function.update state.lpi uid (some (pushBackUniqueIndex state.publish (uid, id)))
    publish := pushBackUnique state.publish (uid, id) }

def killReward (settings : Settings Number) : Number :=
  if settings.ranked then 1 else 5

def updatePlayerKills (settings : Settings Number) (uid : Uid) (id : ClientId)
    (state : State Uid Name Number) : Outcome (State Uid Name Number) :=
  match state.session? uid with
  | none => .stopped state
  | some session =>
      let account := { session.record.account with
        kills := session.record.account.kills + 1
        chickens := session.record.account.chickens + killReward settings }
      let counted := state.setSlot uid (.session (session.withAccount account))
      .finished (counted.pushPublish uid id)

/-- `PCS_SHOP_CreateVehicle`, and the registration of the new vehicle. -/
def createVehicle (state : State Uid Name Number) (uid : Uid) (shopSide : ShopSide)
    (category : ℕ) : State Uid Name Number :=
  let object := state.shop.lastObject + 1
  { state with
    shop := { state.shop with
      registered := Function.update state.shop.registered uid
        (Function.update (state.shop.registered uid) shopSide (some object))
      objects := object :: state.shop.objects
      lastObject := object
      threads := state.shop.threads ++ [⟨shopSide, category, uid, object, 0⟩] } }

def hasVehicle (state : State Uid Name Number) (uid : Uid) (shopSide : ShopSide) : Bool :=
  match state.shop.registered uid shopSide with
  | none => false
  | some object => decide (object ∈ state.shop.objects)

def addToCount (state : State Uid Name Number) (category : ℕ) (shopSide : ShopSide)
    (change : ℤ) : State Uid Name Number :=
  { state with
    shop := { state.shop with
      count := Function.update state.shop.count category
        (Function.update (state.shop.count category) shopSide
          (state.shop.count category shopSide + change)) } }

/-- The handler of `PCS_RNK_PIPE`.  Without a side none of its conditions has a
value, and nothing is done. -/
def purchase (settings : Settings Number) (id : ClientId) (index : ℕ)
    (state : State Uid Name Number) : Outcome (State Uid Name Number) :=
  match state.uidOf id with
  | none => .finished state
  | some uid =>
    match state.side uid with
    | none => .finished state
    | some side =>
      match (settings.vehicles side.shopSide)[index]? with
      | none => .stopped state
      | some vehicle =>
        match settings.categoryLimits[vehicle.category]? with
        | none => .stopped state
        | some limit =>
          if !state.hasVehicle uid side.shopSide &&
              decide (state.shop.count vehicle.category side.shopSide < limit) then
            match state.session? uid with
            | none => .stopped state
            | some session =>
              if vehicle.price ≤ session.record.account.chickens then
                let account := { session.record.account with
                  chickens := session.record.account.chickens - vehicle.price }
                let paid := state.setSlot uid (.session (session.withAccount account))
                let counted := paid.addToCount vehicle.category side.shopSide 1
                .finished <|
                  (counted.pushPublish uid id).createVehicle uid side.shopSide vehicle.category
              else .finished state
          else .finished state

/-- The next statement of a shop thread whose vehicle is abandoned. -/
def expire (state : State Uid Name Number) (thread : ShopThread Uid) :
    State Uid Name Number :=
  match thread.statements with
  | 0 =>
      { state with
        shop := { state.shop with objects := without state.shop.objects thread.object } }
  | 1 =>
      if state.hasVehicle thread.uid thread.side then state
      else
        { state with
          shop := { state.shop with
            registered := Function.update state.shop.registered thread.uid
              (Function.update (state.shop.registered thread.uid) thread.side none) } }
  | 2 => state.addToCount thread.category thread.side (-1)
  | _ => state

end State

end OperationFrontLine.Rank
