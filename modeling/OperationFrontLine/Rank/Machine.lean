import OperationFrontLine.Rank.Handlers

/-!
# Frames, the end of the game and the machine

The `EachFrame` handler of `RankMain.sqf` with its three parts, `EndGame.sqf`,
and the step of the machine, which runs one handler for each event.  A handler
that is stopped by an error leaves the state as far as it came.
-/

namespace OperationFrontLine.Rank

open OperationFrontLine.Library

variable {Uid Name Number : Type} [DecidableEq Uid] [DecidableEq Name]
  [Field Number] [LinearOrder Number]

namespace State

def enlist (state : State Uid Name Number) (uid : Uid) : State Uid Name Number :=
  if state.side uid = some .west then
    { state with west := pushBackUnique state.west uid }
  else { state with east := pushBackUnique state.east uid }

/-- The branch for a reply: mark the entry as done, activate its record, and
enlist the player if he has points in this match or is not banned.  Otherwise
he is kicked, which the engine reports as a disconnect later. -/
def receiveRecord (index : ℕ) (entry : PendingRecord Uid Name) (answer : Answer Number)
    (state : State Uid Name Number) : Outcome (State Uid Name Number) :=
  let marked := { state with pending := state.pending.set index none }
  match state.accountName entry.handle with
  | none => .stopped marked
  | some uidName =>
    (marked.activateRecord uidName answer.account entry.handle).andThen fun activated =>
      match activated.session? entry.uid with
      | none => .stopped activated
      | some session =>
        if 0 < session.points ∨ answer.banned < 1 then
          .finished (activated.enlist entry.uid)
        else .finished activated

def checkPending (answers : Handle → Option (Answer Number))
    (element : Option (PendingRecord Uid Name) × ℕ) (state : State Uid Name Number) :
    Outcome (State Uid Name Number) :=
  match element.1 with
  | none => .stopped state
  | some entry =>
    if (state.side entry.uid).isSome ∧ state.agreed entry.uid = true then
      let asked := state.call (.getOutput entry.handle (answers entry.handle))
      match answers entry.handle with
      | none => .finished asked
      | some answer => asked.receiveRecord element.2 entry answer
    else .finished state

/-- The loop over the pending records, and the removal of those marked. -/
def checkPendings (answers : Handle → Option (Answer Number))
    (state : State Uid Name Number) : Outcome (State Uid Name Number) :=
  (forEach (checkPending answers) state.pending.zipIdx state).andThen fun checked =>
    .finished { checked with pending := checked.pending.filter Option.isSome }

/-- The sum of the ranks that the loops of `PointAccumulator.sqf` take. -/
def rankTotal (state : State Uid Name Number) (uids : List Uid) : Option Number :=
  (uids.mapM state.session?).map fun sessions =>
    (sessions.map fun session => session.record.account.rank).sum

end State

/-- The end of `PointAccumulator.sqf`, from the averages on. -/
def accumulatedPoints (engine : Engine Number)
    (friendRank enemyRank friendPlayers enemyPlayers : Number) : Number :=
  let difference := enemyPlayers - friendPlayers
  if 0 < difference then
    engine.sqrt ((enemyRank - friendRank + 7) ^ 2 / 49 +
      (1 + engine.sqrt (difference ^ 2) / difference *
        (1 - engine.exp (0 - (difference / 6) ^ 2))) ^ 2)
  else engine.sqrt ((enemyRank - friendRank + 7) ^ 2 / 49 + 1)

namespace State

/-- `PCS_RNK_PointAccumulator`; the loop over the enemies runs, but its results
are overwritten. -/
def pointAccumulator (engine : Engine Number) (state : State Uid Name Number)
    (friendRecords enemyRecords : List Uid) : Option Number :=
  match state.rankTotal friendRecords with
  | none => none
  | some friendTotal =>
    if friendRecords.length < 1 then some 0
    else
      match state.rankTotal enemyRecords with
      | none => none
      | some _ =>
        let rankTotal := 1
        let enemyPlayers := 1
        some <| accumulatedPoints engine (friendTotal / friendRecords.length)
          (rankTotal / enemyPlayers) friendRecords.length enemyPlayers

/-- `_rec set [2, (_rec select 2) + _accum]` -/
def credit (points : Number) (uid : Uid) (state : State Uid Name Number) :
    Outcome (State Uid Name Number) :=
  match state.session? uid with
  | none => .stopped state
  | some session =>
      .finished <| state.setSlot uid <|
        .session { session with points := session.points + points }

def creditSide (engine : Engine Number) (friendRecords enemyRecords : List Uid)
    (state : State Uid Name Number) : Outcome (State Uid Name Number) :=
  match state.pointAccumulator engine friendRecords enemyRecords with
  | none => .stopped state
  | some points => forEach (credit points) friendRecords state

/-- What is done once a second, less the kicking of players whose connection to
the database is dead. -/
def accumulateRank (settings : Settings Number) (state : State Uid Name Number) :
    Outcome (State Uid Name Number) :=
  if state.clockStart ∧ settings.ranked = true then
    let ticked := { state with realGameLength := state.realGameLength + 1 }
    (ticked.creditSide settings.engine ticked.west ticked.east).andThen fun credited =>
      credited.creditSide settings.engine credited.east credited.west
  else .finished state

def publishSession (state : State Uid Name Number) (uid : Uid) (session : Session Uid Number) :
    State Uid Name Number :=
  { state.call (.publishAccount session.handle session.record) with
    lpi := Function.update state.lpi uid none }

def publishEntry (entry : Uid × ClientId) (state : State Uid Name Number) :
    Outcome (State Uid Name Number) :=
  match state.session? entry.1 with
  | none => .stopped state
  | some session => .finished (state.publishSession entry.1 session)

def publishRecords (state : State Uid Name Number) : Outcome (State Uid Name Number) :=
  (forEach publishEntry state.publish state).andThen fun published =>
    .finished { published with publish := [] }

def frame (settings : Settings Number) (answers : Handle → Option (Answer Number))
    (rankDue publishDue : Bool) (state : State Uid Name Number) :
    Outcome (State Uid Name Number) :=
  (state.checkPendings answers).andThen fun checked =>
    (if rankDue then checked.accumulateRank settings else .finished checked).andThen
      fun ranked => if publishDue then ranked.publishRecords else .finished ranked

end State

namespace Account

def win (account : Account Number) (points : Number) : Account Number :=
  let below := account.level + points < 1000
  { account with
    rank := if below ∨ account.rank = 8 then account.rank else account.rank + 1
    level := if below then account.level + points else if account.rank = 8 then 1000 else 0
    matches' := account.matches' + 1
    wins := account.wins + 1 }

def lose (account : Account Number) (points : Number) : Account Number :=
  let above := 0 < account.level - (200 - points)
  { account with
    rank := if above ∨ account.rank < 2 then account.rank else account.rank - 1
    level :=
      if above then account.level - (200 - points) else if account.rank < 2 then 0 else 1000
    matches' := account.matches' + 1
    losses := account.losses + 1 }

def draw (account : Account Number) (points : Number) : Account Number :=
  { account.win points with losses := account.losses + 1 }

/-- The branches of `EndGame.sqf`; without a side neither is taken. -/
def afterMatch (account : Account Number) (points : Number) (winTeam : Side)
    (side : Option Side) : Account Number :=
  if winTeam = .independent then account.draw points
  else
    match side with
    | none => account
    | some side => if side = winTeam then account.win points else account.lose points

end Account

/-- `round (points * 100 / ((sqrt 2) * PCS_RNK_REAL_GL))` -/
def matchPoints (engine : Engine Number) (points : Number) (realGameLength : ℕ) : Number :=
  engine.round (points * 100 / (engine.sqrt 2 * realGameLength))

namespace State

/-- The update of one record in `EndGame.sqf`: dividing by zero is an error. -/
def rateRecord (settings : Settings Number) (winTeam : Side) (uid : Uid)
    (state : State Uid Name Number) : Outcome (State Uid Name Number) :=
  match state.session? uid with
  | none => .stopped state
  | some session =>
    if state.realGameLength = 0 then .stopped state
    else
      let points := matchPoints settings.engine session.points state.realGameLength
      let account := session.record.account.afterMatch points winTeam (state.side uid)
      .finished (state.setSlot uid (.session (session.withAccount account)))

def finishRecord (settings : Settings Number) (winTeam : Side) (uid : Uid)
    (state : State Uid Name Number) : Outcome (State Uid Name Number) :=
  (if settings.ranked then state.rateRecord settings winTeam uid
    else .finished state).andThen fun rated =>
      match rated.session? uid with
      | none => .stopped rated
      | some session => .finished (rated.call (.publishAccount session.handle session.record))

/-- The end of `EndGame.sqf`: one `Commit` for all records that are active. -/
def commitActive (state : State Uid Name Number) : Outcome (State Uid Name Number) :=
  if state.active.length < 1 then .finished state
  else
    match state.active.mapM state.session? with
    | none => .stopped state
    | some sessions =>
        .finished (state.call (.commit (sessions.map fun session => (session.handle, false))))

def endGame (settings : Settings Number) (winTeam : Side) (state : State Uid Name Number) :
    Outcome (State Uid Name Number) :=
  (forEach (finishRecord settings winTeam) (state.west ++ state.east)
    { state with running := false }).andThen commitActive

end State

inductive Event (Uid Name Number : Type) where
  /-- `PCS_OnConnected` -/
  | connect (uid : Uid) (name : Name)
  /-- `PCS_OnDisconnected`, which passes the name the player connected with. -/
  | disconnect (uid : Uid)
  /-- `PCS_RNK_Agree` -/
  | agree (id : ClientId)
  /-- The player of a connected client was found among the units. -/
  | setSide (uid : Uid) (side : Side)
  /-- `OPFL_CLOCK_START = true` -/
  | startClock
  /-- A call of `PCS_RNK_UpdatePlayerKills` by `PCS_OnKilled`. -/
  | kill (uid : Uid)
  /-- A message on `PCS_RNK_PIPE`. -/
  | purchase (id : ClientId) (index : ℕ)
  | deleteVehicle (object : ℕ)
  /-- A statement of a shop thread. -/
  | expire (thread : ℕ)
  | frame (answers : Handle → Option (Answer Number)) (rankDue publishDue : Bool)
  | endGame (winTeam : Side)

/-- The state after an event.  A player connects only when he is not connected,
and disconnects only when he is; the game ends once.  On a disconnect
`PCS_RNK_RemovePlayer` runs first and `PCS_RemoveConnection` last. -/
def step (settings : Settings Number) (state : State Uid Name Number) :
    Event Uid Name Number → Option (State Uid Name Number)
  | .connect uid name =>
      match state.clients uid with
      | none => some ((state.addConnection uid name).addPlayer uid name).state
      | some _ => none
  | .disconnect uid =>
      match state.clients uid with
      | none => none
      | some client =>
          some ((state.removePlayer settings uid client.name).state.removeConnection uid client)
  | .agree id =>
      match state.uidOf id with
      | none => some state
      | some uid => some { state with agreed := Function.update state.agreed uid true }
  | .setSide uid side =>
      match state.clients uid with
      | none => some state
      | some _ => some { state with side := Function.update state.side uid (some side) }
  | .startClock => some { state with clockStart := true }
  | .kill uid =>
      match state.clients uid with
      | none => some state
      | some client =>
          if state.running then some (state.updatePlayerKills settings uid client.id).state
          else some state
  | .purchase id index => some (state.purchase settings id index).state
  | .deleteVehicle object =>
      some { state with
        shop := { state.shop with objects := without state.shop.objects object } }
  | .expire index =>
      match state.shop.threads[index]? with
      | none => some state
      | some thread =>
          let expired := state.expire thread
          some { expired with
            shop := { expired.shop with
              threads := expired.shop.threads.set index
                { thread with statements := thread.statements + 1 } } }
  | .frame answers rankDue publishDue =>
      if state.running then some (state.frame settings answers rankDue publishDue).state
      else some state
  | .endGame winTeam =>
      if state.running then some (state.endGame settings winTeam).state else none

/-- A ranked match without a shop, on rational numbers. -/
def plainSettings : Settings ℚ where
  engine := .rational
  ranked := true
  vehicles _ := []
  categoryLimits := []

/-- The database answers at once, with an account of rank 3 and level 250. -/
def answerAll : Handle → Option (Answer ℚ) := fun _ =>
  some ⟨⟨3, 250, 40, 22, 18, 900, 17, 0, 0, 0, 0, 0, 0, 0⟩, 0⟩

end OperationFrontLine.Rank
