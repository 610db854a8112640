import OperationFrontLine.Rank.Machine

/-!
# The roster of the rank module

Which players have a session, with which handle, and on which lists they are.
The lists agree with one another in every state that a running match reaches,
whatever the events; so no handler but the publishing loop and `EndGame` can be
stopped by an error.
-/

namespace OperationFrontLine.Rank

open OperationFrontLine.Library

variable {Uid Name Number : Type}

/-- The events that concern neither the connections nor the extension. -/
def Event.Quiet : Event Uid Name Number → Prop
  | .connect _ _ | .disconnect _ | .frame _ _ _ | .endGame _ => False
  | _ => True

namespace State

def handleOf (state : State Uid Name Number) (uid : Uid) : Option Handle :=
  (state.session? uid).map Session.handle

theorem handleOf_eq_some_iff {state : State Uid Name Number} {uid : Uid} {handle : Handle} :
    state.handleOf uid = some handle ↔
      ∃ session, state.session? uid = some session ∧ session.handle = handle :=
  Option.map_eq_some_iff

theorem handleOf_isSome {state : State Uid Name Number} {uid : Uid} :
    (state.handleOf uid).isSome ↔ (state.session? uid).isSome := by
  simp [handleOf]

@[simp]
theorem session?_call (state : State Uid Name Number) (made : ExtensionCall Uid Number)
    (uid : Uid) : (state.call made).session? uid = state.session? uid := rfl

theorem session?_congr {before after : State Uid Name Number}
    (records : after.records = before.records) : after.session? = before.session? := by
  funext uid
  rw [session?, session?, records]

/-- Two states with the same players on the same lists with the same handles, and
the match running in both or in neither. -/
structure SameRoster (before after : State Uid Name Number) : Prop where
  handleOf : after.handleOf = before.handleOf
  accountName : after.accountName = before.accountName
  lastThread : after.lastThread = before.lastThread
  clients : after.clients = before.clients
  pending : after.pending = before.pending
  active : after.active = before.active
  west : after.west = before.west
  east : after.east = before.east
  running : after.running = before.running

theorem SameRoster.refl (state : State Uid Name Number) : SameRoster state state :=
  ⟨rfl, rfl, rfl, rfl, rfl, rfl, rfl, rfl, rfl⟩

theorem SameRoster.trans {first second third : State Uid Name Number}
    (left : SameRoster first second) (right : SameRoster second third) :
    SameRoster first third where
  handleOf := right.handleOf.trans left.handleOf
  accountName := right.accountName.trans left.accountName
  lastThread := right.lastThread.trans left.lastThread
  clients := right.clients.trans left.clients
  pending := right.pending.trans left.pending
  active := right.active.trans left.active
  west := right.west.trans left.west
  east := right.east.trans left.east
  running := right.running.trans left.running

variable [DecidableEq Uid]

@[simp]
theorem session?_setSlot_session (state : State Uid Name Number) (uid other : Uid)
    (session : Session Uid Number) :
    (state.setSlot uid (.session session)).session? other =
      if other = uid then some session else state.session? other := by
  by_cases same : other = uid
  · subst same
    simp [setSlot, session?]
  · simp [setSlot, session?, same]

@[simp]
theorem session?_setSlot_points (state : State Uid Name Number) (uid other : Uid)
    (value : Number) :
    (state.setSlot uid (.points value)).session? other =
      if other = uid then none else state.session? other := by
  by_cases same : other = uid
  · subst same
    simp [setSlot, session?]
  · simp [setSlot, session?, same]

/-- Changing a session but not its handle leaves the roster as it is. -/
theorem sameRoster_setSlot {state : State Uid Name Number} {uid : Uid}
    {session changed : Session Uid Number} (found : state.session? uid = some session)
    (sameHandle : changed.handle = session.handle) :
    SameRoster state (state.setSlot uid (.session changed)) := by
  refine ⟨?_, rfl, rfl, rfl, rfl, rfl, rfl, rfl, rfl⟩
  funext other
  by_cases same : other = uid
  · subst same
    simp [State.handleOf, found, sameHandle]
  · simp [State.handleOf, same]

theorem sameRoster_withAccount {state : State Uid Name Number} {uid : Uid}
    {session : Session Uid Number} (found : state.session? uid = some session)
    (account : Account Number) :
    SameRoster state (state.setSlot uid (.session (session.withAccount account))) :=
  sameRoster_setSlot found rfl

theorem sameRoster_expire (state : State Uid Name Number) (thread : ShopThread Uid) :
    SameRoster state (state.expire thread) := by
  unfold expire
  split
  · exact ⟨rfl, rfl, rfl, rfl, rfl, rfl, rfl, rfl, rfl⟩
  · split
    · exact .refl state
    · exact ⟨rfl, rfl, rfl, rfl, rfl, rfl, rfl, rfl, rfl⟩
  · exact ⟨rfl, rfl, rfl, rfl, rfl, rfl, rfl, rfl, rfl⟩
  · exact .refl state

theorem sameRoster_retireRecord (state : State Uid Name Number) (uid : Uid)
    (session : Session Uid Number) : SameRoster state (state.retireRecord uid session) := by
  unfold retireRecord
  simp only
  split <;> exact ⟨rfl, rfl, rfl, rfl, rfl, rfl, rfl, rfl, rfl⟩

theorem calls_expire (state : State Uid Name Number) (thread : ShopThread Uid) :
    (state.expire thread).calls = state.calls := by
  unfold expire
  split
  · rfl
  · split <;> rfl
  · rfl
  · rfl

theorem publishEntry_stopped {entry : Uid × ClientId} {state : State Uid Name Number}
    (missing : state.session? entry.1 = none) :
    state.publishEntry entry = .stopped state := by
  simp only [publishEntry, missing]

theorem publishEntry_finished {entry : Uid × ClientId} {state : State Uid Name Number}
    {session : Session Uid Number} (found : state.session? entry.1 = some session) :
    state.publishEntry entry = .finished (state.publishSession entry.1 session) := by
  simp only [publishEntry, found]

theorem sameRoster_publishEntry (entry : Uid × ClientId) (state : State Uid Name Number) :
    SameRoster state (state.publishEntry entry).state := by
  unfold publishEntry
  split
  · exact .refl state
  · exact ⟨rfl, rfl, rfl, rfl, rfl, rfl, rfl, rfl, rfl⟩

theorem sameRoster_publishRecords (state : State Uid Name Number) :
    SameRoster state state.publishRecords.state := by
  unfold publishRecords
  refine Outcome.andThen_invariant (SameRoster state) ?_ ?_
  · refine forEach_invariant (SameRoster state) ?_ (.refl state)
    intro entry _ middle kept
    exact kept.trans (sameRoster_publishEntry entry middle)
  · intro middle kept
    exact kept.trans ⟨rfl, rfl, rfl, rfl, rfl, rfl, rfl, rfl, rfl⟩

variable [Field Number]

theorem sameRoster_updatePlayerKills (settings : Settings Number) (uid : Uid) (id : ClientId)
    (state : State Uid Name Number) :
    SameRoster state (state.updatePlayerKills settings uid id).state := by
  unfold updatePlayerKills
  split
  · exact .refl state
  · next session found =>
      exact (sameRoster_withAccount found _).trans ⟨rfl, rfl, rfl, rfl, rfl, rfl, rfl, rfl, rfl⟩

theorem calls_updatePlayerKills (settings : Settings Number) (uid : Uid) (id : ClientId)
    (state : State Uid Name Number) :
    (state.updatePlayerKills settings uid id).state.calls = state.calls := by
  unfold updatePlayerKills
  split <;> rfl

theorem sameRoster_credit (points : Number) (uid : Uid) (state : State Uid Name Number) :
    SameRoster state (state.credit points uid).state := by
  unfold credit
  split
  · exact .refl state
  · next session found => exact sameRoster_setSlot found rfl

variable [LinearOrder Number]

theorem sameRoster_purchase (settings : Settings Number) (id : ClientId) (index : ℕ)
    (state : State Uid Name Number) :
    SameRoster state (state.purchase settings id index).state := by
  fun_cases purchase settings id index state with
  | case6 uid found side hasSide vehicle listed limit limited inStock session has afford =>
      exact (sameRoster_withAccount has _).trans ⟨rfl, rfl, rfl, rfl, rfl, rfl, rfl, rfl, rfl⟩
  | _ => exact .refl state

theorem calls_purchase (settings : Settings Number) (id : ClientId) (index : ℕ)
    (state : State Uid Name Number) :
    (state.purchase settings id index).state.calls = state.calls := by
  fun_cases purchase settings id index state <;> rfl

theorem sameRoster_creditSide (engine : Engine Number) (friendRecords enemyRecords : List Uid)
    (state : State Uid Name Number) :
    SameRoster state (state.creditSide engine friendRecords enemyRecords).state := by
  unfold creditSide
  split
  · exact .refl state
  · next points _ =>
      refine forEach_invariant (SameRoster state) ?_ (.refl state)
      intro uid _ middle kept
      exact kept.trans (sameRoster_credit points uid middle)

theorem sameRoster_accumulateRank (settings : Settings Number) (state : State Uid Name Number) :
    SameRoster state (state.accumulateRank settings).state := by
  unfold accumulateRank
  split
  · refine Outcome.andThen_invariant (SameRoster state) ?_ ?_
    · have ticked : SameRoster state
          { state with realGameLength := state.realGameLength + 1 } :=
        ⟨rfl, rfl, rfl, rfl, rfl, rfl, rfl, rfl, rfl⟩
      exact ticked.trans (sameRoster_creditSide _ _ _ _)
    · intro middle kept
      exact kept.trans (sameRoster_creditSide _ _ _ middle)
  · exact .refl state

/-- Crediting points neither calls the extension nor touches the publish list. -/
structure SamePublishing (before after : State Uid Name Number) : Prop where
  calls : after.calls = before.calls
  publish : after.publish = before.publish
  lpi : after.lpi = before.lpi

omit [DecidableEq Uid] [Field Number] [LinearOrder Number] in
theorem SamePublishing.trans {first second third : State Uid Name Number}
    (left : SamePublishing first second) (right : SamePublishing second third) :
    SamePublishing first third where
  calls := right.calls.trans left.calls
  publish := right.publish.trans left.publish
  lpi := right.lpi.trans left.lpi

theorem samePublishing_creditSide (engine : Engine Number)
    (friendRecords enemyRecords : List Uid) (state : State Uid Name Number) :
    SamePublishing state (state.creditSide engine friendRecords enemyRecords).state := by
  unfold creditSide
  split
  · exact ⟨rfl, rfl, rfl⟩
  · next points _ =>
      refine forEach_invariant (SamePublishing state) ?_ ⟨rfl, rfl, rfl⟩
      intro uid _ middle kept
      refine kept.trans ?_
      unfold credit
      split <;> exact ⟨rfl, rfl, rfl⟩

theorem samePublishing_accumulateRank (settings : Settings Number)
    (state : State Uid Name Number) :
    SamePublishing state (state.accumulateRank settings).state := by
  unfold accumulateRank
  split
  · refine Outcome.andThen_invariant (SamePublishing state) ?_ ?_
    · have ticked : SamePublishing state
          { state with realGameLength := state.realGameLength + 1 } := ⟨rfl, rfl, rfl⟩
      exact ticked.trans (samePublishing_creditSide _ _ _ _)
    · intro middle kept
      exact kept.trans (samePublishing_creditSide _ _ _ middle)
  · exact ⟨rfl, rfl, rfl⟩

theorem sameRoster_rateRecord (settings : Settings Number) (winTeam : Side) (uid : Uid)
    (state : State Uid Name Number) :
    SameRoster state (state.rateRecord settings winTeam uid).state := by
  unfold rateRecord
  split
  · exact .refl state
  · next session found =>
      split
      · exact .refl state
      · exact sameRoster_withAccount found _

theorem sameRoster_finishRecord (settings : Settings Number) (winTeam : Side) (uid : Uid)
    (state : State Uid Name Number) :
    SameRoster state (state.finishRecord settings winTeam uid).state := by
  unfold finishRecord
  refine Outcome.andThen_invariant (SameRoster state) ?_ ?_
  · split
    · exact sameRoster_rateRecord settings winTeam uid state
    · exact .refl state
  · intro middle kept
    split
    · exact kept
    · exact kept.trans ⟨rfl, rfl, rfl, rfl, rfl, rfl, rfl, rfl, rfl⟩

end State

end OperationFrontLine.Rank
