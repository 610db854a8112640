import OperationFrontLine.Zones.Steps

/-!
# Steps with and without a deployment

A flag is put down by `DeployFlagZone`, which a queued request or the death of the
carrier calls.  A step either carries out one such deployment or changes the flags by
the other operations only.
-/

namespace OperationFrontLine.Zones

open OperationFrontLine.Library

variable {Flag : Type} [DecidableEq Flag]

/-- A deployment that goes through: the flag, and whether `DestroyRepos` sends it back to
its own base. -/
structure Deployment (Flag : Type) where
  flag : Flag
  sentBack : Bool
  deriving DecidableEq, Repr

namespace State

section Fall

variable (settings : Settings Flag) (world : World) (state : State Flag)

/-- Where a flag falls with its carrier: where he is, or where he was seen last. -/
def fallPosition (flag : Flag) : Option Position :=
  match (state.zone flag).carrierUnit with
  | some person =>
      if world.present person then some (world.posASL person) else (state.zone flag).carrierPos
  | none => (state.zone flag).carrierPos

end Fall

section Tracking

variable (settings : Settings Flag) (world : World) (state : State Flag) (flag : Flag)

theorem trackCarrier_zone : (state.trackCarrier world flag).zone = Function.update state.zone flag
    { state.zone flag with carrierPos := state.fallPosition world flag } := by
  by_cases seen : ∃ person, (state.zone flag).carrierUnit = some person ∧ world.present person
  · obtain ⟨person, carried, present⟩ := seen
    simp [trackCarrier, fallPosition, carried, present]
  · have unseen : state.trackCarrier world flag = state ∧
        state.fallPosition world flag = (state.zone flag).carrierPos := by
      unfold trackCarrier fallPosition
      cases carried : (state.zone flag).carrierUnit with
      | none => exact ⟨rfl, rfl⟩
      | some person =>
          have absent : world.present person = false := by
            simpa using fun present => seen ⟨person, carried, present⟩
          simp [absent]
    rw [unseen.1, unseen.2]
    exact (Function.update_eq_self flag state.zone).symm

theorem trackCarrier_now : (state.trackCarrier world flag).now = state.now := by
  unfold trackCarrier
  split
  · split <;> rfl
  · rfl

/-- The guard of a deployment does not look at the position of the carrier. -/
theorem overLine_trackCarrier (other : Flag) (position : Position) :
    (state.trackCarrier world flag).overLine settings other position =
      state.overLine settings other position := by
  have planted (any : Flag) : ((state.trackCarrier world flag).zone any).planted =
      (state.zone any).planted := by
    rw [trackCarrier_zone]
    by_cases same : any = flag
    · subst same
      simp
    · rw [Function.update_of_ne same]
  have place (any : Flag) : ((state.trackCarrier world flag).zone any).place =
      (state.zone any).place := by
    rw [trackCarrier_zone]
    by_cases same : any = flag
    · subst same
      simp
    · rw [Function.update_of_ne same]
  simp only [overLine, overEZW, planted, place]

theorem plantOnDeath_none (noFall : world.isAlive (state.zone flag).carrierUnit ∨
    (state.zone flag).carrierPos = none) :
    state.plantOnDeath settings world flag = state := by
  unfold plantOnDeath
  dsimp only
  split
  · rename_i position dead fell
    rcases noFall with alive | nowhere
    · exact absurd (alive.symm.trans dead) (by simp)
    · exact absurd (nowhere.symm.trans fell) (by simp)
  · rfl

theorem sendsBack_trackCarrier (other : Flag) (position : Position) (isAlive : Bool) :
    (state.trackCarrier world flag).sendsBack settings other position isAlive =
      state.sendsBack settings other position isAlive := by
  simp only [sendsBack, overLine_trackCarrier]

theorem trackCarrier_queue : (state.trackCarrier world flag).queue = state.queue := by
  unfold trackCarrier
  split
  · split <;> rfl
  · rfl

theorem trackCarrier_nextScript :
    (state.trackCarrier world flag).nextScript = state.nextScript := by
  unfold trackCarrier
  split
  · split <;> rfl
  · rfl

theorem plantOnDeath_some {position : Position}
    (dead : world.isAlive (state.zone flag).carrierUnit = false)
    (fell : (state.zone flag).carrierPos = some position) :
    state.plantOnDeath settings world flag = state.deployFlagZone settings world flag
      (state.zone flag).carrierUnit position false true := by
  unfold plantOnDeath
  dsimp only
  rw [dead, fell]

theorem visitFlag_of_unplanted {flagTimeLine : ℚ} (carried : (state.zone flag).planted = false) :
    state.visitFlag settings world flag flagTimeLine =
      (state.trackCarrier world flag).plantOnDeath settings world flag := by
  simp [visitFlag, carried]

end Tracking

end State

namespace Server

def deployment (settings : Settings Flag) (server : Server Flag) :
    Event Flag → Option (Deployment Flag)
  | .command _ world =>
      match server.zones.queue with
      | ⟨.deploy flag carrier positionPlayer isAlive true, .deploy⟩ :: _ =>
          if server.zones.refusesDeploy settings world flag carrier positionPlayer isAlive then
            none
          else some ⟨flag, server.zones.sendsBack settings flag positionPlayer isAlive⟩
      | _ => none
  | .visit _ world =>
      match server.phase with
      | .visiting _ (flag :: _) =>
          if (server.zones.zone flag).planted ||
              world.isAlive (server.zones.zone flag).carrierUnit then none
          else (server.zones.fallPosition world flag).map fun position =>
            ⟨flag, server.zones.sendsBack settings flag position false⟩
      | _ => none
  | _ => none

/-- Nothing asks for command 3, and `_flagTimeLine` was read in the past. -/
structure Orderly (server : Server Flag) : Prop where
  noDestroy : ∀ request ∈ server.zones.queue, request.command ≠ .destroy
  earlier : ∀ flagTimeLine flags, server.phase = .visiting flagTimeLine flags →
    flagTimeLine ≤ server.zones.now

end Server

namespace State

section Moments

variable {Flag : Type} {settings : Settings Flag} {state after : State Flag}

theorem advance_eq {time : ℚ} (advanced : state.advance time = some after) :
    state.now ≤ time ∧ after = state.atTime time := by
  unfold advance at advanced
  split at advanced
  case isTrue later => exact ⟨later, (Option.some.inj advanced).symm⟩
  case isFalse => cases advanced

theorem ticketGain_eq {script : Script} (gained : state.ticketGain settings script = some after) :
    ∃ flag, (script, flag) ∈ state.running ∧
      after = { state with ticketQueue := state.ticketQueue ++ [(settings.side flag, true)] } := by
  unfold ticketGain at gained
  obtain ⟨⟨found, flag⟩, isFound, gain⟩ := Option.bind_eq_some_iff.mp gained
  have same : found = script := by simpa using List.find?_some isFound
  subst same
  split at gain
  · cases gain
  · exact ⟨flag, List.mem_of_find?_eq_some isFound, (Option.some.inj gain).symm⟩

theorem Changed.later {time : ℚ} (later : state.now ≤ time)
    (changed : (state.atTime time).Changed settings after) :
    state.now ≤ after.now ∧ (state.atTime after.now).Changed settings after := by
  have same : after.now = time := changed.now
  subst same
  exact ⟨later, changed⟩

end Moments

variable {settings : Settings Flag} {world : World} {state after : State Flag}

theorem changed_receive {arguments : Arguments Flag}
    (received : state.receive settings world arguments = some after) :
    state.Changed settings after := by
  unfold receive at received
  split at received
  case h_1 | h_3 | h_4 | h_6 | h_7 | h_8 | h_9 =>
    cases received
    exact changed_enqueue state _ (by simp)
  case h_2 | h_5 => cases received

/-- A command changes the flags as its script does, and appends nothing else. -/
theorem changed_flagZoneQueue {request : Request Flag} {requests : List (Request Flag)}
    (queued : state.queue = request :: requests)
    (executed : state.Changed settings (state.execute settings world request).state) :
    state.Changed settings (state.flagZoneQueue settings world).state := by
  unfold flagZoneQueue
  rw [queued]
  dsimp only
  cases ended : state.execute settings world request with
  | finished zones =>
      rw [ended] at executed
      exact ⟨executed.now, executed.zone, executed.carries, fun request member =>
        executed.queue request (List.mem_of_mem_tail member)⟩
  | stopped zones =>
      rw [ended] at executed
      exact executed

end State

section Steps

variable {settings : Settings Flag} {server after : Server Flag} {event : Event Flag}

/-- What each step does, with what its guard has checked. -/
inductive Stepped (settings : Settings Flag) (server after : Server Flag) : Event Flag → Prop where
  | receive {world : World} {arguments : Arguments Flag}
      (received : server.zones.receive settings world arguments = some after.zones)
      (phase : after.phase = .waiting) :
      Stepped settings server after (.receive world arguments)
  | frame {time : ℚ} {world : World} (later : server.zones.now ≤ time)
      (ended : after.zones =
        (server.zones.atTime time).sweepRP (State.trackRP settings world))
      (phase : after.phase = .draining) :
      Stepped settings server after (.frame time world)
  | command {time : ℚ} {world : World} {request : Request Flag} {requests : List (Request Flag)}
      (queued : server.zones.queue = request :: requests) (later : server.zones.now ≤ time)
      (ended : after.zones = ((server.zones.atTime time).flagZoneQueue settings world).state)
      (phase : after.phase = .draining ∨ after.phase = .waiting) :
      Stepped settings server after (.command time world)
  | look {time : ℚ} (later : server.zones.now ≤ time)
      (ended : after.zones = server.zones.atTime time)
      (phase : after.phase = .visiting time settings.flagZoneList) :
      Stepped settings server after (.look time)
  | visit {time flagTimeLine : ℚ} {world : World} {flag : Flag} {flags : List Flag}
      (visiting : server.phase = .visiting flagTimeLine (flag :: flags))
      (later : server.zones.now ≤ time)
      (ended : after.zones =
        (server.zones.atTime time).visitFlag settings world flag flagTimeLine)
      (phase : after.phase = .waiting ∨ after.phase = .visiting flagTimeLine flags) :
      Stepped settings server after (.visit time world)
  | ticketGain {script : Script} {flag : Flag} (running : (script, flag) ∈ server.zones.running)
      (ended : after.zones = { server.zones with
        ticketQueue := server.zones.ticketQueue ++ [(settings.side flag, true)] })
      (phase : after.phase = .waiting) :
      Stepped settings server after (.ticketGain script)

theorem step_cases (stepped : step settings server event = some after) :
    Stepped settings server after event := by
  unfold step at stepped
  split at stepped
  case h_1 world arguments _ =>
    obtain ⟨zones, received, rfl⟩ := Option.map_eq_some_iff.mp stepped
    exact .receive received rfl
  case h_2 time world _ =>
    obtain ⟨zones, advanced, rfl⟩ := Option.map_eq_some_iff.mp stepped
    obtain ⟨later, rfl⟩ := State.advance_eq advanced
    exact .frame later rfl rfl
  case h_3 time world _ =>
    split at stepped
    case isTrue => cases stepped
    case isFalse waiting =>
      obtain ⟨request, requests, queued⟩ := List.exists_cons_of_ne_nil waiting
      obtain ⟨zones, advanced, rfl⟩ := Option.map_eq_some_iff.mp stepped
      obtain ⟨later, rfl⟩ := State.advance_eq advanced
      refine .command queued later ?_ ?_
      · cases (server.zones.atTime time).flagZoneQueue settings world <;> rfl
      · cases (server.zones.atTime time).flagZoneQueue settings world with
        | finished zones => exact .inl rfl
        | stopped zones => exact .inr rfl
  case h_4 time _ =>
    split at stepped
    case isTrue =>
      obtain ⟨zones, advanced, rfl⟩ := Option.map_eq_some_iff.mp stepped
      obtain ⟨later, rfl⟩ := State.advance_eq advanced
      exact .look later rfl rfl
    case isFalse => cases stepped
  case h_5 time world flagTimeLine flag flags visiting =>
    obtain ⟨zones, advanced, rfl⟩ := Option.map_eq_some_iff.mp stepped
    obtain ⟨later, rfl⟩ := State.advance_eq advanced
    refine .visit visiting later rfl ?_
    dsimp only
    split
    · exact .inl rfl
    · exact .inr rfl
  case h_6 script _ =>
    obtain ⟨zones, gained, rfl⟩ := Option.map_eq_some_iff.mp stepped
    obtain ⟨flag, running, rfl⟩ := State.ticketGain_eq gained
    exact .ticketGain running rfl rfl
  case h_7 => cases stepped

/-- A step that puts down no flag only makes the changes listed in `Change`. -/
theorem step_changed (orderly : server.Orderly) (stepped : step settings server event = some after)
    (noDeployment : server.deployment settings event = none) :
    server.zones.now ≤ after.zones.now ∧
      (server.zones.atTime after.zones.now).Changed settings after.zones := by
  cases step_cases stepped with
  | receive received => exact State.Changed.later le_rfl (State.changed_receive received)
  | frame later ended =>
      rw [ended]
      exact State.Changed.later later (State.SameFlags.sweepRP State.SameFlags.trackRP _).changed
  | @command time world request requests queued later ended =>
      have executed : (server.zones.atTime time).Changed settings
          ((server.zones.atTime time).execute settings world request).state := by
        refine State.changed_execute _ request ?_ (orderly.noDestroy request (by simp [queued]))
        rintro flag carrier positionPlayer isAlive rfl
        by_contra accepted
        have accepts : server.zones.refusesDeploy settings world flag carrier positionPlayer
            isAlive = false := Bool.not_eq_true _ ▸ accepted
        simp [Server.deployment, queued, accepts] at noDeployment
      rw [ended]
      exact State.Changed.later later (State.changed_flagZoneQueue queued executed)
  | look later ended =>
      rw [ended]
      exact State.Changed.later later (State.SameFlags.refl _).changed
  | @visit time flagTimeLine world flag flags visiting later ended =>
      rw [ended]
      refine State.Changed.later later ?_
      unfold State.visitFlag
      split
      case isTrue planted =>
        have scanned : (server.zones.atTime time).Changed settings
            ((server.zones.atTime time).scanIfNeeded settings world flag) :=
          State.changed_scanIfNeeded _ flag planted
        refine scanned.trans (State.changed_readyIfTime _ flag ?_)
        rw [scanned.now]
        exact (orderly.earlier _ _ visiting).trans later
      case isFalse carried =>
        have noFall : world.isAlive (server.zones.zone flag).carrierUnit ∨
            server.zones.fallPosition world flag = none := by
          by_contra falls
          obtain ⟨dead, fell⟩ := not_or.mp falls
          obtain ⟨position, falls⟩ := Option.ne_none_iff_exists'.mp fell
          have unplanted : (server.zones.zone flag).planted = false := Bool.not_eq_true _ ▸ carried
          simp [Server.deployment, visiting, unplanted, dead, falls] at noDeployment
        have tracked : (server.zones.atTime time).Changed settings
            ((server.zones.atTime time).trackCarrier world flag) :=
          State.changed_trackCarrier _ flag
        refine tracked.trans ?_
        rw [State.plantOnDeath_none]
        · exact (State.SameFlags.refl _).changed
        · simp only [State.trackCarrier_zone, Function.update_self]
          exact noFall
  | ticketGain running ended =>
      rw [ended]
      exact ⟨le_rfl, rfl, fun _ => .refl, fun one => one, fun request member => .inl member⟩

theorem step_deployed (stepped : step settings server event = some after)
    {deployment : Deployment Flag} (deploys : server.deployment settings event = some deployment) :
    server.zones.now ≤ after.zones.now ∧
      (∀ request ∈ after.zones.queue, request ∈ server.zones.queue) ∧
      (server.zones.zone deployment.flag).planted = false ∧
      ∃ place visualState, after.zones.zone = Function.update server.zones.zone deployment.flag
        ((server.zones.zone deployment.flag).putDown after.zones.now server.zones.nextScript
          deployment.sentBack place visualState) := by
  cases step_cases stepped with
  | receive | frame | look | ticketGain => cases deploys
  | @command time world request requests queued later ended =>
      unfold Server.deployment at deploys
      rw [queued] at deploys
      dsimp only at deploys
      split at deploys
      case h_2 => cases deploys
      case h_1 flag carrier positionPlayer isAlive others isHead =>
        cases isHead
        split at deploys
        case isTrue => cases deploys
        case isFalse refused =>
          cases deploys
          have accepted : (server.zones.atTime time).refusesDeploy settings world flag carrier
              positionPlayer isAlive = false := Bool.not_eq_true _ ▸ refused
          have after_eq : after.zones = ((server.zones.atTime time).deployFlagZone settings world
              flag carrier positionPlayer isAlive true).removeHead := by
            rw [ended]
            simp [State.flagZoneQueue, State.atTime, queued, State.execute]
          obtain ⟨now, queue, place, visualState, zone⟩ :=
            State.deployFlagZone_accepted _ _ accepted
          have sameTime : after.zones.now = time := by rw [after_eq]; exact now
          rw [sameTime]
          refine ⟨later, fun other member => ?_, State.unplanted_of_accepted _ _ accepted,
            place, visualState, ?_⟩
          · rw [after_eq] at member
            exact queue ▸ List.mem_of_mem_tail member
          · rw [after_eq]
            exact zone
  | @visit time flagTimeLine world flag flags visiting later ended =>
      unfold Server.deployment at deploys
      rw [visiting] at deploys
      dsimp only at deploys
      split at deploys
      case isTrue => cases deploys
      case isFalse falls =>
        obtain ⟨position, fell, rfl⟩ := Option.map_eq_some_iff.mp deploys
        obtain ⟨carried, dead⟩ : (server.zones.zone flag).planted = false ∧
            world.isAlive (server.zones.zone flag).carrierUnit = false := by simpa using falls
        have tracked : ((server.zones.atTime time).trackCarrier world flag).zone =
            Function.update server.zones.zone flag
              { server.zones.zone flag with carrierPos := some position } :=
          (State.trackCarrier_zone world _ flag).trans (congrArg
            (fun position => Function.update server.zones.zone flag
              { server.zones.zone flag with carrierPos := position }) fell)
        have here : ((server.zones.atTime time).trackCarrier world flag).zone flag =
            { server.zones.zone flag with carrierPos := some position } := by
          rw [tracked, Function.update_self]
        have after_eq : after.zones = ((server.zones.atTime time).trackCarrier world
            flag).deployFlagZone settings world flag (server.zones.zone flag).carrierUnit position
              false true := by
          rw [ended,
            State.visitFlag_of_unplanted settings world (server.zones.atTime time) flag carried,
            State.plantOnDeath_some settings world _ flag (by rw [here]; exact dead) (by rw [here]),
            here]
        have accepted : ((server.zones.atTime time).trackCarrier world flag).refusesDeploy settings
            world flag (server.zones.zone flag).carrierUnit position false = false := by
          simp [State.refusesDeploy, here, carried]
        obtain ⟨now, queue, place, visualState, zone⟩ := State.deployFlagZone_accepted _ _ accepted
        rw [State.trackCarrier_now] at now zone
        have sameTime : after.zones.now = time := by rw [after_eq]; exact now
        rw [sameTime]
        refine ⟨later, fun other member => ?_, carried, place, visualState, ?_⟩
        · rw [after_eq, queue, State.trackCarrier_queue] at member
          exact member
        · rw [after_eq, zone, tracked, Function.update_idem, Function.update_self,
            State.sendsBack_trackCarrier, State.trackCarrier_nextScript]
          rfl

end Steps

end OperationFrontLine.Zones
