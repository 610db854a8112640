import Mathlib.Logic.Relation
import OperationFrontLine.Zones.Thread

/-!
# What one step does to the flags

Rally points, locks and the winner of a round are none of the flags' business.  Apart from
a deployment, whose effect is stated on its own, every step rewrites a flag's variables by
a sequence of the changes below.
-/

namespace OperationFrontLine.Zones

open OperationFrontLine.Library

variable {Flag : Type}

structure State.SameFlags (before after : State Flag) : Prop where
  now : after.now = before.now
  zone : after.zone = before.zone
  queue : after.queue = before.queue
  running : after.running = before.running
  nextScript : after.nextScript = before.nextScript
  reports : after.reports = before.reports

namespace State.SameFlags

variable {before middle after : State Flag} {settings : Settings Flag} {world : World}

theorem refl (state : State Flag) : state.SameFlags state := ⟨rfl, rfl, rfl, rfl, rfl, rfl⟩

theorem trans (first : before.SameFlags middle) (second : middle.SameFlags after) :
    before.SameFlags after where
  now := second.now.trans first.now
  zone := second.zone.trans first.zone
  queue := second.queue.trans first.queue
  running := second.running.trans first.running
  nextScript := second.nextScript.trans first.nextScript
  reports := second.reports.trans first.reports

theorem setPerson (state : State Flag) (person : Person)
    (change : PersonVariables → PersonVariables) :
    state.SameFlags (state.setPerson person change) := ⟨rfl, rfl, rfl, rfl, rfl, rfl⟩

theorem setDeleteLock (state : State Flag) (carrier : Option Person) (lock : Bool) :
    state.SameFlags (state.setDeleteLock carrier lock) := by
  cases carrier with
  | none => exact refl state
  | some person => exact setPerson state person fun unit => { unit with deleteLock := lock }

theorem clearRPTime (state : State Flag) (person : Person) :
    state.SameFlags (state.clearRPTime person) :=
  setPerson state person fun unit => { unit with rpTime := none }

theorem detectRoundWin (state : State Flag) (flag : Flag) :
    state.SameFlags (state.detectRoundWin settings flag) := by
  unfold State.detectRoundWin
  split
  · exact refl state
  · split
    · exact ⟨rfl, rfl, rfl, rfl, rfl, rfl⟩
    · exact refl state

theorem disableRP (state : State Flag) (person : Person) :
    state.SameFlags (state.disableRP world person) := by
  unfold State.disableRP
  split
  · exact refl state
  · exact ⟨rfl, rfl, rfl, rfl, rfl, rfl⟩

theorem deleteRP (state : State Flag) (entry : RallyEntry) :
    state.SameFlags (state.deleteRP settings world entry).1 := by
  have disabled : state.SameFlags (state.disableRP world entry.person) :=
    disableRP state entry.person
  dsimp only [State.deleteRP]
  split
  · exact disabled.trans (clearRPTime _ entry.person)
  · exact disabled

theorem sweepRP {body : State Flag → RallyEntry → State Flag × Bool}
    (sameBody : ∀ (state : State Flag) entry, state.SameFlags (body state entry).1)
    (state : State Flag) :
    state.SameFlags (state.sweepRP body) := by
  have swept : ∀ (entries : List RallyEntry) (sofar : State Flag × List RallyEntry),
      state.SameFlags sofar.1 → state.SameFlags (entries.foldl
        (fun (sofar : State Flag × List RallyEntry) entry =>
          ((body sofar.1 entry).1,
            if (body sofar.1 entry).2 then sofar.2 else sofar.2 ++ [entry])) sofar).1 := by
    intro entries
    induction entries with
    | nil => exact fun sofar same => same
    | cons entry rest inductionHypothesis =>
        intro sofar same
        exact inductionHypothesis _ (same.trans (sameBody sofar.1 entry))
  have same := swept state.rpList (state, []) (refl state)
  exact ⟨same.now, same.zone, same.queue, same.running, same.nextScript, same.reports⟩

theorem deleteFriendlyRP (flag : Flag) (state : State Flag) (entry : RallyEntry) :
    state.SameFlags (State.deleteFriendlyRP settings world flag state entry).1 := by
  unfold State.deleteFriendlyRP
  split
  · exact deleteRP state entry
  · exact refl state

theorem recheckRP (flag : Flag) (enemyFlag : Option Flag) (state : State Flag)
    (entry : RallyEntry) :
    state.SameFlags (State.recheckRP settings world flag enemyFlag state entry).1 := by
  unfold State.recheckRP
  split
  · exact refl state
  · split
    · exact deleteRP state entry
    · split
      · split
        · exact deleteRP state entry
        · exact refl state
      · exact refl state

theorem leaveRP (state : State Flag) (person : Person) :
    state.SameFlags (state.leaveRP settings world person) := by
  unfold State.leaveRP
  split
  · exact disableRP state person
  · exact refl state

theorem trackRP (state : State Flag) (entry : RallyEntry) :
    state.SameFlags (State.trackRP settings world state entry).1 := by
  unfold State.trackRP
  dsimp only
  split
  · exact refl state
  · split
    · refine trans ?_ (clearRPTime _ entry.person)
      split
      · exact disableRP state entry.person
      · exact refl state
    · have left : state.SameFlags (state.leaveRP settings world entry.person) :=
        leaveRP state entry.person
      split
      · exact left.trans (clearRPTime _ entry.person)
      · exact left

theorem deployRP (state : State Flag) (person : Option Person)
    (positionPlayer originalPos : Position) :
    state.SameFlags (state.deployRP settings world person positionPlayer originalPos) := by
  unfold State.deployRP
  cases person with
  | none => exact refl state
  | some person =>
      dsimp only
      split
      · exact refl state
      · split
        · split_ifs
          all_goals first | exact refl state | exact ⟨rfl, rfl, rfl, rfl, rfl, rfl⟩
        · exact refl state

end State.SameFlags

/-- One change of a flag's variables at the time `now`, with what the operation that
makes it has checked. -/
inductive Change (settings : Settings Flag) (now : ℚ) (zone : FlagZone) : FlagZone → Prop where
  | tracked (carrierPos : Option Position) :
      Change settings now zone { zone with carrierPos := carrierPos }
  | shown (visualState : VisualState) :
      Change settings now zone { zone with visualState := visualState }
  /-- `UnDeployFlagZone` -/
  | pickedUp (carrier : Option Person) (lastFlagPos : Position)
      (planted : zone.planted) (ready : zone.ready) :
      Change settings now zone
        { zone with
          planted := false
          carrierUnit := carrier
          carrierPos := some lastFlagPos
          activated := false
          lastScan := none
          scripts := [] }
  /-- `ReDeployFlagZone` -/
  | moved (position : Position) (script : Script) (planted : zone.planted) :
      Change settings now zone
        { zone with
          ready := false
          activated := true
          destroyed := false
          tod := now
          place := .posATL position
          scripts := [script] }
  /-- `ScanFlagZone` -/
  | scanned (captured support : ℚ) (planted : zone.planted)
      (level : captured = zone.captured ∨
        zone.captured < settings.zoneCaptureTime ∧ captured = zone.captured + settings.scanTime ∨
        0 < zone.captured ∧ captured = zone.captured - settings.scanTime)
      (supported : support = zone.support ∨ support = settings.zoneDeathTime) :
      Change settings now zone
        { zone with lastScan := some now, captured := captured, support := support }
  /-- `DestroyFlagZone` -/
  | destroyed (position : Position) (planted : zone.planted) :
      Change settings now zone
        { zone with
          ready := false
          destroyed := true
          captured := settings.zoneCaptureTime
          support := settings.zoneDeathTime
          lastScan := none
          tod := now
          place := .pos position
          activated := false
          scripts := [] }
  /-- `DestroyFlagZone`, on the flag of the other side -/
  | setBack : Change settings now zone { zone with tod := now - settings.deployReadyTime }
  | readied (passed : zone.tod + settings.deployReadyTime ≤ now) :
      Change settings now zone { zone with ready := true }

/-- The variables of a flag that was deployed at the time `now`. -/
def FlagZone.putDown (zone : FlagZone) (now : ℚ) (script : Script) (sentBack : Bool)
    (place : Placement) (visualState : VisualState) : FlagZone :=
  { zone with
    planted := true
    carrierUnit := none
    carrierPos := none
    ready := false
    activated := !sentBack
    tod := now
    scripts := [script]
    place := place
    visualState := visualState }

def Changes (settings : Settings Flag) (now : ℚ) : FlagZone → FlagZone → Prop :=
  Relation.ReflTransGen (Change settings now)

/-- A property of a flag's variables that every change preserves is preserved by any
sequence of changes. -/
theorem Changes.invariant {settings : Settings Flag} {now : ℚ} {Inv : FlagZone → Prop}
    (keep : ∀ before after, Inv before → Change settings now before after → Inv after)
    {before after : FlagZone} (changes : Changes settings now before after)
    (initial : Inv before) : Inv after := by
  induction changes with
  | refl => exact initial
  | tail _ change inductionHypothesis => exact keep _ _ inductionHypothesis change

namespace State

def CarriesOne (state : State Flag) : Prop :=
  ∀ first second person, (state.zone first).carrierUnit = some person →
    (state.zone second).carrierUnit = some person → first = second

/-- Every flag's variables were changed in this way, no unit came to carry a second flag,
and no command 3 was queued. -/
structure Changed (settings : Settings Flag) (before after : State Flag) : Prop where
  now : after.now = before.now
  zone : ∀ flag, Changes settings before.now (before.zone flag) (after.zone flag)
  carries : before.CarriesOne → after.CarriesOne
  queue : ∀ request ∈ after.queue, request ∈ before.queue ∨ request.command ≠ .destroy

variable {settings : Settings Flag} {world : World} {before middle after : State Flag}

theorem SameFlags.changed (same : before.SameFlags after) : before.Changed settings after where
  now := same.now
  zone flag := by
    rw [same.zone]
    exact .refl
  carries one := by
    unfold CarriesOne
    rw [same.zone]
    exact one
  queue request member := .inl (same.queue ▸ member)

theorem Changed.trans (first : before.Changed settings middle)
    (second : middle.Changed settings after) : before.Changed settings after where
  now := second.now.trans first.now
  zone flag := .trans (first.zone flag) (first.now ▸ second.zone flag)
  carries one := second.carries (first.carries one)
  queue request member := (second.queue request member).elim (first.queue request) .inr

theorem Changed.andThen (first : before.Changed settings middle)
    (second : middle.SameFlags after) : before.Changed settings after :=
  first.trans second.changed

section Writes

variable (state : State Flag) (flag : Flag)

@[simp]
theorem setDeleteLock_zone (carrier : Option Person) (lock : Bool) :
    (state.setDeleteLock carrier lock).zone = state.zone :=
  (SameFlags.setDeleteLock state carrier lock).zone

@[simp]
theorem setDeleteLock_now (carrier : Option Person) (lock : Bool) :
    (state.setDeleteLock carrier lock).now = state.now :=
  (SameFlags.setDeleteLock state carrier lock).now

theorem setDeleteLock_queue (carrier : Option Person) (lock : Bool) :
    (state.setDeleteLock carrier lock).queue = state.queue :=
  (SameFlags.setDeleteLock state carrier lock).queue

@[simp]
theorem detectRoundWin_zone : (state.detectRoundWin settings flag).zone = state.zone :=
  (SameFlags.detectRoundWin state flag).zone

@[simp]
theorem detectRoundWin_now : (state.detectRoundWin settings flag).now = state.now :=
  (SameFlags.detectRoundWin state flag).now

theorem detectRoundWin_queue : (state.detectRoundWin settings flag).queue = state.queue :=
  (SameFlags.detectRoundWin state flag).queue

@[simp]
theorem report_zone (entry : Report Flag) : (state.report entry).zone = state.zone := rfl

@[simp]
theorem report_now (entry : Report Flag) : (state.report entry).now = state.now := rfl

end Writes

theorem unplanted_of_accepted (state : State Flag) (flag : Flag) {carrier : Option Person}
    {positionPlayer : Position}
    {isAlive : Bool}
    (accepted : state.refusesDeploy settings world flag carrier positionPlayer isAlive = false) :
    (state.zone flag).planted = false := by
  simp only [refusesDeploy, Bool.or_eq_false_iff] at accepted
  exact accepted.1.1

theorem changed_enqueue (state : State Flag) (arguments : Arguments Flag) {command : Command}
    (notDestroy : command ≠ .destroy) :
    state.Changed settings (state.enqueue arguments command) where
  now := rfl
  zone _ := .refl
  carries one := one
  queue request member := by
    rcases List.mem_append.mp member with earlier | new
    · exact .inl earlier
    · cases List.mem_singleton.mp new
      exact .inr notDestroy

variable [DecidableEq Flag]

/-- The variables of the other flags are left alone, those of this flag change as given. -/
theorem Changed.of_update {flag : Flag} {zone : FlagZone} (sameTime : after.now = before.now)
    (sameQueue : after.queue = before.queue)
    (updated : after.zone = Function.update before.zone flag zone)
    (allowed : Changes settings before.now (before.zone flag) zone)
    (carrier : ∀ person, zone.carrierUnit = some person →
      (before.zone flag).carrierUnit = some person ∨
        ∀ other, (before.zone other).carrierUnit ≠ some person) :
    before.Changed settings after where
  now := sameTime
  zone other := by
    rw [updated]
    by_cases same : other = flag
    · subst same
      simpa using allowed
    · rw [Function.update_of_ne same]
      exact .refl
  carries one := by
    have carriedBefore (other : Flag) (person : Person)
        (carries : (after.zone other).carrierUnit = some person) :
        (before.zone other).carrierUnit = some person ∨
          other = flag ∧ ∀ other, (before.zone other).carrierUnit ≠ some person := by
      rw [updated] at carries
      by_cases same : other = flag
      · subst same
        rw [Function.update_self] at carries
        exact (carrier person carries).imp_right fun fresh => ⟨rfl, fresh⟩
      · rw [Function.update_of_ne same] at carries
        exact .inl carries
    intro first second person carriesFirst carriesSecond
    rcases carriedBefore first person carriesFirst with old | ⟨isFlag, fresh⟩
    · rcases carriedBefore second person carriesSecond with older | ⟨-, fresh⟩
      · exact one first second person old older
      · exact absurd old (fresh first)
    · rcases carriedBefore second person carriesSecond with older | ⟨alsoFlag, -⟩
      · exact absurd older (fresh second)
      · exact isFlag.trans alsoFlag.symm
  queue request member := .inl (sameQueue ▸ member)

theorem changed_updateVisualState (state : State Flag) (flag : Flag) :
    state.Changed settings (state.updateVisualState settings flag) :=
  .of_update rfl rfl rfl (.single (.shown _)) fun _ same => .inl same

section Writes

variable (state : State Flag) (flag : Flag)

@[simp]
theorem setZone_zone (change : FlagZone → FlagZone) : (state.setZone flag change).zone =
    Function.update state.zone flag (change (state.zone flag)) := rfl

@[simp]
theorem setZone_now (change : FlagZone → FlagZone) :
    (state.setZone flag change).now = state.now := rfl

@[simp]
theorem terminateScripts_zone : (state.terminateScripts flag).zone =
    Function.update state.zone flag { state.zone flag with scripts := [] } := rfl

@[simp]
theorem terminateScripts_now : (state.terminateScripts flag).now = state.now := rfl

@[simp]
theorem spawnTicketGain_zone : (state.spawnTicketGain flag).zone =
    Function.update state.zone flag { state.zone flag with scripts := [state.nextScript] } := rfl

@[simp]
theorem spawnTicketGain_now : (state.spawnTicketGain flag).now = state.now := rfl

@[simp]
theorem updateVisualState_zone : (state.updateVisualState settings flag).zone =
    Function.update state.zone flag
      { state.zone flag with visualState := settings.visualState (state.zone flag) } := rfl

@[simp]
theorem updateVisualState_now :
    (state.updateVisualState settings flag).now = state.now := rfl

@[simp]
theorem destroyRepos_now :
    (state.destroyRepos settings world flag).now = state.now := rfl

end Writes

section Operations

variable (state : State Flag) (flag : Flag)

omit [DecidableEq Flag] in
/-- A living unit that `GSC_IsCarrier` does not find carries no flag. -/
theorem not_carried {carrier : Option Person} {person : Person}
    (notCarrier : state.isCarrier settings world carrier = false)
    (alive : world.isAlive carrier) (same : carrier = some person) (other : Flag) :
    (state.zone other).carrierUnit ≠ some person := by
  subst same
  intro carries
  have present : world.present person := by
    simp only [World.isAlive, Bool.and_eq_true] at alive
    exact alive.1
  have missed := (List.any_eq_false.mp notCarrier) other (settings.mem_flagZoneList other)
  simp [World.sameObject, World.isNull, carries, present] at missed

theorem changed_unDeployFlagZone (carrier : Option Person) (lastFlagPos : Position)
    (isQueue : Bool) :
    state.Changed settings
      (state.unDeployFlagZone settings world flag carrier lastFlagPos isQueue) := by
  unfold unDeployFlagZone
  split
  · exact changed_enqueue state _ (by simp)
  · split
    · exact (SameFlags.refl state).changed
    · rename_i accepted
      simp only [refusesUnDeploy, Bool.not_eq_true, Bool.or_eq_false_iff, Bool.not_eq_false']
        at accepted
      obtain ⟨⟨⟨⟨⟨planted, alive⟩, -⟩, notCarrier⟩, ready⟩, -⟩ := accepted
      refine Changed.of_update (by simp) (setDeleteLock_queue _ carrier true) (by simp; rfl) ?_
        fun person carries => .inr fun other => not_carried state notCarrier alive carries other
      exact .trans (.single (.pickedUp carrier lastFlagPos planted ready)) (.single (.shown _))

theorem changed_reDeployFlagZone (originalPos positionPlayer currentPlayerPos : Position)
    (isQueue : Bool) :
    state.Changed settings (state.reDeployFlagZone settings flag originalPos positionPlayer
      currentPlayerPos isQueue) := by
  unfold reDeployFlagZone
  split
  · exact changed_enqueue state _ (by simp)
  · split
    · exact (SameFlags.refl state).changed
    · rename_i accepted
      simp only [refusesReDeploy, Bool.not_eq_true, Bool.or_eq_false_iff, Bool.not_eq_false']
        at accepted
      obtain ⟨⟨⟨⟨planted, -⟩, -⟩, ready⟩, -⟩ := accepted
      refine Changed.of_update (by simp) (detectRoundWin_queue _ flag) (by simp; rfl) ?_ ?_
      · exact .trans (.single (.moved positionPlayer _ planted)) (.single (.shown _))
      · exact fun _ same => .inl same

theorem changed_wreck (planted : (state.zone flag).planted) :
    state.Changed settings (state.wreck settings world flag) := by
  refine .of_update rfl rfl ?_ (.single (.destroyed (world.fobPoint (settings.side flag)) planted))
    fun _ same => .inl same
  simp only [wreck, destroyRepos, setZone_zone, terminateScripts_zone, report_zone,
    Function.update_self, Function.update_idem]

theorem changed_destroyFlagZone (destroyingSide : Side)
    (planted : (state.zone flag).planted) :
    state.Changed settings
      (state.destroyFlagZone settings world flag destroyingSide) := by
  unfold destroyFlagZone
  split
  · exact (SameFlags.refl state).changed
  · refine .andThen ?_ (.sweepRP (SameFlags.deleteFriendlyRP flag) _)
    have wrecked : state.Changed settings (state.wreck settings world flag) :=
      changed_wreck state flag planted
    have setBack : (state.wreck settings world flag).Changed settings
        ((state.wreck settings world flag).setBack settings flag) :=
      .of_update rfl rfl rfl (.single .setBack) fun _ same => .inl same
    exact (wrecked.trans setBack).trans (changed_updateVisualState _ flag)

theorem changed_scanFlagZone (planted : (state.zone flag).planted) :
    state.Changed settings (state.scanFlagZone settings world flag) := by
  have level : state.scanCapture settings world flag = (state.zone flag).captured ∨
      (state.zone flag).captured < settings.zoneCaptureTime ∧
        state.scanCapture settings world flag =
          (state.zone flag).captured + settings.scanTime ∨
      0 < (state.zone flag).captured ∧
        state.scanCapture settings world flag =
          (state.zone flag).captured - settings.scanTime := by
    unfold scanCapture
    dsimp only
    split_ifs with gained lost
    · exact .inr (.inl ⟨gained.2, rfl⟩)
    · exact .inr (.inr ⟨lost.2, rfl⟩)
    · exact .inl rfl
  have supported : state.scanSupport settings world flag = (state.zone flag).support ∨
      state.scanSupport settings world flag = settings.zoneDeathTime := by
    unfold scanSupport
    dsimp only
    split_ifs
    · exact .inr rfl
    · exact .inl rfl
  unfold scanFlagZone
  have scanned : state.Changed settings
      ((state.report (.scanned flag (state.zone flag))).setZone flag fun zone =>
        { zone with
          lastScan := some state.now
          captured := state.scanCapture settings world flag
          support := state.scanSupport settings world flag }) := by
    exact .of_update rfl rfl rfl (.single (.scanned _ _ planted level supported))
      fun _ same => .inl same
  split
  · refine scanned.trans (changed_destroyFlagZone _ flag _ ?_)
    simpa using planted
  · exact scanned

theorem changed_scanIfNeeded (planted : (state.zone flag).planted) :
    state.Changed settings (state.scanIfNeeded settings world flag) := by
  unfold scanIfNeeded
  split
  · exact (changed_scanFlagZone state flag planted).trans (changed_updateVisualState _ flag)
  · exact (SameFlags.refl state).changed

theorem changed_readyIfTime {flagTimeLine : ℚ} (earlier : flagTimeLine ≤ state.now) :
    state.Changed settings (state.readyIfTime settings world flag flagTimeLine) := by
  unfold readyIfTime
  split
  · rename_i passed
    simp only [Bool.and_eq_true, decide_eq_true_eq] at passed
    exact .of_update rfl rfl rfl (.single (.readied (passed.2.1.trans earlier)))
      fun _ same => .inl same
  · exact (SameFlags.refl state).changed

theorem changed_trackCarrier : state.Changed settings (state.trackCarrier world flag) := by
  unfold trackCarrier
  split
  · split
    · exact .of_update rfl rfl rfl (.single (.tracked _)) fun _ same => .inl same
    · exact (SameFlags.refl state).changed
  · exact (SameFlags.refl state).changed

theorem fortifyRP_cases (person : Option Person) (unitId : Text) (positionPlayer : Position) :
    state.SameFlags (state.fortifyRP settings world person unitId positionPlayer) ∨
      ∃ (voted : State Flag) (flag : Flag) (originalPos position : Position),
        state.SameFlags voted ∧
          (voted.reDeployFlagZone settings flag originalPos position ⟨0, 0, 0⟩ true).SameFlags
            (state.fortifyRP settings world person unitId positionPlayer) := by
  have same : state.SameFlags state := SameFlags.refl state
  unfold fortifyRP
  cases person with
  | none => exact .inl same
  | some person =>
      dsimp only
      split
      · exact .inl same
      · split
        · split
          · exact .inl same
          · split
            · exact .inl same
            · split
              · exact .inl same
              · split
                · exact .inr ⟨_, _, _, _, SameFlags.setPerson state person _,
                    .sweepRP (SameFlags.recheckRP _ _) _⟩
                · exact .inl (SameFlags.setPerson state person _)
        · exact .inl same

theorem changed_fortifyRP (person : Option Person) (unitId : Text) (positionPlayer : Position) :
    state.Changed settings (state.fortifyRP settings world person unitId positionPlayer) := by
  rcases state.fortifyRP_cases person unitId positionPlayer with
    same | ⟨voted, flag, originalPos, position, same, redeployed⟩
  · exact same.changed
  · exact (same.changed.trans (changed_reDeployFlagZone voted flag _ _ _ true)).andThen redeployed

theorem changed_execute (request : Request Flag)
    (notDeploy : ∀ flag carrier positionPlayer isAlive,
      request = ⟨.deploy flag carrier positionPlayer isAlive true, .deploy⟩ →
        state.refusesDeploy settings world flag carrier positionPlayer isAlive)
    (notDestroy : request.command ≠ .destroy) :
    state.Changed settings (state.execute settings world request).state := by
  have same : state.Changed settings state := (SameFlags.refl state).changed
  obtain ⟨arguments, command⟩ := request
  unfold execute
  split
  case h_1 flag carrier positionPlayer isAlive isQueue isCommand isDeploy =>
    cases isCommand
    cases isDeploy
    cases isQueue with
    | false => exact changed_enqueue state _ (by simp)
    | true => simpa [deployFlagZone, notDeploy _ _ _ _ rfl] using same
  case h_2 => exact changed_unDeployFlagZone state _ _ _ _
  case h_3 isDestroy _ => exact absurd isDestroy notDestroy
  case h_4 => exact same
  case h_5 => exact changed_reDeployFlagZone state _ _ _ _ _
  case h_6 => exact (SameFlags.deployRP state _ _ _).changed
  case h_7 => exact same
  case h_8 => exact changed_fortifyRP state _ _ _
  case h_9 => exact same

theorem plant_zone (carrier : Option Person) :
    (state.plant flag carrier).zone = Function.update state.zone flag
      { state.zone flag with
        planted := true
        carrierUnit := none
        carrierPos := none
        ready := false
        activated := true
        tod := state.now
        scripts := [] } := by
  simp [plant]

theorem putDown_eq (position : Position) (isAlive sentBack : Bool) :
    ∃ place, state.putDown settings world flag position isAlive sentBack =
      state.setZone flag fun zone =>
        { zone with place := place, activated := zone.activated && (isAlive || !sentBack) } := by
  unfold putDown
  split
  case isTrue alive => exact ⟨.posASL position, by simp [alive]⟩
  case isFalse dead =>
    split
    case isTrue sentBack =>
      exact ⟨.pos (world.fobPoint (settings.side flag)), by simp [dead, sentBack, destroyRepos]⟩
    case isFalse stays => exact ⟨.pos ⟨position.x, position.y, 0⟩, by simp [stays]⟩

theorem plant_now (carrier : Option Person) : (state.plant flag carrier).now = state.now := by
  simp [plant]

theorem plant_queue (carrier : Option Person) : (state.plant flag carrier).queue = state.queue :=
  setDeleteLock_queue _ carrier false

theorem plant_nextScript (carrier : Option Person) :
    (state.plant flag carrier).nextScript = state.nextScript :=
  (SameFlags.setDeleteLock _ carrier false).nextScript

theorem deployFlagZone_accepted {carrier : Option Person} {positionPlayer : Position}
    {isAlive : Bool}
    (accepted : state.refusesDeploy settings world flag carrier positionPlayer isAlive = false) :
    (state.deployFlagZone settings world flag carrier positionPlayer isAlive true).now =
        state.now ∧
      (state.deployFlagZone settings world flag carrier positionPlayer isAlive true).queue =
        state.queue ∧
      ∃ place visualState,
        (state.deployFlagZone settings world flag carrier positionPlayer isAlive true).zone =
          Function.update state.zone flag ((state.zone flag).putDown state.now state.nextScript
            (state.sendsBack settings flag positionPlayer isAlive) place visualState) := by
  obtain ⟨place, put⟩ := @putDown_eq _ settings world _ (state.plant flag carrier) flag
    positionPlayer isAlive (state.sendsBack settings flag positionPlayer isAlive)
  have back : (isAlive || !state.sendsBack settings flag positionPlayer isAlive) =
      !state.sendsBack settings flag positionPlayer isAlive := by
    cases isAlive <;> simp [sendsBack]
  have nextScript (change : FlagZone → FlagZone) : ((((state.plant flag carrier).setZone flag
      change).updateVisualState settings flag).detectRoundWin settings flag).nextScript =
        state.nextScript :=
    (SameFlags.detectRoundWin _ flag).nextScript.trans (plant_nextScript state flag carrier)
  simp only [deployFlagZone, accepted, Bool.not_true, Bool.false_eq_true, if_false, put]
  refine ⟨?_, ?_, place, ?_⟩
  · simp [plant_now]
  · exact (detectRoundWin_queue _ flag).trans (plant_queue state flag carrier)
  · apply Exists.intro
    simp only [spawnTicketGain_zone, detectRoundWin_zone, updateVisualState_zone, setZone_zone,
      plant_zone, nextScript, Function.update_self, Function.update_idem, back, Bool.true_and]
    rfl

end Operations

end State

end OperationFrontLine.Zones
