import OperationFrontLine.Zones.Invariant

/-!
# Which flags earn tickets

A `TicketGain` script runs exactly as long as its handle is kept in `FLAG_ZONE_SCRIPTS` of
its flag, and a flag keeps at most one.  That a flag with a script is active is true of
every operation but one: `DeployFlagZone` spawns the script also when it has just sent the
flag of a dead carrier back to its base, while `DestroyFlagZone`, which sends flags back as
well, spawns none.
-/

namespace OperationFrontLine.Zones

open OperationFrontLine.Library

variable {Flag : Type}

/-- The scripts that run are those that the flags keep, at most one for each flag. -/
structure State.Registered (state : State Flag) : Prop where
  recorded : ∀ script flag, (script, flag) ∈ state.running ↔ script ∈ (state.zone flag).scripts
  distinct : ∀ script first second, (script, first) ∈ state.running →
    (script, second) ∈ state.running → first = second
  nodup : state.running.Nodup
  fresh : ∀ entry ∈ state.running, entry.1 < state.nextScript
  single : ∀ flag, (state.zone flag).scripts.length ≤ 1

theorem registered_start (settings : Settings Flag) (rnkOn : Bool) (matchStartTime : ℚ)
    (bunkerPoint : Flag → Position) :
    (Server.start settings rnkOn matchStartTime bunkerPoint).zones.Registered where
  recorded script flag := by simp [Server.start, State.start, createFlagZone]
  distinct script first second runs := by simp [Server.start, State.start] at runs
  nodup := List.nodup_nil
  fresh entry runs := by simp [Server.start, State.start] at runs
  single flag := by simp [Server.start, State.start, createFlagZone]

namespace State.Registered

variable {settings : Settings Flag} {world : World} {state after : State Flag}

theorem sameFlags (registered : state.Registered) (same : state.SameFlags after) :
    after.Registered where
  recorded script flag := by
    rw [same.running, same.zone]
    exact registered.recorded script flag
  distinct := by
    rw [same.running]
    exact registered.distinct
  nodup := same.running ▸ registered.nodup
  fresh := by
    rw [same.running, same.nextScript]
    exact registered.fresh
  single flag := by
    rw [same.zone]
    exact registered.single flag

theorem atTime (registered : state.Registered) (time : ℚ) : (state.atTime time).Registered :=
  ⟨registered.recorded, registered.distinct, registered.nodup, registered.fresh,
    registered.single⟩

theorem enqueue (registered : state.Registered) (arguments : Arguments Flag) (command : Command) :
    (state.enqueue arguments command).Registered :=
  ⟨registered.recorded, registered.distinct, registered.nodup, registered.fresh,
    registered.single⟩

variable [DecidableEq Flag]

theorem setZone (registered : state.Registered) (flag : Flag) {change : FlagZone → FlagZone}
    (same : (change (state.zone flag)).scripts = (state.zone flag).scripts) :
    (state.setZone flag change).Registered := by
  have scripts (other : Flag) :
      ((state.setZone flag change).zone other).scripts = (state.zone other).scripts := by
    rw [setZone_zone]
    by_cases isFlag : other = flag
    · subst isFlag
      rw [Function.update_self, same]
    · rw [Function.update_of_ne isFlag]
  exact
    { recorded := fun script other => by
        rw [scripts]
        exact registered.recorded script other
      distinct := registered.distinct
      nodup := registered.nodup
      fresh := registered.fresh
      single := fun other => by
        rw [scripts]
        exact registered.single other }

theorem terminateScripts (registered : state.Registered) (flag : Flag) :
    (state.terminateScripts flag).Registered where
  recorded script other := by
    rw [terminateScripts_zone]
    simp only [State.terminateScripts, List.mem_filter, decide_eq_true_eq,
      registered.recorded script other]
    by_cases isFlag : other = flag
    · subst isFlag
      simp
    · rw [Function.update_of_ne isFlag]
      refine and_iff_left_of_imp fun kept ended => isFlag ?_
      exact registered.distinct script other flag ((registered.recorded _ _).mpr kept)
        ((registered.recorded _ _).mpr ended)
  distinct script first second firstRuns secondRuns :=
    registered.distinct script first second (List.mem_filter.mp firstRuns).1
      (List.mem_filter.mp secondRuns).1
  nodup := registered.nodup.filter _
  fresh entry runs := registered.fresh entry (List.mem_filter.mp runs).1
  single other := by
    rw [terminateScripts_zone]
    by_cases isFlag : other = flag
    · subst isFlag
      simp
    · rw [Function.update_of_ne isFlag]
      exact registered.single other

theorem spawnTicketGain (registered : state.Registered) {flag : Flag}
    (none_kept : (state.zone flag).scripts = []) : (state.spawnTicketGain flag).Registered where
  recorded script other := by
    rw [spawnTicketGain_zone]
    simp only [State.spawnTicketGain, List.mem_append, List.mem_singleton, Prod.mk.injEq,
      registered.recorded script other]
    by_cases isFlag : other = flag
    · subst isFlag
      simp [none_kept]
    · simp [isFlag]
  distinct script first second firstRuns secondRuns := by
    have unused (other : Flag) : (state.nextScript, other) ∉ state.running :=
      fun runs => lt_irrefl _ (registered.fresh _ runs)
    simp only [State.spawnTicketGain, List.mem_append, List.mem_singleton, Prod.mk.injEq]
      at firstRuns secondRuns
    rcases firstRuns with firstRuns | ⟨isNew, isFlag⟩
    · rcases secondRuns with secondRuns | ⟨isNew, -⟩
      · exact registered.distinct script first second firstRuns secondRuns
      · exact absurd (isNew ▸ firstRuns) (unused first)
    · rcases secondRuns with secondRuns | ⟨-, alsoFlag⟩
      · exact absurd (isNew ▸ secondRuns) (unused second)
      · exact isFlag.trans alsoFlag.symm
  nodup := by
    refine registered.nodup.append (List.nodup_singleton _) ?_
    intro entry runs isNew
    cases List.mem_singleton.mp isNew
    exact lt_irrefl _ (registered.fresh _ runs)
  fresh entry runs := by
    rcases List.mem_append.mp runs with old | new
    · exact (registered.fresh entry old).trans (Nat.lt_succ_self _)
    · cases List.mem_singleton.mp new
      exact Nat.lt_succ_self _
  single other := by
    rw [spawnTicketGain_zone]
    by_cases isFlag : other = flag
    · subst isFlag
      simp
    · rw [Function.update_of_ne isFlag]
      exact registered.single other

theorem updateVisualState (registered : state.Registered) (flag : Flag) :
    (state.updateVisualState settings flag).Registered :=
  registered.setZone flag rfl

theorem plant (registered : state.Registered) (flag : Flag) (carrier : Option Person) :
    (state.plant flag carrier).Registered := by
  refine terminateScripts (setZone (sameFlags (setZone registered flag ?_)
    (.setDeleteLock _ carrier false)) flag ?_) flag
  all_goals rfl

theorem deployFlagZone (registered : state.Registered) (flag : Flag) (carrier : Option Person)
    (positionPlayer : Position) (isAlive isQueue : Bool) :
    (state.deployFlagZone settings world flag carrier positionPlayer isAlive
      isQueue).Registered := by
  unfold State.deployFlagZone
  split
  · exact registered.enqueue _ _
  · split
    · exact registered
    · obtain ⟨place, put⟩ := @putDown_eq _ settings world _ (state.plant flag carrier) flag
        positionPlayer isAlive (state.sendsBack settings flag positionPlayer isAlive)
      rw [put]
      refine spawnTicketGain (sameFlags (updateVisualState (setZone
        (registered.plant flag carrier) flag ?_) flag) (.detectRoundWin _ flag)) ?_
      · rfl
      · simp [plant_zone]

theorem unDeployFlagZone (registered : state.Registered) (flag : Flag) (carrier : Option Person)
    (lastFlagPos : Position) (isQueue : Bool) :
    (state.unDeployFlagZone settings world flag carrier lastFlagPos isQueue).Registered := by
  unfold State.unDeployFlagZone
  split
  · exact registered.enqueue _ _
  · split
    · exact registered
    · refine updateVisualState (terminateScripts (sameFlags (setZone registered flag ?_)
        (.setDeleteLock _ carrier true)) flag) flag
      rfl

theorem reDeployFlagZone (registered : state.Registered) (flag : Flag)
    (originalPos positionPlayer currentPlayerPos : Position) (isQueue : Bool) :
    (state.reDeployFlagZone settings flag originalPos positionPlayer currentPlayerPos
      isQueue).Registered := by
  unfold State.reDeployFlagZone
  split
  · exact registered.enqueue _ _
  · split
    · exact registered
    · refine spawnTicketGain (sameFlags (updateVisualState (setZone
        (registered.terminateScripts flag) flag ?_) flag) (.detectRoundWin _ flag)) ?_
      · rfl
      · simp

theorem destroyFlagZone (registered : state.Registered) (flag : Flag) (destroyingSide : Side) :
    (state.destroyFlagZone settings world flag destroyingSide).Registered := by
  unfold State.destroyFlagZone
  split
  · exact registered
  · have reported : (state.report (.destroyed flag)).Registered :=
      ⟨registered.recorded, registered.distinct, registered.nodup, registered.fresh,
        registered.single⟩
    refine sameFlags (updateVisualState (setZone (setZone (setZone
      (reported.terminateScripts flag) flag ?_) flag ?_) _ ?_) flag)
        (.sweepRP (.deleteFriendlyRP flag) _)
    all_goals rfl

theorem scanFlagZone (registered : state.Registered) (flag : Flag) :
    (state.scanFlagZone settings world flag).Registered := by
  have reported : (state.report (.scanned flag (state.zone flag))).Registered :=
    ⟨registered.recorded, registered.distinct, registered.nodup, registered.fresh,
      registered.single⟩
  have scanned : ((state.report (.scanned flag (state.zone flag))).setZone flag fun zone =>
      { zone with
        lastScan := some state.now
        captured := state.scanCapture settings world flag
        support := state.scanSupport settings world flag }).Registered :=
    reported.setZone flag rfl
  unfold State.scanFlagZone
  dsimp only
  split
  · exact scanned.destroyFlagZone flag _
  · exact scanned

theorem visitFlag (registered : state.Registered) (flag : Flag) (flagTimeLine : ℚ) :
    (state.visitFlag settings world flag flagTimeLine).Registered := by
  unfold State.visitFlag
  split
  · have scanned : (state.scanIfNeeded settings world flag).Registered := by
      unfold State.scanIfNeeded
      split
      · exact (registered.scanFlagZone flag).updateVisualState flag
      · exact registered
    unfold State.readyIfTime
    split
    · have readied : ((state.scanIfNeeded settings world flag).setZone flag fun zone =>
          { zone with ready := true }).Registered := scanned.setZone flag rfl
      exact ⟨readied.recorded, readied.distinct, readied.nodup, readied.fresh, readied.single⟩
    · exact scanned
  · have tracked : (state.trackCarrier world flag).Registered := by
      unfold State.trackCarrier
      split
      · split
        · exact registered.setZone flag rfl
        · exact registered
      · exact registered
    unfold State.plantOnDeath
    dsimp only
    split
    · exact tracked.deployFlagZone flag _ _ _ _
    · exact tracked

theorem execute (registered : state.Registered) (request : Request Flag) :
    (state.execute settings world request).state.Registered := by
  unfold State.execute
  split
  case h_1 => exact registered.deployFlagZone _ _ _ _ _
  case h_2 => exact registered.unDeployFlagZone _ _ _ _
  case h_3 flag destroyingSide _ _ => exact registered.destroyFlagZone flag destroyingSide
  case h_4 => exact registered
  case h_5 => exact registered.reDeployFlagZone _ _ _ _ _
  case h_6 => exact registered.sameFlags (.deployRP state _ _ _)
  case h_7 => exact registered
  case h_8 person unitId positionPlayer _ _ =>
    rcases state.fortifyRP_cases person unitId positionPlayer with
      same | ⟨voted, flag, originalPos, position, same, redeployed⟩
    · exact registered.sameFlags same
    · exact ((registered.sameFlags same).reDeployFlagZone flag _ _ _ true).sameFlags redeployed
  case h_9 => exact registered

theorem flagZoneQueue (registered : state.Registered) :
    (state.flagZoneQueue settings world).state.Registered := by
  unfold State.flagZoneQueue
  split
  · exact registered
  · rename_i request requests queued
    have executed : (state.execute settings world request).state.Registered :=
      registered.execute request
    cases ended : state.execute settings world request with
    | finished after =>
        rw [ended] at executed
        exact ⟨executed.recorded, executed.distinct, executed.nodup, executed.fresh,
          executed.single⟩
    | stopped after =>
        rw [ended] at executed
        exact executed

theorem receive {arguments : Arguments Flag} (registered : state.Registered)
    (received : state.receive settings world arguments = some after) : after.Registered := by
  unfold State.receive at received
  split at received
  case h_1 | h_3 | h_4 | h_6 | h_7 | h_8 | h_9 =>
    cases received
    exact registered.enqueue _ _
  case h_2 | h_5 => cases received

end State.Registered

def FlagZone.EarnsActive (zone : FlagZone) : Prop :=
  zone.scripts ≠ [] → zone.planted ∧ zone.activated

theorem FlagZone.EarnsActive.change {settings : Settings Flag} {now : ℚ} {zone after : FlagZone}
    (active : zone.EarnsActive) (change : Change settings now zone after) :
    after.EarnsActive := by
  cases change with
  | tracked | shown | setBack | readied => exact active
  | scanned => exact active
  | moved position script planted => exact fun _ => ⟨planted, rfl⟩
  | pickedUp | destroyed => exact fun kept => absurd rfl kept

theorem State.Registered.scripts_eq {state : State Flag} (registered : state.Registered)
    {script : Script} {flag : Flag} (runs : (script, flag) ∈ state.running) :
    (state.zone flag).scripts = [script] := by
  have kept : script ∈ (state.zone flag).scripts := (registered.recorded script flag).mp runs
  obtain ⟨only, isOnly⟩ := List.length_eq_one_iff.mp
    (le_antisymm (registered.single flag) (List.length_pos_of_mem kept))
  rw [isOnly, List.mem_singleton] at kept
  rw [isOnly, kept]

/-- Only active flags earn tickets: each flag has at most one `TicketGain` script, the one
that it keeps, and only while it is planted and active. -/
structure State.EarnsSoundly [DecidableEq Flag] (state : State Flag) : Prop where
  single : ∀ flag, (state.running.filter fun entry => entry.2 = flag).length ≤ 1
  recorded : ∀ script flag, (script, flag) ∈ state.running →
    (state.zone flag).scripts = [script]
  active : ∀ script flag, (script, flag) ∈ state.running →
    (state.zone flag).planted ∧ (state.zone flag).activated

section Runs

variable [DecidableEq Flag] {settings : Settings Flag} {server after : Server Flag}
  {event : Event Flag}

theorem State.Registered.earnsSoundly {state : State Flag} (registered : state.Registered)
    (active : ∀ flag, (state.zone flag).EarnsActive) : state.EarnsSoundly where
  single flag := by
    have kept : (state.running.filter fun entry => entry.2 = flag) ⊆
        (state.zone flag).scripts.map fun script => (script, flag) := by
      rintro ⟨script, other⟩ member
      obtain ⟨runs, isFlag⟩ := List.mem_filter.mp member
      obtain rfl : other = flag := by simpa using isFlag
      exact List.mem_map_of_mem ((registered.recorded script other).mp runs)
    calc (state.running.filter fun entry => entry.2 = flag).length
        ≤ ((state.zone flag).scripts.map fun script => (script, flag)).length :=
          (registered.nodup.filter _).length_le_of_subset kept
      _ = (state.zone flag).scripts.length := List.length_map _
      _ ≤ 1 := registered.single flag
  recorded script flag runs := registered.scripts_eq runs
  active script flag runs := active flag (by simp [registered.scripts_eq runs])

theorem registered_step (registered : server.zones.Registered)
    (stepped : step settings server event = some after) : after.zones.Registered := by
  cases step_cases stepped with
  | receive received => exact registered.receive received
  | @frame time world later ended =>
      rw [ended]
      exact (registered.atTime time).sameFlags (.sweepRP .trackRP _)
  | @command time world request requests queued later ended =>
      rw [ended]
      exact (registered.atTime time).flagZoneQueue
  | look later ended =>
      rw [ended]
      exact registered.atTime _
  | @visit time flagTimeLine world flag flags visiting later ended =>
      rw [ended]
      exact (registered.atTime time).visitFlag flag flagTimeLine
  | ticketGain running ended =>
      rw [ended]
      exact ⟨registered.recorded, registered.distinct, registered.nodup, registered.fresh,
          registered.single⟩

/-- The step sends the flag of a dead carrier back to its base. -/
def SendsFallenBack (settings : Settings Flag) (server : Server Flag) (event : Event Flag) :
    Prop :=
  ∃ deployment, server.deployment settings event = some deployment ∧ deployment.sentBack

/-- What holds before a step that sends no fallen flag back, and after it. -/
structure Server.Earning (server : Server Flag) : Prop where
  orderly : server.Orderly
  registered : server.zones.Registered
  active : ∀ flag, (server.zones.zone flag).EarnsActive

theorem earning_step (earning : server.Earning) (stays : ¬SendsFallenBack settings server event)
    (stepped : step settings server event = some after) : after.Earning where
  orderly := orderly_step earning.orderly stepped
  registered := registered_step earning.registered stepped
  active flag := by
    cases deploys : server.deployment settings event with
    | none =>
        have changes := (step_changed earning.orderly stepped deploys).2.zone flag
        exact changes.invariant (fun _ _ => FlagZone.EarnsActive.change) (earning.active flag)
    | some deployment =>
        obtain ⟨-, -, -, place, visualState, updated⟩ := step_deployed stepped deploys
        rw [updated]
        by_cases same : flag = deployment.flag
        · subst same
          rw [Function.update_self]
          refine fun _ => ⟨rfl, ?_⟩
          have stayed : deployment.sentBack = false :=
            Bool.eq_false_iff.mpr fun sentBack => stays ⟨deployment, deploys, sentBack⟩
          simp [FlagZone.putDown, stayed]
        · rw [Function.update_of_ne same]
          exact earning.active flag

/-- After a step that sends a fallen flag back, an inactive flag earns tickets. -/
theorem not_earnsSoundly_of_sendsFallenBack (registered : server.zones.Registered)
    (stepped : step settings server event = some after)
    (sends : SendsFallenBack settings server event) : ¬after.zones.EarnsSoundly := by
  obtain ⟨deployment, deploys, sentBack⟩ := sends
  obtain ⟨-, -, -, place, visualState, updated⟩ := step_deployed stepped deploys
  intro earns
  have kept : server.zones.nextScript ∈ (after.zones.zone deployment.flag).scripts := by
    simp [updated, FlagZone.putDown]
  have runs := ((registered_step registered stepped).recorded _ _).mpr kept
  have active := (earns.active _ _ runs).2
  simp [updated, FlagZone.putDown, sentBack] at active

omit [DecidableEq Flag] in
theorem earning_start (rnkOn : Bool) (matchStartTime : ℚ) (bunkerPoint : Flag → Position) :
    (Server.start settings rnkOn matchStartTime bunkerPoint).Earning where
  orderly := (Server.sound_start rnkOn matchStartTime bunkerPoint).orderly
  registered := registered_start settings rnkOn matchStartTime bunkerPoint
  active _ kept := absurd rfl kept

/-- Only active flags earn tickets at first, and in every later state of a run if and only
if no step of the run sends the flag of a dead carrier back to its base. -/
theorem tickets_earned_iff (rnkOn : Bool) (matchStartTime : ℚ) (bunkerPoint : Flag → Position)
    (events : List (Event Flag)) :
    (Server.start settings rnkOn matchStartTime bunkerPoint).zones.EarnsSoundly ∧
      (Along (step settings) (fun _ _ after => after.zones.EarnsSoundly)
          (.start settings rnkOn matchStartTime bunkerPoint) events ↔
        Along (step settings) (fun before event _ => ¬SendsFallenBack settings before event)
          (.start settings rnkOn matchStartTime bunkerPoint) events) := by
  have initial : (Server.start settings rnkOn matchStartTime bunkerPoint).Earning :=
    earning_start rnkOn matchStartTime bunkerPoint
  refine ⟨initial.registered.earnsSoundly initial.active, ?_⟩
  refine @along_iff_of_invariant _ _ (step settings) Server.Earning _ _
    (fun _ _ _ earning stays stepped => earning_step earning stays stepped)
    (fun before event after earning stepped => ⟨fun earns sends => ?_, fun stays => ?_⟩)
    _ initial events
  · exact not_earnsSoundly_of_sendsFallenBack earning.registered stepped sends earns
  · have kept := earning_step earning stays stepped
    exact kept.registered.earnsSoundly kept.active

end Runs

/-- A player picks up the western flag and is killed fifty metres from the enemy's base. -/
def fallNearBase : List (Event Side) :=
  pickUp ++ quietFrame 300 (quiet (fun _ => false) ⟨0, 3950, 0⟩) ++ [.ticketGain 0]

/-- The flag is back at its own base, not active, and has earned a ticket. -/
theorem fallen_flag_earns :
    ∃ server, run (step altis) (.start altis true 0 altisBunker) fallNearBase = some server ∧
      (server.zones.zone .west).place = .pos (altisBunker .west) ∧
      (server.zones.zone .west).activated = false ∧
      server.zones.ticketQueue = [(.west, true)] ∧ ¬server.zones.EarnsSoundly := by
  have ran : ((run (step altis) (.start altis true 0 altisBunker) fallNearBase).map fun server =>
      (((server.zones.zone .west).place, (server.zones.zone .west).activated),
        (server.zones.ticketQueue, server.zones.running))) =
      some ((.pos (altisBunker .west), false), ([(.west, true)], [(0, .west)])) := by
    decide +kernel
  obtain ⟨server, ended, values⟩ := Option.map_eq_some_iff.mp ran
  simp only [Prod.mk.injEq] at values
  obtain ⟨⟨place, inactive⟩, tickets, runs⟩ := values
  refine ⟨server, ended, place, inactive, tickets, fun earns => ?_⟩
  have active := (earns.active 0 .west (by simp [runs])).2
  exact absurd (inactive.symm.trans active) (by simp)

end OperationFrontLine.Zones
