import OperationFrontLine.Zones.Deployment

/-!
# The flag zone invariant

What the variables of a flag say about one another in every reachable state, and what the
scans do.  The capture level is always a whole number of scans, so that adding or taking
away one scan never leaves its range.
-/

namespace OperationFrontLine.Zones

open OperationFrontLine.Library

variable {Flag : Type}

structure FlagZone.Sound (settings : Settings Flag) (now : ℚ) (zone : FlagZone) : Prop where
  planted : zone.planted → zone.carrierUnit = none
  unplanted : zone.planted = false → zone.activated = false
  captured : ∃ scans : ℕ, zone.captured = scans * settings.scanTime ∧
    zone.captured ≤ settings.zoneCaptureTime
  supported : zone.support = settings.zoneDeathTime
  ready : zone.ready → zone.tod + settings.deployReadyTime ≤ now

namespace FlagZone.Sound

variable {settings : Settings Flag} {now later : ℚ} {zone after : FlagZone}

theorem captured_add (sound : zone.Sound settings now)
    (below : zone.captured < settings.zoneCaptureTime) :
    ∃ scans : ℕ, zone.captured + settings.scanTime = scans * settings.scanTime ∧
      zone.captured + settings.scanTime ≤ settings.zoneCaptureTime := by
  obtain ⟨scans, level, -⟩ := sound.captured
  obtain ⟨limit, whole⟩ := settings.captureTime_multiple
  have fewer : scans < limit := by
    rw [level, whole, mul_lt_mul_iff_of_pos_right settings.scanTime_pos] at below
    exact_mod_cast below
  refine ⟨scans + 1, by rw [level]; push_cast; ring, ?_⟩
  have room : ((scans : ℚ) + 1) * settings.scanTime ≤ limit * settings.scanTime :=
    mul_le_mul_of_nonneg_right (by exact_mod_cast fewer) settings.scanTime_pos.le
  rw [level, whole]
  linarith

theorem captured_sub (sound : zone.Sound settings now) (above : 0 < zone.captured) :
    ∃ scans : ℕ, zone.captured - settings.scanTime = scans * settings.scanTime ∧
      zone.captured - settings.scanTime ≤ settings.zoneCaptureTime := by
  obtain ⟨scans, level, bounded⟩ := sound.captured
  have some_left : scans ≠ 0 := by
    rintro rfl
    rw [level] at above
    simp at above
  refine ⟨scans - 1, ?_, by linarith [settings.scanTime_pos]⟩
  rw [level, Nat.cast_pred (Nat.pos_of_ne_zero some_left)]
  ring

theorem captured_nonneg (sound : zone.Sound settings now) : 0 ≤ zone.captured := by
  obtain ⟨scans, level, -⟩ := sound.captured
  rw [level]
  exact mul_nonneg scans.cast_nonneg settings.scanTime_pos.le

theorem mono (sound : zone.Sound settings now) (goesOn : now ≤ later) :
    zone.Sound settings later where
  planted := sound.planted
  unplanted := sound.unplanted
  captured := sound.captured
  supported := sound.supported
  ready isReady := (sound.ready isReady).trans goesOn

theorem change (sound : zone.Sound settings now) (change : Change settings now zone after) :
    after.Sound settings now := by
  cases change with
  | tracked => exact ⟨sound.planted, sound.unplanted, sound.captured, sound.supported, sound.ready⟩
  | shown => exact ⟨sound.planted, sound.unplanted, sound.captured, sound.supported, sound.ready⟩
  | pickedUp =>
      exact ⟨fun planted => (by cases planted), fun _ => rfl, sound.captured, sound.supported,
        sound.ready⟩
  | moved position script planted =>
      refine ⟨sound.planted, fun unplanted => ?_, sound.captured, sound.supported,
        fun ready => (by cases ready)⟩
      exact absurd (planted.symm.trans unplanted) (by simp)
  | scanned captured support planted level supported =>
      refine ⟨sound.planted, sound.unplanted, ?_, ?_, sound.ready⟩
      · rcases level with same | ⟨below, same⟩ | ⟨above, same⟩
        · rw [same]
          exact sound.captured
        · rw [same]
          exact sound.captured_add below
        · rw [same]
          exact sound.captured_sub above
      · rcases supported with same | same
        · exact same.trans sound.supported
        · exact same
  | destroyed position planted =>
      obtain ⟨limit, whole⟩ := settings.captureTime_multiple
      exact ⟨sound.planted, fun _ => rfl, ⟨limit, whole, le_rfl⟩, rfl,
        fun ready => (by cases ready)⟩
  | setBack =>
      exact ⟨sound.planted, sound.unplanted, sound.captured, sound.supported,
        fun _ => (sub_add_cancel now settings.deployReadyTime).le⟩
  | readied passed =>
      exact ⟨sound.planted, sound.unplanted, sound.captured, sound.supported, fun _ => passed⟩

theorem changes (sound : zone.Sound settings now) (changes : Changes settings now zone after) :
    after.Sound settings now :=
  changes.invariant (fun _ _ => change) sound

theorem putDown (sound : zone.Sound settings now) (script : Script) (sentBack : Bool)
    (place : Placement) (visualState : VisualState) :
    (zone.putDown now script sentBack place visualState).Sound settings now where
  planted _ := rfl
  unplanted unplanted := by cases unplanted
  captured := sound.captured
  supported := sound.supported
  ready ready := by cases ready

end FlagZone.Sound

section Reports

variable [DecidableEq Flag]

namespace State

variable {settings : Settings Flag} {world : World} (state : State Flag) (flag : Flag)

theorem reports_deployFlagZone (carrier : Option Person) (positionPlayer : Position)
    (isAlive isQueue : Bool) :
    (state.deployFlagZone settings world flag carrier positionPlayer isAlive isQueue).reports =
      state.reports := by
  unfold deployFlagZone
  split
  · rfl
  · split
    · rfl
    · obtain ⟨place, put⟩ := @putDown_eq _ settings world _ (state.plant flag carrier) flag
        positionPlayer isAlive (state.sendsBack settings flag positionPlayer isAlive)
      rw [put]
      exact (SameFlags.detectRoundWin _ flag).reports.trans
        (SameFlags.setDeleteLock _ carrier false).reports

theorem reports_unDeployFlagZone (carrier : Option Person) (lastFlagPos : Position)
    (isQueue : Bool) :
    (state.unDeployFlagZone settings world flag carrier lastFlagPos isQueue).reports =
      state.reports := by
  unfold unDeployFlagZone
  split
  · rfl
  · split
    · rfl
    · exact (SameFlags.setDeleteLock _ carrier true).reports

theorem reports_reDeployFlagZone (originalPos positionPlayer currentPlayerPos : Position)
    (isQueue : Bool) :
    (state.reDeployFlagZone settings flag originalPos positionPlayer currentPlayerPos
      isQueue).reports = state.reports := by
  unfold reDeployFlagZone
  split
  · rfl
  · split
    · rfl
    · exact (SameFlags.detectRoundWin _ flag).reports

theorem reports_fortifyRP (person : Option Person) (unitId : Text) (positionPlayer : Position) :
    (state.fortifyRP settings world person unitId positionPlayer).reports = state.reports := by
  rcases state.fortifyRP_cases person unitId positionPlayer with
    same | ⟨voted, flag, originalPos, position, same, redeployed⟩
  · exact same.reports
  · rw [redeployed.reports, reports_reDeployFlagZone, same.reports]

theorem reports_execute {request : Request Flag} (notDestroy : request.command ≠ .destroy) :
    (state.execute settings world request).state.reports = state.reports := by
  unfold execute
  split
  case h_1 => exact reports_deployFlagZone state _ _ _ _ _
  case h_2 => exact reports_unDeployFlagZone state _ _ _ _
  case h_3 isDestroy _ => exact absurd isDestroy notDestroy
  case h_4 => rfl
  case h_5 => exact reports_reDeployFlagZone state _ _ _ _ _
  case h_6 => exact (SameFlags.deployRP state _ _ _).reports
  case h_7 => rfl
  case h_8 => exact reports_fortifyRP state _ _ _
  case h_9 => rfl

theorem reports_flagZoneQueue {request : Request Flag} {requests : List (Request Flag)}
    (queued : state.queue = request :: requests) (notDestroy : request.command ≠ .destroy) :
    (state.flagZoneQueue settings world).state.reports = state.reports := by
  have executed : (state.execute settings world request).state.reports = state.reports :=
    reports_execute state notDestroy
  unfold flagZoneQueue
  rw [queued]
  dsimp only
  cases ended : state.execute settings world request with
  | finished after => simpa [ended, removeHead] using executed
  | stopped after => simpa [ended] using executed

theorem reports_receive {after : State Flag} {arguments : Arguments Flag}
    (received : state.receive settings world arguments = some after) :
    after.reports = state.reports := by
  unfold receive at received
  split at received
  case h_1 | h_3 | h_4 | h_6 | h_7 | h_8 | h_9 =>
    cases received
    rfl
  case h_2 | h_5 => cases received

/-- What a scan reports: itself, and a destruction when one of the levels is used up. -/
theorem reports_scanFlagZone :
    (state.scanFlagZone settings world flag).reports =
        .scanned flag (state.zone flag) :: state.reports ∨
      (¬0 < (state.zone flag).captured ∨ ¬0 < (state.zone flag).support) ∧
        (state.scanFlagZone settings world flag).reports =
          .destroyed flag :: .scanned flag (state.zone flag) :: state.reports := by
  unfold scanFlagZone
  dsimp only
  split
  case h_1 destroyingSide destroys =>
    unfold destroyFlagZone
    split
    case isTrue => exact .inl rfl
    case isFalse =>
      refine .inr ⟨?_, (SameFlags.sweepRP (SameFlags.deleteFriendlyRP flag) _).reports⟩
      unfold destroyedType at destroys
      dsimp only at destroys
      split_ifs at destroys with expired conquered
      · exact .inr expired.2
      · exact .inl conquered.2
  case h_2 => exact .inl rfl

theorem reports_visitFlag (flagTimeLine : ℚ) :
    (state.visitFlag settings world flag flagTimeLine).reports = state.reports ∨
      (state.zone flag).planted ∧
        ((state.visitFlag settings world flag flagTimeLine).reports =
            .scanned flag (state.zone flag) :: state.reports ∨
          (¬0 < (state.zone flag).captured ∨ ¬0 < (state.zone flag).support) ∧
            (state.visitFlag settings world flag flagTimeLine).reports =
              .destroyed flag :: .scanned flag (state.zone flag) :: state.reports) := by
  have ready (middle : State Flag) : (middle.readyIfTime settings world flag flagTimeLine).reports =
      middle.reports := by
    unfold readyIfTime
    split <;> rfl
  have tracked : (state.trackCarrier world flag).reports = state.reports := by
    unfold trackCarrier
    split
    · split <;> rfl
    · rfl
  unfold visitFlag
  split
  case isTrue planted =>
    rw [ready]
    unfold scanIfNeeded
    split
    case isTrue => exact .inr ⟨planted, reports_scanFlagZone state flag⟩
    case isFalse => exact .inl rfl
  case isFalse =>
    refine .inl (Eq.trans ?_ tracked)
    unfold plantOnDeath
    dsimp only
    split
    · exact reports_deployFlagZone _ flag _ _ _ _
    · rfl

end State

end Reports

/-- Only planted flags were scanned, and each destruction came with a scan before which the
capture level was 0. -/
structure ReportsSound (reports : List (Report Flag)) : Prop where
  scanned : ∀ flag zone, .scanned flag zone ∈ reports → zone.planted = true
  destroyed : ∀ flag earlier, .destroyed flag :: earlier <:+ reports →
    ∃ zone rest, earlier = .scanned flag zone :: rest ∧ zone.captured = 0

namespace ReportsSound

variable {reports : List (Report Flag)}

theorem scan (sound : ReportsSound reports) {flag : Flag} {zone : FlagZone}
    (planted : zone.planted) : ReportsSound (.scanned flag zone :: reports) where
  scanned other scannedZone member := by
    rcases List.mem_cons.mp member with same | earlier
    · cases same
      exact planted
    · exact sound.scanned other scannedZone earlier
  destroyed other earlier suffix := by
    rcases List.suffix_cons_iff.mp suffix with same | inside
    · cases same
    · exact sound.destroyed other earlier inside

theorem destroy (sound : ReportsSound (.scanned flag zone :: reports))
    (captured : zone.captured = 0) :
    ReportsSound (.destroyed flag :: .scanned flag zone :: reports) where
  scanned other scannedZone member := by
    rcases List.mem_cons.mp member with same | earlier
    · cases same
    · exact sound.scanned other scannedZone earlier
  destroyed other earlier suffix := by
    rcases List.suffix_cons_iff.mp suffix with same | inside
    · cases same
      exact ⟨zone, reports, rfl, captured⟩
    · exact sound.destroyed other earlier inside

end ReportsSound

structure State.Sound (settings : Settings Flag) (state : State Flag) : Prop where
  zone : ∀ flag, (state.zone flag).Sound settings state.now
  carries : state.CarriesOne
  reports : ReportsSound state.reports

namespace Server

variable {settings : Settings Flag} {server after : Server Flag}

structure Sound (settings : Settings Flag) (server : Server Flag) : Prop where
  orderly : server.Orderly
  zones : server.zones.Sound settings

theorem sound_start (rnkOn : Bool) (matchStartTime : ℚ) (bunkerPoint : Flag → Position) :
    (Server.start settings rnkOn matchStartTime bunkerPoint).Sound settings where
  orderly := ⟨by simp [start, State.start], by simp [start]⟩
  zones :=
    { zone := fun flag =>
        { planted := fun _ => rfl
          unplanted := fun unplanted => by cases unplanted
          captured := settings.captureTime_multiple.imp fun _ whole => ⟨whole, le_rfl⟩
          supported := rfl
          ready := fun ready => by cases ready }
      carries := fun first second person carries => by cases carries
      reports := ⟨by simp [start, State.start], by simp [start, State.start]⟩ }

end Server

section Runs

variable [DecidableEq Flag] {settings : Settings Flag} {server after : Server Flag}
  {event : Event Flag}

theorem now_le_step (orderly : server.Orderly)
    (stepped : step settings server event = some after) :
    server.zones.now ≤ after.zones.now := by
  cases deploys : server.deployment settings event with
  | none => exact (step_changed orderly stepped deploys).1
  | some deployment => exact (step_deployed stepped deploys).1

theorem orderly_step (orderly : server.Orderly)
    (stepped : step settings server event = some after) : after.Orderly where
  noDestroy request member := by
    cases deploys : server.deployment settings event with
    | none =>
        rcases (step_changed orderly stepped deploys).2.queue request member with earlier | new
        · exact orderly.noDestroy request earlier
        · exact new
    | some deployment =>
        exact orderly.noDestroy request ((step_deployed stepped deploys).2.1 request member)
  earlier flagTimeLine flags visits := by
    cases step_cases stepped with
    | receive received phase => cases phase.symm.trans visits
    | frame later ended phase => cases phase.symm.trans visits
    | command queued later ended phase =>
        rcases phase with phase | phase <;> cases phase.symm.trans visits
    | look later ended phase =>
        cases phase.symm.trans visits
        rw [ended]
        exact le_rfl
    | visit visiting later ended phase =>
        rcases phase with phase | phase
        · cases phase.symm.trans visits
        · cases phase.symm.trans visits
          exact (orderly.earlier _ _ visiting).trans (now_le_step orderly stepped)
    | ticketGain running ended phase => cases phase.symm.trans visits

theorem zone_sound_step (sound : server.Sound settings)
    (stepped : step settings server event = some after) (flag : Flag) :
    (after.zones.zone flag).Sound settings after.zones.now := by
  cases deploys : server.deployment settings event with
  | none =>
      obtain ⟨later, changed⟩ := step_changed sound.orderly stepped deploys
      exact ((sound.zones.zone flag).mono later).changes (changed.zone flag)
  | some deployment =>
      obtain ⟨later, -, -, place, visualState, updated⟩ := step_deployed stepped deploys
      rw [updated]
      by_cases same : flag = deployment.flag
      · subst same
        rw [Function.update_self]
        exact ((sound.zones.zone _).mono later).putDown _ _ _ _
      · rw [Function.update_of_ne same]
        exact (sound.zones.zone flag).mono later

theorem carriesOne_step (sound : server.Sound settings)
    (stepped : step settings server event = some after) : after.zones.CarriesOne := by
  cases deploys : server.deployment settings event with
  | none => exact (step_changed sound.orderly stepped deploys).2.carries sound.zones.carries
  | some deployment =>
      obtain ⟨-, -, -, place, visualState, updated⟩ := step_deployed stepped deploys
      have carriedBefore (flag : Flag) (person : Person)
          (carries : (after.zones.zone flag).carrierUnit = some person) :
          (server.zones.zone flag).carrierUnit = some person := by
        rw [updated] at carries
        by_cases same : flag = deployment.flag
        · subst same
          rw [Function.update_self] at carries
          cases carries
        · rwa [Function.update_of_ne same] at carries
      intro first second person carriesFirst carriesSecond
      exact sound.zones.carries first second person (carriedBefore first person carriesFirst)
        (carriedBefore second person carriesSecond)

theorem reports_step (sound : server.Sound settings)
    (stepped : step settings server event = some after) : ReportsSound after.zones.reports := by
  have before : ReportsSound server.zones.reports := sound.zones.reports
  cases step_cases stepped with
  | receive received => rwa [State.reports_receive _ received]
  | frame later ended => rwa [ended, (State.SameFlags.sweepRP State.SameFlags.trackRP _).reports]
  | @command time world request requests queued later ended =>
      have same : ((server.zones.atTime time).flagZoneQueue settings world).state.reports =
          server.zones.reports :=
        State.reports_flagZoneQueue (server.zones.atTime time) queued
          (sound.orderly.noDestroy request (by simp [queued]))
      rw [ended, same]
      exact before
  | look later ended => rwa [ended]
  | @visit time flagTimeLine world flag flags visiting later ended =>
      rw [ended]
      rcases State.reports_visitFlag (server.zones.atTime time) flag flagTimeLine with
        same | ⟨planted, scanned | ⟨usedUp, destroyed⟩⟩
      · rw [same]
        exact before
      · rw [scanned]
        exact before.scan planted
      · rw [destroyed]
        refine ReportsSound.destroy (before.scan planted) ?_
        have zone : (server.zones.zone flag).Sound settings server.zones.now :=
          sound.zones.zone flag
        have supported : 0 < (server.zones.zone flag).support :=
          zone.supported.symm ▸ settings.zoneDeathTime_pos
        exact le_antisymm (not_lt.mp (usedUp.resolve_right (not_not.mpr supported)))
          zone.captured_nonneg
  | ticketGain running ended => rwa [ended]

theorem sound_step (sound : server.Sound settings)
    (stepped : step settings server event = some after) : after.Sound settings where
  orderly := orderly_step sound.orderly stepped
  zones :=
    { zone := zone_sound_step sound stepped
      carries := carriesOne_step sound stepped
      reports := reports_step sound stepped }

theorem sound_run {rnkOn : Bool} {matchStartTime : ℚ} {bunkerPoint : Flag → Position}
    {events : List (Event Flag)}
    (ran : run (step settings) (.start settings rnkOn matchStartTime bunkerPoint) events =
      some server) : server.Sound settings :=
  run_invariant (Server.Sound settings) (fun _ _ _ sound stepped => sound_step sound stepped)
    (Server.sound_start rnkOn matchStartTime bunkerPoint) ran

structure State.FlagInvariant (settings : Settings Flag) (state : State Flag) : Prop where
  planted : ∀ flag, (state.zone flag).planted → (state.zone flag).carrierUnit = none
  unplanted : ∀ flag, (state.zone flag).planted = false → (state.zone flag).activated = false
  reports : ReportsSound state.reports
  carries : state.CarriesOne
  captured : ∀ flag, 0 ≤ (state.zone flag).captured ∧
    (state.zone flag).captured ≤ settings.zoneCaptureTime
  ready : ∀ flag, (state.zone flag).ready →
    settings.deployReadyTime ≤ state.now - (state.zone flag).tod

/-- The flag zone invariant holds after every run of the zone system. -/
theorem flag_invariant {rnkOn : Bool} {matchStartTime : ℚ} {bunkerPoint : Flag → Position}
    {events : List (Event Flag)}
    (ran : run (step settings) (.start settings rnkOn matchStartTime bunkerPoint) events =
      some server) : server.zones.FlagInvariant settings := by
  have sound : server.Sound settings := sound_run ran
  have zone (flag : Flag) : (server.zones.zone flag).Sound settings server.zones.now :=
    sound.zones.zone flag
  exact
    { planted := fun flag => (zone flag).planted
      unplanted := fun flag => (zone flag).unplanted
      reports := sound.zones.reports
      carries := sound.zones.carries
      captured := fun flag => ⟨(zone flag).captured_nonneg, (zone flag).captured.choose_spec.2⟩
      ready := fun flag isReady => by linarith [(zone flag).ready isReady] }

end Runs

/-- One flag a side on a field that runs north. -/
def altis : Settings Side where
  destroyedRadius := 2000
  flagZoneList := [.west, .east]
  side := id
  westFlag := .west
  eastFlag := .east
  battlePosition side := if side = .west then ⟨0, 0, 0⟩ else ⟨0, 4000, 0⟩
  battlePositionSize := 100
  axis position := position.y
  inBattleField position := decide (-200 ≤ position.y ∧ position.y ≤ 4200)
  inEndZone _ _ := false
  distance first second := |first.x - second.x| + |first.y - second.y|
  placed placement :=
    match placement with
    | .pos position => position
    | .posASL position => position
    | .posATL position => position
  mem_flagZoneList side := by cases side <;> simp
  scanTime_pos := by norm_num
  zoneDeathTime_pos := by norm_num
  captureTime_multiple := ⟨120, by norm_num⟩

def altisBunker : Side → Position
  | .west => ⟨0, 50, 0⟩
  | .east => ⟨0, 3950, 0⟩

def quiet (alive : Person → Bool) (position : Position) : World where
  present _ := true
  alive := alive
  posASL _ := position
  distanceTo _ _ := 0
  sideOf _ := some .west
  playerUid _ := "76561198000000001".toList
  uidToId _ := "A1".toList
  idToUid _ := "76561198000000001".toList
  unitsInZone _ := 0
  fobPoint side := altisBunker side
  rnkOn := true

/-- A frame in which one command is carried out and both flags are visited. -/
def commandFrame (time : ℚ) (world : World) : List (Event Side) :=
  [.frame time world, .command time world, .look time, .visit time world, .visit time world]

def quietFrame (time : ℚ) (world : World) : List (Event Side) :=
  [.frame time world, .look time, .visit time world, .visit time world]

/-- The flags become ready after two minutes, and a player picks up the western one. -/
def pickUp : List (Event Side) :=
  quietFrame 120 (quiet (fun _ => true) (altisBunker .west)) ++
    .receive (quiet (fun _ => true) (altisBunker .west))
      (.undeploy .west (some 1) (altisBunker .west) true) ::
    commandFrame 121 (quiet (fun _ => true) (altisBunker .west))

theorem pickUp_ran :
    (run (step altis) (.start altis true 0 altisBunker) pickUp).isSome := by
  decide +kernel

/-- The invariant while the flag is carried. -/
theorem flag_invariant_pickUp :
    ((run (step altis) (.start altis true 0 altisBunker) pickUp).get
      pickUp_ran).zones.FlagInvariant altis :=
  flag_invariant (Option.some_get pickUp_ran).symm

end OperationFrontLine.Zones
