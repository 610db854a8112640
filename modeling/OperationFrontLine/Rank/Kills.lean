import OperationFrontLine.Rank.Steps

/-!
# Kills

`PCS_OnKilled` looks for the player of the killer: by the UID of the unit, and behind it, for a
unit that no connected player has any more, by the UID stored on its body.  What it finds is
credited to the enemy of the killed unit only, but a second look, behind that test, credits the
player of the unit once more, and for every kill.
-/

namespace OperationFrontLine.Rank

open OperationFrontLine.Library

/-- A kill, with what the engine knows of the units at that time. -/
structure Kill (Uid Person Camp : Type) where
  victim : Person
  /-- `none` is `objNull`. -/
  killer : Option Person
  /-- `getPlayerUID`; `none` is the empty string. -/
  playerUid : Person → Option Uid
  /-- `GSC_Side` -/
  side : Person → Camp

/-- The rank module and the variable `OPFL_UNIT_UID` of the units; `none` is the empty string. -/
structure KillWorld (Uid Name Number Person : Type) where
  rank : State Uid Name Number
  unitUid : Person → Option Uid

variable {Uid Name Number Person Camp : Type} [DecidableEq Uid]

/-- `uid call PCS_UIDToID != ""`, with the connection that was found. -/
def State.connection (state : State Uid Name Number) (uid : Option Uid) :
    Option (Uid × Client Name) :=
  uid.bind fun uid => (state.clients uid).map fun client => (uid, client)

section OnKilled

variable [DecidableEq Person] [DecidableEq Camp] [Field Number]

def State.creditKill (settings : Settings Number) (state : State Uid Name Number) :
    Option (Uid × Client Name) → Outcome (State Uid Name Number)
  | none => .finished state
  | some (uid, client) => state.updatePlayerKills settings uid client.id

def State.onKilledBy (settings : Settings Number) (unitUid : Person → Option Uid)
    (kill : Kill Uid Person Camp) (killer : Person) (state : State Uid Name Number) :
    Outcome (State Uid Name Number) :=
  (if kill.side killer ≠ kill.side kill.victim then
    match state.connection (kill.playerUid killer) with
    | some found => state.creditKill settings (some found)
    | none => state.creditKill settings (state.connection (unitUid killer))
  else
    .finished state).andThen fun credited =>
      credited.creditKill settings (credited.connection (kill.playerUid killer))

/-- `PCS_OnKilled` on the server; an error leaves the variable of the body as it was. -/
def KillWorld.onKilled (settings : Settings Number) (world : KillWorld Uid Name Number Person)
    (kill : Kill Uid Person Camp) : KillWorld Uid Name Number Person :=
  let stored := Function.update world.unitUid kill.victim (kill.playerUid kill.victim)
  match kill.killer with
  | none => { world with unitUid := stored }
  | some killer =>
      if world.rank.running then
        match world.rank.onKilledBy settings world.unitUid kill killer with
        | .finished rank => ⟨rank, stored⟩
        | .stopped rank => { world with rank := rank }
      else { world with unitUid := stored }

def KillWorld.onKills (settings : Settings Number) (world : KillWorld Uid Name Number Person)
    (kills : List (Kill Uid Person Camp)) : KillWorld Uid Name Number Person :=
  kills.foldl (KillWorld.onKilled settings) world

/-! ## What should be credited -/

def KillWorld.killedBy (world : KillWorld Uid Name Number Person)
    (kill : Kill Uid Person Camp) : Option Uid :=
  kill.killer.bind fun killer =>
    if kill.side killer ≠ kill.side kill.victim then
      ((world.rank.connection (kill.playerUid killer)).or
        (world.rank.connection (world.unitUid killer))).map Prod.fst
    else
      none

def KillWorld.credits (settings : Settings Number) (uid : Uid) :
    KillWorld Uid Name Number Person → List (Kill Uid Person Camp) → ℕ
  | _, [] => 0
  | world, kill :: kills =>
      (if world.killedBy kill = some uid then 1 else 0) +
        credits settings uid (world.onKilled settings kill) kills

/-- The kills of a player grow by the number of his events, and his balance by that number
times the reward. -/
def KillWorld.Exact (settings : Settings Number) (world : KillWorld Uid Name Number Person)
    (kills : List (Kill Uid Person Camp)) : Prop :=
  ∀ uid session, (world.rank.clients uid).isSome → world.rank.session? uid = some session →
    ∃ after, (world.onKills settings kills).rank.session? uid = some after ∧
      after.record.account.kills =
        session.record.account.kills + world.credits settings uid kills ∧
      after.record.account.chickens = session.record.account.chickens +
        world.credits settings uid kills * State.killReward settings

/-! ## What is credited -/

namespace State

structure Counted (settings : Settings Number) (count : Uid → ℕ)
    (before after : State Uid Name Number) : Prop where
  same : SameRoster before after
  account : ∀ uid session, before.session? uid = some session →
    ∃ credited, after.session? uid = some credited ∧
      credited.record.account.kills = session.record.account.kills + count uid ∧
      credited.record.account.chickens =
        session.record.account.chickens + count uid * killReward settings

variable {settings : Settings Number} {before after : State Uid Name Number}

omit [DecidableEq Uid] in
theorem Counted.none (state : State Uid Name Number) :
    Counted settings (fun _ => 0) state state where
  same := .refl state
  account uid session found := ⟨session, found, by simp, by simp⟩

omit [DecidableEq Uid] in
theorem Counted.trans {first second : Uid → ℕ} {last : State Uid Name Number}
    (left : Counted settings first before after) (right : Counted settings second after last) :
    Counted settings (fun uid => first uid + second uid) before last where
  same := left.same.trans right.same
  account uid session found := by
    obtain ⟨middle, foundMiddle, kills, chickens⟩ := left.account uid session found
    obtain ⟨credited, foundLast, moreKills, moreChickens⟩ := right.account uid middle foundMiddle
    refine ⟨credited, foundLast, ?_, ?_⟩
    · rw [moreKills, kills]
      push_cast
      ring
    · rw [moreChickens, chickens]
      push_cast
      ring

omit [Field Number] in
theorem session?_pushPublish (state : State Uid Name Number) (uid : Uid) (id : ClientId) :
    (state.pushPublish uid id).session? = state.session? := rfl

theorem Counted.updatePlayerKills {uid : Uid} {session : Session Uid Number}
    (found : before.session? uid = some session) (id : ClientId) :
    ∃ after, before.updatePlayerKills settings uid id = .finished after ∧
      Counted settings (fun other => if some uid = some other then 1 else 0) before after := by
  have roster := sameRoster_updatePlayerKills settings uid id before
  rw [State.updatePlayerKills, found] at roster ⊢
  refine ⟨_, rfl, roster, fun other session' found' => ?_⟩
  rw [session?_pushPublish, session?_setSlot_session]
  by_cases same : other = uid
  · subst same
    obtain rfl := Option.some.inj (found.symm.trans found')
    exact ⟨_, if_pos rfl, by simp [Session.withAccount], by simp [Session.withAccount]⟩
  · have different : ¬some uid = some other := fun equal => same (Option.some.inj equal).symm
    rw [if_neg same, if_neg different]
    exact ⟨session', found', by simp, by simp⟩

theorem Counted.creditKill (consistent : Consistent before) (uid : Option Uid) :
    ∃ after, before.creditKill settings (before.connection uid) = .finished after ∧
      Counted settings
        (fun other => if (before.connection uid).map Prod.fst = some other then 1 else 0)
        before after := by
  cases found : before.connection uid with
  | none => exact ⟨before, rfl, by simpa using Counted.none before⟩
  | some pair =>
      obtain ⟨present, -, has⟩ := Option.bind_eq_some_iff.mp found
      obtain ⟨client, connected, rfl⟩ := Option.map_eq_some_iff.mp has
      have hasSession : (before.session? present).isSome := by
        rw [← handleOf_isSome, consistent.connected, connected]
        rfl
      obtain ⟨session, foundSession⟩ := Option.isSome_iff_exists.mp hasSession
      exact Counted.updatePlayerKills foundSession client.id

omit [DecidableEq Uid] [Field Number] in
theorem SameRoster.connection (same : SameRoster before after) (uid : Option Uid) :
    after.connection uid = before.connection uid := by
  rw [State.connection, State.connection, same.clients]

end State

namespace KillWorld

variable {settings : Settings Number} {world : KillWorld Uid Name Number Person}
  {kill : Kill Uid Person Camp}

def unitOf (world : KillWorld Uid Name Number Person) (kill : Kill Uid Person Camp) :
    Option Uid :=
  (world.rank.connection (kill.killer.bind kill.playerUid)).map Prod.fst

omit [DecidableEq Person] in
/-- The first test credits the killer of an enemy, the second the player of the unit. -/
theorem onKilledBy_counted (consistent : world.rank.Consistent) {killer : Person}
    (isKiller : kill.killer = some killer) :
    ∃ after, world.rank.onKilledBy settings world.unitUid kill killer = .finished after ∧
      State.Counted settings
        (fun uid => (if world.killedBy kill = some uid then 1 else 0) +
          if world.unitOf kill = some uid then 1 else 0) world.rank after := by
  have unit : world.unitOf kill =
      (world.rank.connection (kill.playerUid killer)).map Prod.fst := by
    rw [unitOf, isKiller, Option.bind_some]
  -- the first test
  obtain ⟨middle, ended, first⟩ : ∃ middle,
      (if kill.side killer ≠ kill.side kill.victim then
        match world.rank.connection (kill.playerUid killer) with
        | some found => world.rank.creditKill settings (some found)
        | none =>
            world.rank.creditKill settings (world.rank.connection (world.unitUid killer))
      else
        .finished world.rank) = .finished middle ∧
      State.Counted settings (fun uid => if world.killedBy kill = some uid then 1 else 0)
        world.rank middle := by
    rw [killedBy, isKiller, Option.bind_some]
    by_cases enemy : kill.side killer ≠ kill.side kill.victim
    · rw [if_pos enemy, if_pos enemy]
      cases found : world.rank.connection (kill.playerUid killer) with
      | some connected =>
          have credited : ∃ after, world.rank.creditKill settings _ = .finished after ∧ _ :=
            State.Counted.creditKill consistent (kill.playerUid killer)
          rwa [found] at credited
      | none =>
          rw [Option.none_or]
          exact State.Counted.creditKill consistent (world.unitUid killer)
    · rw [if_neg enemy, if_neg enemy]
      exact ⟨world.rank, rfl, by simpa using State.Counted.none world.rank⟩
  -- the second one, whose connections are the same
  obtain ⟨after, endedLater, second⟩ :
      ∃ after, middle.creditKill settings _ = .finished after ∧ _ :=
    State.Counted.creditKill (consistent.congr first.same) (kill.playerUid killer)
  rw [first.same.connection, ← unit] at second
  exact ⟨after, by rw [State.onKilledBy, ended]; exact endedLater, first.trans second⟩

theorem onKilled_counted (consistent : world.rank.Consistent) (running : world.rank.running)
    (kill : Kill Uid Person Camp) :
    State.Counted settings
      (fun uid => (if world.killedBy kill = some uid then 1 else 0) +
        if world.unitOf kill = some uid then 1 else 0)
      world.rank (world.onKilled settings kill).rank := by
  cases isKiller : kill.killer with
  | none =>
      have nobody : world.killedBy kill = none ∧ world.unitOf kill = none := by
        simp [killedBy, unitOf, isKiller, State.connection]
      rw [onKilled, isKiller, nobody.1, nobody.2]
      simpa using State.Counted.none world.rank
  | some killer =>
      obtain ⟨after, ended, credited⟩ :
          ∃ after, world.rank.onKilledBy settings _ _ _ = .finished after ∧ _ :=
        onKilledBy_counted consistent isKiller
      rw [onKilled, isKiller]
      simp only [if_pos running, ended]
      exact credited

def units (settings : Settings Number) (uid : Uid) :
    KillWorld Uid Name Number Person → List (Kill Uid Person Camp) → ℕ
  | _, [] => 0
  | world, kill :: kills =>
      (if world.unitOf kill = some uid then 1 else 0) +
        units settings uid (world.onKilled settings kill) kills

/-- A player gets the kills that he should, and one for every kill by his unit. -/
theorem onKills_counted (consistent : world.rank.Consistent) (running : world.rank.running)
    (kills : List (Kill Uid Person Camp)) :
    State.Counted settings
      (fun uid => world.credits settings uid kills + units settings uid world kills)
      world.rank (world.onKills settings kills).rank := by
  induction kills generalizing world with
  | nil => exact State.Counted.none world.rank
  | cons kill kills inductionHypothesis =>
      have first : State.Counted settings _ _ _ := onKilled_counted consistent running kill
      have later := inductionHypothesis (consistent.congr first.same)
        (first.same.running.trans running)
      have same : (fun uid => world.credits settings uid (kill :: kills) +
            units settings uid world (kill :: kills)) =
          fun uid => ((if world.killedBy kill = some uid then 1 else 0) +
              if world.unitOf kill = some uid then 1 else 0) +
            ((world.onKilled settings kill).credits settings uid kills +
              units settings uid (world.onKilled settings kill) kills) := by
        funext uid
        rw [credits, units]
        omega
      rw [same]
      exact first.trans later

/-- No kill was by the unit of the player exactly when his unit is the killer of none. -/
theorem units_eq_zero (consistent : world.rank.Consistent) (running : world.rank.running)
    (uid : Uid) (kills : List (Kill Uid Person Camp)) :
    units settings uid world kills = 0 ↔
      ∀ kill ∈ kills, (world.rank.connection (kill.killer.bind kill.playerUid)).map Prod.fst ≠
        some uid := by
  induction kills generalizing world with
  | nil => simp [units]
  | cons kill kills inductionHypothesis =>
      have first : State.Counted settings _ _ _ := onKilled_counted consistent running kill
      have later := inductionHypothesis (consistent.congr first.same)
        (first.same.running.trans running)
      rw [units, Nat.add_eq_zero_iff, later, List.forall_mem_cons, ite_eq_right_iff]
      simp only [first.same.connection, one_ne_zero, imp_false, unitOf]

omit [DecidableEq Uid] [DecidableEq Person] [DecidableEq Camp] [Field Number] in
theorem connection_eq_some {state : State Uid Name Number} {found : Option Uid} {uid : Uid} :
    (state.connection found).map Prod.fst = some uid ↔
      found = some uid ∧ (state.clients uid).isSome := by
  cases found with
  | none => simp [State.connection]
  | some present =>
      simp only [State.connection, Option.bind_some, Option.map_map, Option.map_eq_some_iff,
        Function.comp_apply, Option.some.injEq, Option.isSome_iff_exists]
      constructor
      · rintro ⟨client, connected, rfl⟩
        exact ⟨rfl, client, connected⟩
      · rintro ⟨rfl, client, connected⟩
        exact ⟨client, connected, rfl⟩

end KillWorld

end OnKilled

/-! ## When the credit is exact -/

section Exact

variable [DecidableEq Person] [DecidableEq Camp]
  [Field Number] [LinearOrder Number] [IsStrictOrderedRing Number]

omit [LinearOrder Number] [IsStrictOrderedRing Number] in
/-- The accounts are exact when nobody is credited behind the side test. -/
theorem KillWorld.exact_iff_units [CharZero Number] {settings : Settings Number}
    {world : KillWorld Uid Name Number Person} (consistent : world.rank.Consistent)
    (running : world.rank.running) (kills : List (Kill Uid Person Camp)) :
    KillWorld.Exact settings world kills ↔
      ∀ uid, (world.rank.clients uid).isSome → KillWorld.units settings uid world kills = 0 := by
  have credited : State.Counted settings _ _ _ :=
    KillWorld.onKills_counted consistent running kills
  constructor
  · intro exact uid connected
    obtain ⟨session, found⟩ := Option.isSome_iff_exists.mp
      (State.handleOf_isSome.mp ((consistent.connected uid).mpr connected))
    obtain ⟨after, foundAfter, grown, -⟩ := exact uid session connected found
    obtain ⟨again, foundAgain, really, -⟩ := credited.account uid session found
    obtain rfl := Option.some.inj (foundAfter.symm.trans foundAgain)
    rw [grown, add_right_inj, Nat.cast_inj] at really
    omega
  · intro nobody uid session connected found
    obtain ⟨after, foundAfter, grown, paid⟩ := credited.account uid session found
    simp only [nobody uid connected, add_zero] at grown paid
    exact ⟨after, foundAfter, grown, paid⟩

/-- The credit is exact when no killer is the unit of a connected player: then only the UIDs
stored on bodies count. -/
theorem onKills_exact_iff [DecidableEq Name] {settings : Settings Number}
    {events : List (Event Uid Name Number)} {state : State Uid Name Number}
    (reached : run (step settings) State.initial events = some state)
    (running : state.running = true) (unitUid : Person → Option Uid)
    (kills : List (Kill Uid Person Camp)) :
    KillWorld.Exact settings ⟨state, unitUid⟩ kills ↔
      ∀ kill ∈ kills, ∀ killer uid, kill.killer = some killer →
        kill.playerUid killer = some uid → state.clients uid = none := by
  have sound : State.Sound state := run_invariant State.Sound
    (fun _ event _ sound stepped => State.sound_step settings event sound stepped)
    State.sound_initial reached
  obtain ⟨consistent, -⟩ := sound running
  rw [KillWorld.exact_iff_units consistent running]
  constructor
  · intro nobody kill happened killer uid isKiller isUnit
    by_contra present
    have connected : (state.clients uid).isSome := Option.isSome_iff_ne_none.mpr present
    have none := (KillWorld.units_eq_zero consistent running uid kills).mp (nobody uid connected)
    exact none kill happened (KillWorld.connection_eq_some.mpr
      ⟨by rw [isKiller, Option.bind_some, isUnit], connected⟩)
  · intro absent uid connected
    refine (KillWorld.units_eq_zero consistent running uid kills).mpr fun kill happened is => ?_
    obtain ⟨isUnit, -⟩ := KillWorld.connection_eq_some.mp is
    obtain ⟨killer, isKiller, named⟩ := Option.bind_eq_some_iff.mp isUnit
    rw [absent kill happened killer uid isKiller named] at connected
    exact absurd connected Bool.false_ne_true

end Exact

/-- Unit 1 of side `true` kills unit 0 of side `false`. -/
def enemyKill (playerUid : ℕ → Option ℕ) : Kill ℕ ℕ Bool where
  victim := 0
  killer := some 1
  playerUid := playerUid
  side := fun unit => unit == 1

def oneConnected : Option (State ℕ ℕ ℚ) := run (step plainSettings) State.initial [.connect 7 0]

/-- Killed by the body of a player who has respawned. -/
theorem onKills_exact_iff_body :
    ∃ state, oneConnected = some state ∧
      KillWorld.Exact plainSettings ⟨state, Function.update (fun _ => none) 1 (some 7)⟩
        [enemyKill fun _ => none] := by
  have running : oneConnected.map (fun state => state.running) = some true := by decide +kernel
  obtain ⟨state, reached, running⟩ := Option.map_eq_some_iff.mp running
  refine ⟨state, reached, (onKills_exact_iff reached running _ _).mpr ?_⟩
  intro kill happened killer uid isKiller named
  obtain rfl := List.mem_singleton.mp happened
  exact absurd named (by simp [enemyKill])

/-- The unit of a connected player kills an enemy, and he gets two kills. -/
theorem enemy_kill_counts_twice :
    ∃ state, oneConnected = some state ∧
      ¬ KillWorld.Exact plainSettings ⟨state, fun _ => none⟩
        [enemyKill fun unit => if unit = 1 then some 7 else none] := by
  have counted : oneConnected.map (fun state =>
      let kills := [enemyKill fun unit => if unit = 1 then some 7 else none]
      let world : KillWorld ℕ ℕ ℚ ℕ := ⟨state, fun _ => none⟩
      ((state.clients 7).isSome, (state.session? 7).map fun session =>
        session.record.account.kills, world.credits plainSettings 7 kills,
        ((world.onKills plainSettings kills).rank.session? 7).map fun session =>
          session.record.account.kills)) = some (true, some 0, 1, some 2) := by
    decide +kernel
  obtain ⟨state, reached, values⟩ := Option.map_eq_some_iff.mp counted
  simp only [Prod.mk.injEq] at values
  obtain ⟨connected, before, credits, after⟩ := values
  refine ⟨state, reached, fun exact => ?_⟩
  obtain ⟨session, found, old⟩ := Option.map_eq_some_iff.mp before
  obtain ⟨last, foundLast, new⟩ := Option.map_eq_some_iff.mp after
  obtain ⟨again, foundAgain, grown, -⟩ := exact 7 session connected found
  obtain rfl := Option.some.inj (foundLast.symm.trans foundAgain)
  rw [new, old, credits] at grown
  norm_num at grown

end OperationFrontLine.Rank
