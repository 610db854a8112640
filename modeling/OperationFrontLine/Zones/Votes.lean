import OperationFrontLine.Zones.Rally

/-!
# Votes for a rally point

`FortifyRP` refuses a voter who is in `OPFL_RP_VOTE_LIST`, and raises `OPFL_RP_VOTE`
without putting the voter into the list.
-/

namespace OperationFrontLine.Zones

open OperationFrontLine.Library

variable {Flag : Type}

/-- A session with the IDs of the requests that passed the checks, for each unit since its
rally point was deployed. -/
structure Election (Flag : Type) where
  session : RallySession Flag
  voters : Person → List Text

namespace Election

def start (zone : Flag → FlagZone) (settings : Settings Flag) : Election Flag where
  session := .start zone settings
  voters _ := []

variable [DecidableEq Flag] (settings : Settings Flag)

def cast (election : Election Flag) : RallyEvent Flag → Option (Ballot Flag × Text)
  | .fortifyRP time world person unitId positionPlayer =>
      ((election.session.zones.atTime time).ballot settings (election.session.answers world)
        person unitId positionPlayer).map fun ballot => (ballot, unitId)
  | _ => none

def votersAfter (election : Election Flag) (event : RallyEvent Flag) : Person → List Text :=
  match event, election.cast settings event with
  | .deployRP _ _ (some person) _ _, _ =>
      if (election.session.zonesAfter settings event).rpList = election.session.zones.rpList then
        election.voters
      else Function.update election.voters person []
  | _, some (ballot, unitId) =>
      Function.update election.voters ballot.person (election.voters ballot.person ++ [unitId])
  | _, none => election.voters

def step (election : Election Flag) (event : RallyEvent Flag) : Option (Election Flag) :=
  (election.session.step settings event).map fun session =>
    ⟨session, election.votersAfter settings event⟩

/-- Each voter counts once, the flag is moved by as many voters as are required, and a vote
that is given again changes nothing. -/
structure Fair (before : Election Flag) (event : RallyEvent Flag) (after : Election Flag) :
    Prop where
  counted : ∀ person votes, (after.session.zones.person person).rpVote = some votes →
    votes = (after.voters person).toFinset.card
  required : ∀ ballot unitId, before.cast settings event = some (ballot, unitId) →
    after.session.zones.zone ≠ before.session.zones.zone →
      (after.voters ballot.person).toFinset.card = settings.rpVotesReq
  repeated : ∀ ballot unitId, before.cast settings event = some (ballot, unitId) →
    unitId ∈ before.voters ballot.person →
      after.session.zones.person = before.session.zones.person ∧
        after.session.zones.zone = before.session.zones.zone ∧
        after.session.zones.rpList = before.session.zones.rpList

def Fresh (before : Election Flag) (event : RallyEvent Flag) : Prop :=
  ∀ ballot unitId, before.cast settings event = some (ballot, unitId) →
    unitId ∉ before.voters ballot.person

/-- The variables hold the number of the IDs, and no list of them. -/
structure Counted (election : Election Flag) : Prop where
  votes : ∀ person votes, (election.session.zones.person person).rpVote = some votes →
    votes = (election.voters person).length
  noList : ∀ person voteList, (election.session.zones.person person).rpVoteList = some voteList →
    voteList = []
  nodup : ∀ person, (election.voters person).Nodup

omit [DecidableEq Flag] in
theorem counted_start (zone : Flag → FlagZone) : (start zone settings).Counted where
  votes _ _ some := by cases some
  noList _ _ some := by cases some
  nodup _ := List.nodup_nil

omit [DecidableEq Flag] in
theorem Counted.keep {before after : Election Flag} (counted : before.Counted)
    (keeps : ∀ person, (before.session.zones.person person).KeepsVotes
      (after.session.zones.person person))
    (sameVoters : after.voters = before.voters) : after.Counted where
  votes person votes some := by
    rw [sameVoters]
    rcases keeps person with same | gone
    · exact counted.votes person votes (same.1 ▸ some)
    · simp [gone.1] at some
  noList person voteList some := by
    rcases keeps person with same | gone
    · exact counted.noList person voteList (same.2 ▸ some)
    · simp [gone.2] at some
  nodup person := by
    rw [sameVoters]
    exact counted.nodup person

theorem keepsVotes_fortified (world : World) (state : State Flag) (ballot : Ballot Flag)
    (person : Person) : ((state.counted ballot).person person).KeepsVotes
      ((state.fortified settings world ballot).person person) := by
  have redeployed : ∀ state : State Flag, state.SameRally (state.reDeployFlagZone settings
      ballot.flag ballot.rpFlagPos ballot.rpPos ⟨0, 0, 0⟩ true) :=
    fun state => State.sameRally_reDeployFlagZone settings state _ _ _ _ true
  have swept := State.sweepRP_votes (fun state entry => State.handled_recheckRP settings world
    state ballot.flag (State.lastFlag settings fun flag => settings.side flag ≠ ballot.rpSide)
      entry) ((state.counted ballot).reDeployFlagZone settings ballot.flag ballot.rpFlagPos
        ballot.rpPos ⟨0, 0, 0⟩ true) person
  rwa [(redeployed _).person] at swept

theorem keepsVotes_destroyFlagZone (world : World) (state : State Flag) (flag : Flag)
    (destroyingSide : Side) (person : Person) : (state.person person).KeepsVotes
      ((state.destroyFlagZone settings world flag destroyingSide).person person) := by
  unfold State.destroyFlagZone
  split
  · exact .refl _
  · exact State.sweepRP_votes
      (fun state entry => State.handled_deleteFriendlyRP settings world state flag entry)
      (((state.wreck settings world flag).setBack settings flag).updateVisualState settings flag)
      person

theorem zonesAfter_cast {election : Election Flag} (counted : election.Counted)
    {event : RallyEvent Flag} {ballot : Ballot Flag} {unitId : Text}
    (passed : election.cast settings event = some (ballot, unitId)) :
    (election.session.zones.person ballot.person).rpVote = some ballot.rpVote ∧
      ∃ time, ∀ person, (((election.session.zones.atTime time).counted ballot).person
        person).KeepsVotes ((election.session.zonesAfter settings event).person person) := by
  cases event with
  | fortifyRP time world person unitId positionPlayer =>
      obtain ⟨other, isBallot, same⟩ := Option.map_eq_some_iff.mp passed
      cases same
      obtain ⟨-, hasVotes, hasList⟩ := State.ballot_reads settings _ _ isBallot
      refine ⟨hasVotes, time, fun person => ?_⟩
      rw [RallySession.zonesAfter, State.fortifyRP_eq, isBallot]
      dsimp only
      rw [counted.noList _ _ hasList, if_neg List.not_mem_nil]
      split
      · exact keepsVotes_fortified settings _ _ ballot person
      · exact .refl _
  | _ => cases passed

theorem required_of_moved {election : Election Flag} {event : RallyEvent Flag}
    {ballot : Ballot Flag} {unitId : Text}
    (passed : election.cast settings event = some (ballot, unitId))
    (moved : (election.session.zonesAfter settings event).zone ≠ election.session.zones.zone) :
    1 + ballot.rpVote = settings.rpVotesReq := by
  cases event with
  | fortifyRP time world person unitId positionPlayer =>
      obtain ⟨other, isBallot, same⟩ := Option.map_eq_some_iff.mp passed
      cases same
      rw [RallySession.zonesAfter, State.fortifyRP_eq, isBallot] at moved
      dsimp only at moved
      split at moved
      · exact absurd rfl moved
      · split at moved
        · assumption
        · exact absurd rfl moved
  | _ => cases passed

/-- A vote that is not counted leaves everything else to the operations without a vote. -/
theorem counted_step_other {before after : Election Flag} {event : RallyEvent Flag}
    (counted : before.Counted) (none : before.cast settings event = none)
    (stepped : before.step settings event = some after) : after.Counted := by
  cases stepped
  have timed (time : ℚ) (person : Person) :
      ((before.session.zones.atTime time).person person) = before.session.zones.person person :=
    rfl
  cases event with
  | remove person => exact counted.keep (fun person => .refl _) rfl
  | flags zone => exact counted.keep (fun person => .refl _) rfl
  | fortifyRP time world person unitId positionPlayer =>
      have noBallot := Option.map_eq_none_iff.mp none
      refine counted.keep (fun person => ?_) (by simp [votersAfter, none])
      simp only [RallySession.zonesAfter, State.fortifyRP_eq, noBallot]
      exact .refl _
  | destroyFlagZone time world flag destroyingSide =>
      exact counted.keep (fun person => keepsVotes_destroyFlagZone settings _ _ flag
        destroyingSide person) rfl
  | track time world =>
      exact counted.keep (fun person => State.sweepRP_votes
        (fun state entry => State.handled_trackRP settings _ state entry) _ person) rfl
  | deployRP time world person positionPlayer originalPos =>
      rcases State.deployRP_cases settings (before.session.answers world)
        (before.session.zones.atTime time) person positionPlayer originalPos with
        same | ⟨owner, side, rfl, -, raised⟩
      · refine counted.keep (fun person => ?_) ?_
        · simp only [RallySession.zonesAfter, same]
          exact .refl _
        · cases person with
          | none => rfl
          | some person =>
              simp only [votersAfter, RallySession.zonesAfter, same]
              exact if_pos rfl
      · have voters : before.votersAfter settings (.deployRP time world (some owner)
            positionPlayer originalPos) = Function.update before.voters owner [] := by
          simp only [votersAfter, RallySession.zonesAfter, raised]
          exact if_neg (by simp [State.raised, State.atTime])
        constructor
        · intro person votes some
          simp only [voters, RallySession.zonesAfter, raised, State.raised] at some ⊢
          by_cases same : person = owner
          · subst same
            simp only [State.setPerson, Function.update_self, Option.some.injEq] at some ⊢
            exact some.symm
          · simp only [State.setPerson, Function.update_of_ne same] at some ⊢
            exact counted.votes person votes some
        · intro person voteList some
          simp only [RallySession.zonesAfter, raised, State.raised] at some
          by_cases same : person = owner
          · subst same
            simp only [State.setPerson, Function.update_self, Option.some.injEq] at some
            exact some.symm
          · simp only [State.setPerson, Function.update_of_ne same] at some
            exact counted.noList person voteList some
        · intro person
          simp only [voters]
          by_cases same : person = owner
          · subst same
            simp
          · rw [Function.update_of_ne same]
            exact counted.nodup person

theorem counted_step_cast {before after : Election Flag} {event : RallyEvent Flag}
    (counted : before.Counted) {ballot : Ballot Flag} {unitId : Text}
    (passed : before.cast settings event = some (ballot, unitId))
    (fresh : unitId ∉ before.voters ballot.person)
    (stepped : before.step settings event = some after) : after.Counted := by
  cases stepped
  obtain ⟨hasVotes, time, keeps⟩ := zonesAfter_cast settings counted passed
  have number := counted.votes _ _ hasVotes
  have voters : before.votersAfter settings event = Function.update before.voters ballot.person
      (before.voters ballot.person ++ [unitId]) := by
    cases event with
    | fortifyRP => simp [votersAfter, passed]
    | _ => cases passed
  -- first the vote is written, then the rally points are looked at
  have written : Counted ⟨⟨(before.session.zones.atTime time).counted ballot,
      before.session.present⟩, before.votersAfter settings event⟩ := by
    rw [voters]
    constructor
    · intro person votes some
      by_cases same : person = ballot.person
      · subst same
        simp only [State.counted, State.setPerson, Function.update_self, Option.some.injEq,
          List.length_append, List.length_singleton] at some ⊢
        omega
      · simp only [State.counted, State.setPerson, Function.update_of_ne same] at some ⊢
        exact counted.votes person votes some
    · intro person voteList some
      by_cases same : person = ballot.person
      · subst same
        simp only [State.counted, State.setPerson, Function.update_self] at some
        exact counted.noList _ voteList some
      · simp only [State.counted, State.setPerson, Function.update_of_ne same] at some
        exact counted.noList person voteList some
    · intro person
      by_cases same : person = ballot.person
      · subst same
        simp only [Function.update_self]
        exact List.nodup_append.mpr ⟨counted.nodup _, List.nodup_singleton _, by
          intro voter member other isNew
          rw [List.mem_singleton.mp isNew]
          rintro rfl
          exact fresh member⟩
      · simp only [Function.update_of_ne same]
        exact counted.nodup person
  exact written.keep keeps rfl

theorem counted_step {before after : Election Flag} {event : RallyEvent Flag}
    (counted : before.Counted) (fresh : before.Fresh settings event)
    (stepped : before.step settings event = some after) : after.Counted := by
  cases passed : before.cast settings event with
  | none => exact counted_step_other settings counted passed stepped
  | some vote =>
      obtain ⟨ballot, unitId⟩ := vote
      exact counted_step_cast settings counted passed (fresh ballot unitId passed) stepped

theorem voters_cast {before after : Election Flag} {event : RallyEvent Flag}
    {ballot : Ballot Flag} {unitId : Text}
    (passed : before.cast settings event = some (ballot, unitId))
    (stepped : before.step settings event = some after) :
    after.voters ballot.person = before.voters ballot.person ++ [unitId] := by
  cases stepped
  cases event with
  | fortifyRP => simp [votersAfter, passed]
  | _ => cases passed

theorem fair_iff_fresh {before after : Election Flag} {event : RallyEvent Flag}
    (counted : before.Counted) (stepped : before.step settings event = some after) :
    before.Fair settings event after ↔ before.Fresh settings event := by
  constructor
  · intro fair ballot unitId passed voted
    have same := (fair.repeated ballot unitId passed voted).1
    obtain ⟨hasVotes, time, keeps⟩ := zonesAfter_cast settings counted passed
    have zones : after.session.zones = before.session.zonesAfter settings event := by
      cases stepped
      rfl
    rw [← zones, same] at keeps
    have raised : (((before.session.zones.atTime time).counted ballot).person
        ballot.person).rpVote = some (1 + ballot.rpVote) := by
      simp [State.counted, State.setPerson]
    rcases keeps ballot.person with kept | gone
    · rw [raised, hasVotes, Option.some.injEq] at kept
      omega
    · rw [hasVotes] at gone
      cases gone.1
  · intro fresh
    have countedAfter := counted_step settings counted fresh stepped
    constructor
    · intro person votes some
      rw [List.toFinset_card_of_nodup (countedAfter.nodup person)]
      exact countedAfter.votes person votes some
    · intro ballot unitId passed moved
      have zones : after.session.zones = before.session.zonesAfter settings event := by
        cases stepped
        rfl
      have last := required_of_moved settings passed (zones ▸ moved)
      rw [List.toFinset_card_of_nodup (countedAfter.nodup ballot.person),
        voters_cast settings passed stepped, List.length_append, List.length_singleton]
      have number := counted.votes _ _ (zonesAfter_cast settings counted passed).1
      omega
    · intro ballot unitId passed voted
      exact absurd voted (fresh ballot unitId passed)

end Election

/-- In every run, the votes are fair all along exactly when nobody votes twice for the same
rally point. -/
theorem votes_fair_iff [DecidableEq Flag] (settings : Settings Flag) (zone : Flag → FlagZone)
    (events : List (RallyEvent Flag)) :
    Along (Election.step settings)
        (fun before event after => before.Fair settings event after)
        (.start zone settings) events ↔
      Along (Election.step settings) (fun before event _ => before.Fresh settings event)
        (.start zone settings) events := by
  have keep : ∀ (before : Election Flag) (event : RallyEvent Flag) (after : Election Flag),
      before.Counted → before.Fresh settings event →
        before.step settings event = some after → after.Counted :=
    fun _ _ _ counted fresh stepped => Election.counted_step settings counted fresh stepped
  have fair : ∀ (before : Election Flag) (event : RallyEvent Flag) (after : Election Flag),
      before.Counted → before.step settings event = some after →
        (before.Fair settings event after ↔ before.Fresh settings event) :=
    fun _ _ _ counted stepped => Election.fair_iff_fresh settings counted stepped
  exact along_iff_of_invariant _ keep fair (Election.counted_start settings zone) events

/-- Three votes are required, and one player votes twice. -/
def votedTwice : List (RallyEvent Side) :=
  [.deployRP 130 (quiet (fun _ => true) ⟨0, 60, 0⟩) (some 1) ⟨0, 60, 0⟩ (altisBunker .west),
    .fortifyRP 131 (quiet (fun _ => true) ⟨0, 60, 0⟩) (some 1) "B1".toList ⟨0, 60, 0⟩,
    .fortifyRP 132 (quiet (fun _ => true) ⟨0, 60, 0⟩) (some 1) "B1".toList ⟨0, 60, 0⟩]

/-- Both votes count. -/
theorem one_voter_votes_twice :
    ¬∀ events, Along (Election.step { altis with rpVotesReq := 3 })
      (fun before event after => before.Fair { altis with rpVotesReq := 3 } event after)
      (.start readyFlags { altis with rpVotesReq := 3 }) events := by
  intro fair
  have second := (((fair votedTwice _ rfl).2 _ rfl).2 _ rfl).1
  have votes := second.counted 1 2 (by decide +kernel)
  exact absurd votes (by decide +kernel)

end OperationFrontLine.Zones
