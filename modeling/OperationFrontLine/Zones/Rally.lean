import OperationFrontLine.Zones.Invariant

/-!
# The list of rally points

A unit whose `OPFL_RP_TIME` is set may not deploy a rally point; an element of
`OPFL_RP_LIST` gives it back the right to.  The list is changed by an append and by loops
that mark their elements, the variables of a unit in two steps: first all but the time,
then the time together with the element.
-/

namespace OperationFrontLine.Zones

open OperationFrontLine.Library

variable {Flag : Type}

/-- The variables that are set together with `OPFL_RP_POS`. -/
structure PersonVariables.Complete (unit : PersonVariables) : Prop where
  time : unit.rpTime.isSome
  flagPos : unit.rpFlagPos.isSome
  side : unit.rpSide.isSome
  id : unit.rpId.isSome
  vote : unit.rpVote.isSome
  voteList : unit.rpVoteList.isSome

def occurrences (entries : List RallyEntry) (person : Person) : ℕ :=
  (entries.map RallyEntry.person).count person

@[simp]
theorem occurrences_nil (person : Person) : occurrences [] person = 0 := rfl

@[simp]
theorem occurrences_append (first second : List RallyEntry) (person : Person) :
    occurrences (first ++ second) person =
      occurrences first person + occurrences second person := by
  simp [occurrences]

@[simp]
theorem occurrences_cons (entry : RallyEntry) (entries : List RallyEntry) (person : Person) :
    occurrences (entry :: entries) person =
      occurrences entries person + if entry.person = person then 1 else 0 := by
  simp [occurrences, List.count_cons]

theorem occurrences_pos_iff {entries : List RallyEntry} {person : Person} :
    0 < occurrences entries person ↔ ∃ entry ∈ entries, entry.person = person := by
  rw [occurrences, List.count_pos_iff, List.mem_map]

structure State.Tracked (present : Person → Bool) (state : State Flag)
    (entries : List RallyEntry) : Prop where
  listed : ∀ person, present person = true →
    occurrences entries person = if (state.person person).rpTime.isSome then 1 else 0
  complete : ∀ person, present person = true →
    (state.person person).rpPos.isSome → (state.person person).Complete

/-- The vote and the list of votes are as before, or both are gone. -/
def PersonVariables.KeepsVotes (before after : PersonVariables) : Prop :=
  after.rpVote = before.rpVote ∧ after.rpVoteList = before.rpVoteList ∨
    after.rpVote = none ∧ after.rpVoteList = none

theorem PersonVariables.KeepsVotes.refl (unit : PersonVariables) : unit.KeepsVotes unit :=
  .inl ⟨rfl, rfl⟩

theorem PersonVariables.KeepsVotes.trans {before middle after : PersonVariables}
    (first : before.KeepsVotes middle) (second : middle.KeepsVotes after) :
    before.KeepsVotes after := by
  rcases second with same | gone
  · rw [KeepsVotes, same.1, same.2]
    exact first
  · exact .inr gone

structure State.Handled (present : Person → Bool) (before after : State Flag) (person : Person)
    (marked : Bool) : Prop where
  others : ∀ other, other ≠ person → after.person other = before.person other
  removed : present person = true → marked = true →
    (after.person person).rpTime = none ∧ (after.person person).rpPos = none
  kept : present person = true → marked = false →
    (after.person person).rpTime = (before.person person).rpTime ∧
      (after.person person = before.person person ∨ (after.person person).rpPos = none)
  votes : (before.person person).KeepsVotes (after.person person)

/-- What `FortifyRP` has read when it comes to counting the vote. -/
structure Ballot (Flag : Type) where
  person : Person
  flag : Flag
  rpFlagPos : Position
  rpPos : Position
  rpSide : Side
  rpVote : ℕ
  rpVoteList : List Text

namespace State

section Loops

variable {present : Person → Bool} {before after : State Flag}

theorem Handled.refl (state : State Flag) (person : Person) :
    state.Handled present state person false where
  others _ _ := rfl
  removed _ marked := by cases marked
  kept _ _ := ⟨rfl, .inl rfl⟩
  votes := .refl _

/-- One iteration, with the elements before it that stay and those behind it. -/
theorem Tracked.handle {kept rest : List RallyEntry} {entry : RallyEntry} {marked : Bool}
    (tracked : before.Tracked present (kept ++ entry :: rest))
    (handled : before.Handled present after entry.person marked) :
    after.Tracked present ((if marked then kept else kept ++ [entry]) ++ rest) := by
  constructor
  · intro person isPresent
    have count := tracked.listed person isPresent
    simp only [occurrences_append, occurrences_cons] at count
    by_cases same : entry.person = person
    · subst same
      cases marked with
      | true =>
          have none := (handled.removed isPresent rfl).1
          have few : (if (before.person entry.person).rpTime.isSome then 1 else 0) ≤ 1 := by
            split <;> omega
          simp only [if_true, occurrences_append, none, Option.isSome_none, Bool.false_eq_true,
            if_false] at count ⊢
          omega
      | false =>
          rw [(handled.kept isPresent rfl).1, ← count]
          simp only [Bool.false_eq_true, if_false, occurrences_append, occurrences_cons,
            occurrences_nil, if_true]
          omega
    · rw [handled.others person (Ne.symm same), ← count]
      cases marked <;> simp [same]
  · intro person isPresent hasRP
    by_cases same : person = entry.person
    · subst same
      cases marked with
      | true => simp [(handled.removed isPresent rfl).2] at hasRP
      | false =>
          rcases (handled.kept isPresent rfl).2 with unchanged | none
          · rw [unchanged] at hasRP ⊢
            exact tracked.complete _ isPresent hasRP
          · simp [none] at hasRP
    · rw [handled.others person same] at hasRP ⊢
      exact tracked.complete person isPresent hasRP

theorem Tracked.sweepRP {body : State Flag → RallyEntry → State Flag × Bool}
    (handles : ∀ (state : State Flag) entry,
      state.Handled present (body state entry).1 entry.person (body state entry).2)
    {state : State Flag} (tracked : state.Tracked present state.rpList) :
    (state.sweepRP body).Tracked present (state.sweepRP body).rpList := by
  have swept : ∀ (entries kept : List RallyEntry) (state : State Flag),
      state.Tracked present (kept ++ entries) →
        (entries.foldl (fun (sofar : State Flag × List RallyEntry) entry =>
          ((body sofar.1 entry).1,
            if (body sofar.1 entry).2 then sofar.2 else sofar.2 ++ [entry]))
          (state, kept)).1.Tracked present
          (entries.foldl (fun (sofar : State Flag × List RallyEntry) entry =>
            ((body sofar.1 entry).1,
              if (body sofar.1 entry).2 then sofar.2 else sofar.2 ++ [entry]))
            (state, kept)).2 := by
    intro entries
    induction entries with
    | nil =>
        intro kept state tracked
        simpa using tracked
    | cons entry rest inductionHypothesis =>
        intro kept state tracked
        exact inductionHypothesis _ _ (tracked.handle (handles state entry))
  have done := swept state.rpList [] state tracked
  exact ⟨done.listed, done.complete⟩

theorem sweepRP_votes {body : State Flag → RallyEntry → State Flag × Bool}
    (handles : ∀ (state : State Flag) entry,
      state.Handled present (body state entry).1 entry.person (body state entry).2)
    (state : State Flag) (person : Person) :
    (state.person person).KeepsVotes ((state.sweepRP body).person person) := by
  have swept : ∀ (entries : List RallyEntry) (sofar : State Flag × List RallyEntry),
      (state.person person).KeepsVotes (sofar.1.person person) →
        (state.person person).KeepsVotes ((entries.foldl
          (fun (sofar : State Flag × List RallyEntry) entry =>
            ((body sofar.1 entry).1,
              if (body sofar.1 entry).2 then sofar.2 else sofar.2 ++ [entry]))
            sofar).1.person person) := by
    intro entries
    induction entries with
    | nil => exact fun sofar keeps => keeps
    | cons entry rest inductionHypothesis =>
        intro sofar keeps
        apply inductionHypothesis
        by_cases same : person = entry.person
        · subst same
          exact keeps.trans (handles sofar.1 entry).votes
        · rw [(handles sofar.1 entry).others person same]
          exact keeps
  exact swept state.rpList (state, []) (.refl _)

end Loops

structure SameRally (before after : State Flag) : Prop where
  person : after.person = before.person
  rpList : after.rpList = before.rpList

theorem SameRally.tracked {before after : State Flag} {present : Person → Bool}
    (same : before.SameRally after) (tracked : before.Tracked present before.rpList) :
    after.Tracked present after.rpList := by
  rw [same.rpList]
  exact ⟨fun person isPresent => by rw [same.person]; exact tracked.listed person isPresent,
    fun person isPresent => by rw [same.person]; exact tracked.complete person isPresent⟩

section Units

variable (settings : Settings Flag) (world : World) (state : State Flag)

theorem handled_disableRP (person : Person) :
    state.Handled world.present (state.disableRP world person) person false := by
  constructor
  · intro other different
    unfold disableRP
    split
    · rfl
    · exact Function.update_of_ne different _ _
  · intro _ marked
    cases marked
  · intro isPresent _
    simp [disableRP, setPerson, isPresent]
  · unfold disableRP
    split
    · exact .refl _
    · exact .inr (by simp [setPerson])

theorem handled_clearRPTime {before : State Flag} {person : Person} {marked : Bool}
    (handled : before.Handled world.present state person marked)
    (noRP : world.present person = true → (state.person person).rpPos = none) :
    before.Handled world.present (state.clearRPTime person) person true := by
  constructor
  · intro other different
    rw [← handled.others other different]
    exact Function.update_of_ne different _ _
  · intro isPresent _
    simp [clearRPTime, setPerson, noRP isPresent]
  · intro _ marked
    cases marked
  · refine handled.votes.trans (.inl ?_)
    simp [clearRPTime, setPerson]

theorem disableRP_rpPos {person : Person} (isPresent : world.present person = true) :
    ((state.disableRP world person).person person).rpPos = none := by
  simp [disableRP, setPerson, isPresent]

theorem rpPos_of_not_hasRP {person : Person} (isPresent : world.present person = true)
    (noRP : state.hasRP world person = false) : (state.person person).rpPos = none := by
  simpa [hasRP, isPresent] using noRP

theorem sameRally_detectRoundWin (flag : Flag) :
    state.SameRally (state.detectRoundWin settings flag) := by
  unfold detectRoundWin
  split
  · exact ⟨rfl, rfl⟩
  · split <;> exact ⟨rfl, rfl⟩

theorem handled_deleteRP (entry : RallyEntry) :
    state.Handled world.present (state.deleteRP settings world entry).1 entry.person
      (state.deleteRP settings world entry).2 := by
  have disabled := handled_disableRP world state entry.person
  dsimp only [deleteRP]
  split
  · exact handled_clearRPTime world _ disabled (disableRP_rpPos world state)
  · exact disabled

theorem handled_leaveRP (person : Person) :
    state.Handled world.present (state.leaveRP settings world person) person false := by
  unfold leaveRP
  split
  · exact handled_disableRP world state person
  · exact .refl state person

theorem Tracked.setPerson {present : Person → Bool} {person : Person}
    {change : PersonVariables → PersonVariables}
    (tracked : state.Tracked present state.rpList)
    (sameTime : (change (state.person person)).rpTime = (state.person person).rpTime)
    (complete : (state.person person).Complete → (change (state.person person)).Complete)
    (samePos : (change (state.person person)).rpPos = (state.person person).rpPos) :
    (state.setPerson person change).Tracked present (state.setPerson person change).rpList := by
  constructor
  · intro other isPresent
    by_cases same : other = person
    · subst same
      simpa [State.setPerson, sameTime] using tracked.listed other isPresent
    · simpa [State.setPerson, same] using tracked.listed other isPresent
  · intro other isPresent hasRP
    by_cases same : other = person
    · subst same
      simp only [State.setPerson, Function.update_self, samePos] at hasRP ⊢
      exact complete (tracked.complete other isPresent hasRP)
    · simp only [State.setPerson, Function.update_of_ne same] at hasRP ⊢
      exact tracked.complete other isPresent hasRP

end Units

section Bodies

variable (settings : Settings Flag) (world : World) (state : State Flag)

theorem handled_deleteFriendlyRP (flag : Flag) (entry : RallyEntry) :
    state.Handled world.present (deleteFriendlyRP settings world flag state entry).1 entry.person
      (deleteFriendlyRP settings world flag state entry).2 := by
  unfold deleteFriendlyRP
  split
  · exact handled_deleteRP settings world state entry
  · exact .refl state entry.person

theorem handled_recheckRP (flag : Flag) (enemyFlag : Option Flag) (entry : RallyEntry) :
    state.Handled world.present (recheckRP settings world flag enemyFlag state entry).1
      entry.person (recheckRP settings world flag enemyFlag state entry).2 := by
  have same : state.Handled world.present state entry.person false := .refl state entry.person
  have deleted := handled_deleteRP settings world state entry
  unfold recheckRP
  split
  · exact same
  · split
    · exact deleted
    · split
      · split
        · exact deleted
        · exact same
      · exact same

theorem handled_trackRP (entry : RallyEntry) :
    state.Handled world.present (trackRP settings world state entry).1 entry.person
      (trackRP settings world state entry).2 := by
  unfold trackRP
  dsimp only
  split
  case isTrue isNull =>
    have absent : world.present entry.person = false := by simpa using isNull
    exact ⟨fun _ _ => rfl, fun isPresent _ => absurd (absent.symm.trans isPresent) (by simp),
      fun _ marked => (by cases marked), .refl _⟩
  case isFalse isObject =>
    have isPresent : world.present entry.person = true := by simpa using isObject
    split
    · split
      · exact handled_clearRPTime world _ (handled_disableRP world state entry.person)
          (disableRP_rpPos world state)
      · rename_i noRP
        refine handled_clearRPTime world _ (.refl state entry.person) fun _ => ?_
        exact rpPos_of_not_hasRP world state isPresent (by simpa using noRP)
    · have left := handled_leaveRP settings world state entry.person
      split
      · rename_i unlocked
        refine handled_clearRPTime world _ left fun _ => ?_
        rw [Bool.and_eq_true, Bool.not_eq_true'] at unlocked
        exact rpPos_of_not_hasRP world _ isPresent unlocked.1
      · exact left

end Bodies

section Deployed

variable (settings : Settings Flag) (world : World) (state : State Flag)

def raised (person : Person) (side : Side) (id : Text) (positionPlayer originalPos : Position) :
    State Flag :=
  { state.setPerson person fun unit =>
      { unit with
        rpPos := some positionPlayer
        rpFlagPos := some originalPos
        rpSide := some side
        rpId := some id
        rpTime := some state.now
        rpVote := some 0
        rpVoteList := some [] } with
    rpList := state.rpList ++ [⟨person, id, side⟩] }

theorem deployRP_cases (person : Option Person) (positionPlayer originalPos : Position) :
    state.deployRP settings world person positionPlayer originalPos = state ∨
      ∃ owner side, person = some owner ∧ (state.person owner).rpTime = none ∧
        state.deployRP settings world person positionPlayer originalPos =
          state.raised owner side (world.uidToId (world.playerUid owner)) positionPlayer
            originalPos := by
  unfold deployRP
  cases person with
  | none => exact .inl rfl
  | some person =>
      dsimp only
      split
      · exact .inl rfl
      · split
        · rename_i side flag _ _
          cases noTime : (state.person person).rpTime with
          | some time => exact .inl (by simp)
          | none =>
              generalize (if (state.zone flag).destroyed = true then settings.destroyedRadius
                else settings.redeployRadius) = redRad
              split
              · exact .inl rfl
              · exact .inr ⟨person, side, rfl, noTime, rfl⟩
        · exact .inl rfl

theorem Tracked.deployRP (person : Option Person) (positionPlayer originalPos : Position)
    (tracked : state.Tracked world.present state.rpList) :
    (state.deployRP settings world person positionPlayer originalPos).Tracked world.present
      (state.deployRP settings world person positionPlayer originalPos).rpList := by
  rcases deployRP_cases settings world state person positionPlayer originalPos with
    same | ⟨owner, side, -, noTime, deployed⟩
  · rw [same]
    exact tracked
  · rw [deployed]
    constructor
    · intro other isPresent
      have count := tracked.listed other isPresent
      by_cases same : other = owner
      · subst same
        simp only [noTime, Option.isSome_none, Bool.false_eq_true, if_false] at count
        simp [raised, State.setPerson, count]
      · simp [raised, State.setPerson, same, Ne.symm same, count]
    · intro other isPresent hasRP
      by_cases same : other = owner
      · subst same
        simp only [raised, State.setPerson, Function.update_self]
        exact ⟨rfl, rfl, rfl, rfl, rfl, rfl⟩
      · simp only [raised, State.setPerson, Function.update_of_ne same] at hasRP ⊢
        exact tracked.complete other isPresent hasRP

theorem Tracked.trackRP (tracked : state.Tracked world.present state.rpList) :
    (state.sweepRP (State.trackRP settings world)).Tracked world.present
      (state.sweepRP (State.trackRP settings world)).rpList :=
  Tracked.sweepRP (fun state entry => handled_trackRP settings world state entry) tracked

end Deployed

variable [DecidableEq Flag]

section Flags

variable (settings : Settings Flag) (world : World) (state : State Flag) (flag : Flag)

theorem sameRally_reDeployFlagZone (originalPos positionPlayer currentPlayerPos : Position)
    (isQueue : Bool) : state.SameRally
      (state.reDeployFlagZone settings flag originalPos positionPlayer currentPlayerPos
        isQueue) := by
  unfold reDeployFlagZone
  split
  · exact ⟨rfl, rfl⟩
  · split
    · exact ⟨rfl, rfl⟩
    · have detected (middle : State Flag) := sameRally_detectRoundWin settings middle flag
      exact ⟨(detected _).person, (detected _).rpList⟩

theorem Tracked.destroyFlagZone (destroyingSide : Side)
    (tracked : state.Tracked world.present state.rpList) :
    (state.destroyFlagZone settings world flag destroyingSide).Tracked world.present
      (state.destroyFlagZone settings world flag destroyingSide).rpList := by
  unfold State.destroyFlagZone
  split
  · exact tracked
  · have same : state.SameRally (((state.wreck settings world flag).setBack settings
        flag).updateVisualState settings flag) := ⟨rfl, rfl⟩
    apply Tracked.sweepRP
    · exact fun state entry => handled_deleteFriendlyRP settings world state flag entry
    · exact same.tracked tracked

end Flags

section Votes

variable (settings : Settings Flag) (world : World) (state : State Flag)

/-- The checks of `FortifyRP`, but for the one of the list of votes. -/
def ballot (person : Option Person) (unitId : Text) (positionPlayer : Position) :
    Option (Ballot Flag) :=
  match person with
  | none => none
  | some person =>
      if !world.isAlive (some person) || world.idToUid unitId = [] then none
      else
        match state.person person with
        | { rpPos := some rpPos, rpFlagPos := some rpFlagPos, rpSide := some rpSide,
            rpId := some rpId, rpVote := some rpVote, rpVoteList := some rpVoteList, .. } =>
            if Identity.fold unitId = Identity.fold rpId then none
            else
              match lastFlag settings fun flag => settings.side flag = rpSide with
              | none => none
              | some flag =>
                  if state.isPinned settings flag && positionPlayer ≠ rpPos then none
                  else some ⟨person, flag, rpFlagPos, rpPos, rpSide, rpVote, rpVoteList⟩
        | _ => none

omit [DecidableEq Flag] in
theorem ballot_reads {person : Option Person} {unitId : Text} {positionPlayer : Position}
    {cast : Ballot Flag}
    (passed : state.ballot settings world person unitId positionPlayer = some cast) :
    person = some cast.person ∧ (state.person cast.person).rpVote = some cast.rpVote ∧
      (state.person cast.person).rpVoteList = some cast.rpVoteList := by
  unfold ballot at passed
  cases person with
  | none => cases passed
  | some person =>
      dsimp only at passed
      split at passed
      · cases passed
      · split at passed
        · rename_i unit
          split at passed
          · cases passed
          · split at passed
            · cases passed
            · split at passed
              · cases passed
              · cases passed
                exact ⟨rfl, by rw [unit], by rw [unit]⟩
        · cases passed

def counted (cast : Ballot Flag) : State Flag :=
  state.setPerson cast.person fun unit => { unit with rpVote := some (1 + cast.rpVote) }

/-- The flag is moved to the rally point, and every rally point is looked at again. -/
def fortified (cast : Ballot Flag) : State Flag :=
  ((state.counted cast).reDeployFlagZone settings cast.flag cast.rpFlagPos cast.rpPos ⟨0, 0, 0⟩
    true).sweepRP (recheckRP settings world cast.flag
      (lastFlag settings fun flag => settings.side flag ≠ cast.rpSide))

theorem fortifyRP_eq (person : Option Person) (unitId : Text) (positionPlayer : Position) :
    state.fortifyRP settings world person unitId positionPlayer =
      match state.ballot settings world person unitId positionPlayer with
      | none => state
      | some cast =>
          if unitId ∈ cast.rpVoteList then state
          else if 1 + cast.rpVote = settings.rpVotesReq then state.fortified settings world cast
          else state.counted cast := by
  unfold fortifyRP ballot
  cases person with
  | none => rfl
  | some person =>
      dsimp only
      by_cases refused : (!world.isAlive (some person) || world.idToUid unitId = []) = true
      · rw [if_pos refused, if_pos refused]
      · rw [if_neg refused, if_neg refused]
        rcases state.person person with
          ⟨deleteLock, _ | rpPos, _ | rpFlagPos, _ | rpSide, _ | rpId, rpTime, _ | rpVote,
            _ | rpVoteList⟩
        all_goals try rfl
        dsimp only
        by_cases owner : Identity.fold unitId = Identity.fold rpId
        · rw [if_pos (.inr owner), if_pos owner]
        · rw [if_neg owner]
          cases found : lastFlag settings fun flag => settings.side flag = rpSide with
          | none => simp
          | some flag =>
              dsimp only
              by_cases pinned : (state.isPinned settings flag && positionPlayer ≠ rpPos) = true
              · simp only [pinned, if_true, ite_self]
              · simp only [pinned, or_false, owner]
                rfl

end Votes

section Operations

variable (settings : Settings Flag) (world : World) (state : State Flag)

theorem Tracked.fortifyRP (person : Option Person) (unitId : Text) (positionPlayer : Position)
    (tracked : state.Tracked world.present state.rpList) :
    (state.fortifyRP settings world person unitId positionPlayer).Tracked world.present
      (state.fortifyRP settings world person unitId positionPlayer).rpList := by
  rw [fortifyRP_eq]
  cases state.ballot settings world person unitId positionPlayer with
  | none => exact tracked
  | some cast =>
      dsimp only
      have counted : (state.counted cast).Tracked world.present (state.counted cast).rpList := by
        refine Tracked.setPerson state tracked rfl (fun complete => ?_) rfl
        exact ⟨complete.time, complete.flagPos, complete.side, complete.id, rfl, complete.voteList⟩
      split
      · exact tracked
      · split
        · apply Tracked.sweepRP
          · exact fun state entry => handled_recheckRP settings world state _ _ entry
          · exact (sameRally_reDeployFlagZone settings _ _ _ _ _ true).tracked counted
        · exact counted

end Operations

end State

/-- The zone system as the rally points see it, with the units that have not been deleted. -/
structure RallySession (Flag : Type) where
  zones : State Flag
  present : Person → Bool

/-- An operation, with the time and what the engine answers meanwhile. -/
inductive RallyEvent (Flag : Type) where
  /-- a unit is deleted -/
  | remove (person : Person)
  /-- the other operations of the zone system -/
  | flags (zone : Flag → FlagZone)
  | deployRP (time : ℚ) (world : World) (person : Option Person)
      (positionPlayer originalPos : Position)
  | fortifyRP (time : ℚ) (world : World) (person : Option Person) (unitId : Text)
      (positionPlayer : Position)
  | destroyFlagZone (time : ℚ) (world : World) (flag : Flag) (destroyingSide : Side)
  /-- the loop over `OPFL_RP_LIST` in a frame -/
  | track (time : ℚ) (world : World)

namespace RallySession

def start (zone : Flag → FlagZone) (settings : Settings Flag) : RallySession Flag where
  zones := { State.start settings false 0 fun _ => ⟨0, 0, 0⟩ with zone := zone }
  present _ := true

/-- The answers of the engine, in which a deleted unit stays deleted. -/
def answers (session : RallySession Flag) (world : World) : World :=
  { world with present := session.present }

def Tracked (session : RallySession Flag) : Prop :=
  session.zones.Tracked session.present session.zones.rpList

theorem tracked_start (settings : Settings Flag) (zone : Flag → FlagZone) :
    (start zone settings).Tracked where
  listed _ _ := rfl
  complete _ _ hasRP := by cases hasRP

variable [DecidableEq Flag] (settings : Settings Flag)

def zonesAfter (session : RallySession Flag) : RallyEvent Flag → State Flag
  | .remove _ => session.zones
  | .flags zone => { session.zones with zone := zone }
  | .deployRP time world person positionPlayer originalPos =>
      (session.zones.atTime time).deployRP settings (session.answers world) person positionPlayer
        originalPos
  | .fortifyRP time world person unitId positionPlayer =>
      (session.zones.atTime time).fortifyRP settings (session.answers world) person unitId
        positionPlayer
  | .destroyFlagZone time world flag destroyingSide =>
      (session.zones.atTime time).destroyFlagZone settings (session.answers world) flag
        destroyingSide
  | .track time world =>
      (session.zones.atTime time).sweepRP (State.trackRP settings (session.answers world))

def presentAfter (session : RallySession Flag) : RallyEvent Flag → Person → Bool
  | .remove person => Function.update session.present person false
  | _ => session.present

def step (session : RallySession Flag) (event : RallyEvent Flag) : Option (RallySession Flag) :=
  some ⟨session.zonesAfter settings event, session.presentAfter event⟩

theorem tracked_step {session after : RallySession Flag} {event : RallyEvent Flag}
    (tracked : session.Tracked) (stepped : step settings session event = some after) :
    after.Tracked := by
  cases stepped
  have timed (time : ℚ) : (session.zones.atTime time).Tracked session.present
      (session.zones.atTime time).rpList := ⟨tracked.listed, tracked.complete⟩
  cases event with
  | remove person =>
      have still (other : Person)
          (isPresent : Function.update session.present person false other = true) :
          session.present other = true := by
        by_cases same : other = person
        · subst same
          simp at isPresent
        · rwa [Function.update_of_ne same] at isPresent
      exact ⟨fun other isPresent => tracked.listed other (still other isPresent),
        fun other isPresent => tracked.complete other (still other isPresent)⟩
  | flags zone => exact ⟨tracked.listed, tracked.complete⟩
  | deployRP time world person positionPlayer originalPos =>
      exact State.Tracked.deployRP settings (session.answers world) _ person positionPlayer
        originalPos (timed time)
  | fortifyRP time world person unitId positionPlayer =>
      exact State.Tracked.fortifyRP settings (session.answers world) _ person unitId
        positionPlayer (timed time)
  | destroyFlagZone time world flag destroyingSide =>
      exact State.Tracked.destroyFlagZone settings (session.answers world) _ flag destroyingSide
        (timed time)
  | track time world =>
      exact State.Tracked.trackRP settings (session.answers world) _ (timed time)

end RallySession

/-- After any operations, the units of the list are those whose time is set, each of them
once, and a rally point comes with all its variables. -/
theorem rally_points_tracked [DecidableEq Flag] (settings : Settings Flag)
    (zone : Flag → FlagZone) {events : List (RallyEvent Flag)} {session : RallySession Flag}
    (ran : run (RallySession.step settings) (.start zone settings) events = some session)
    {person : Person} (isPresent : session.present person = true) :
    (session.zones.rpList.map RallyEntry.person).count person ≤ 1 ∧
      (person ∈ session.zones.rpList.map RallyEntry.person ↔
        (session.zones.person person).rpTime.isSome) ∧
      ((session.zones.person person).rpPos.isSome →
        person ∈ session.zones.rpList.map RallyEntry.person ∧
          (session.zones.person person).Complete) := by
  have tracked : session.Tracked := run_invariant _
    (fun _ _ _ tracked stepped => RallySession.tracked_step settings tracked stepped)
    (RallySession.tracked_start settings zone) ran
  have count := tracked.listed person isPresent
  have listed : person ∈ session.zones.rpList.map RallyEntry.person ↔
      (session.zones.person person).rpTime.isSome := by
    rw [← List.count_pos_iff]
    change 0 < occurrences session.zones.rpList person ↔ _
    rw [count]
    split <;> simp_all
  refine ⟨?_, listed, fun hasRP => ?_⟩
  · change occurrences session.zones.rpList person ≤ 1
    rw [count]
    split <;> omega
  · have complete := tracked.complete person isPresent hasRP
    exact ⟨listed.mpr complete.time, complete⟩

/-- The flags of `altis` two minutes after the start. -/
def readyFlags (side : Side) : FlagZone :=
  { createFlagZone altis 0 (altisBunker side) with ready := true }

/-- A player deploys a rally point and walks away from it; half a minute later he may deploy
the next one, and another unit is deleted. -/
def rallyRound : List (RallyEvent Side) :=
  [.deployRP 130 (quiet (fun _ => true) ⟨0, 60, 0⟩) (some 1) ⟨0, 60, 0⟩ (altisBunker .west),
    .track 140 { quiet (fun _ => true) ⟨0, 60, 0⟩ with distanceTo := fun _ _ => 20 },
    .remove 2,
    .track 161 (quiet (fun _ => true) ⟨0, 60, 0⟩),
    .deployRP 162 (quiet (fun _ => true) ⟨0, 60, 0⟩) (some 1) ⟨0, 60, 0⟩ (altisBunker .west)]

theorem rallyRound_ran :
    (run (RallySession.step altis) (.start readyFlags altis) rallyRound).isSome := rfl

/-- The second rally point is in the list, with all its variables. -/
theorem rally_points_tracked_round :
    let session := (run (RallySession.step altis) (.start readyFlags altis) rallyRound).get
      rallyRound_ran
    ((session.zones.person 1).rpTime.isSome ∧ (session.zones.person 1).rpPos.isSome) ∧
      (session.zones.rpList.map RallyEntry.person).count 1 ≤ 1 ∧
      (session.zones.person 1).Complete := by
  intro session
  have set : (session.zones.person 1).rpTime.isSome ∧ (session.zones.person 1).rpPos.isSome := by
    decide +kernel
  have isPresent : session.present 1 = true := by decide +kernel
  have tracked := rally_points_tracked altis readyFlags (Option.some_get rallyRound_ran).symm
    isPresent
  exact ⟨set, tracked.1, (tracked.2.2 set.2).2⟩

end OperationFrontLine.Zones
