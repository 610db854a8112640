import OperationFrontLine.Library.Mirror
import OperationFrontLine.Zones.Synchronise

/-!
# What the server tells about rally points

`DeployRP`, `FortifyRP`, `DestroyFlagZone` and the loop of the per-frame event broadcast what
they do to a rally point.  A unit that dies loses it without a word, and the vote by which the
flag is moved is not told either: for a unit that lives the broadcasts are nevertheless all
that happens to its rally point.
-/

namespace OperationFrontLine.Zones

open OperationFrontLine.Library

variable {Flag : Type}

inductive RallyChange where
  /-- `OPFL_CreateRP` -/
  | createRP (person : Person) (position : Position)
  /-- `OPFL_UpdateRP` -/
  | updateRP (person : Person) (vote : ℕ)
  /-- `OPFL_DeleteRP` -/
  | deleteRP (person : Person)
  deriving DecidableEq, Repr

/-- A rally point, as far as it is told: its votes and its place. -/
structure RallyMark where
  vote : ℚ
  position : List ℚ
  deriving DecidableEq, Repr

def Position.coordinates (position : Position) : List ℚ :=
  [position.x, position.y, position.z]

/-- What a message says about the rally points of a unit. -/
def RallyChange.on (person : Person) (marks : List RallyMark) : RallyChange → List RallyMark
  | createRP owner position =>
      if owner = person then marks ++ [⟨0, position.coordinates⟩] else marks
  | updateRP owner vote =>
      if owner = person then marks.modifyHead fun mark => { mark with vote := vote } else marks
  | deleteRP owner => if owner = person then [] else marks

namespace State

def marks (state : State Flag) (person : Person) : List RallyMark :=
  match (state.person person).rpPos, (state.person person).rpVote with
  | some position, some vote => [⟨vote, position.coordinates⟩]
  | _, _ => []

section Loops

variable (body : State Flag → RallyEntry → State Flag × Bool)
  (tells : State Flag → RallyEntry → List RallyChange)

/-- What the iterations of a loop over some elements tell. -/
def tellEach (state : State Flag) : List RallyEntry → List RallyChange
  | [] => []
  | entry :: rest => tells state entry ++ tellEach (body state entry).1 rest

def sweepTells (state : State Flag) : List RallyChange :=
  state.tellEach body tells state.rpList

end Loops

section Tells

variable (settings : Settings Flag) (world : World)

def deleteFriendlyTells (flag : Flag) (state : State Flag) (entry : RallyEntry) :
    List RallyChange :=
  if state.hasRP world entry.person && settings.side flag = entry.side then
    [.deleteRP entry.person]
  else []

def recheckTells (flag : Flag) (enemyFlag : Option Flag) (state : State Flag)
    (entry : RallyEntry) : List RallyChange :=
  if !state.hasRP world entry.person then []
  else if settings.side flag = entry.side then [.deleteRP entry.person]
  else
    match enemyFlag, (state.person entry.person).rpPos with
    | some enemyFlag, some position =>
        if !(state.zone enemyFlag).planted ||
            (state.overLine settings enemyFlag position ||
              settings.redeployRadius <
                settings.distance position (settings.placed (state.zone enemyFlag).place)) ||
            !(state.zone enemyFlag).ready then
          [.deleteRP entry.person]
        else []
    | _, _ => []

/-- The message of the per-frame loop: nothing is said when a unit has died. -/
def trackTells (state : State Flag) (entry : RallyEntry) : List RallyChange :=
  if world.isAlive (some entry.person) &&
      (state.person entry.person).rpPos.any fun rpPos =>
        settings.rpDistance < world.distanceTo entry.person rpPos then
    [.deleteRP entry.person]
  else []

/-- `DeployRP` appends an element and broadcasts the position one after the other. -/
def deployTells (state : State Flag) (person : Option Person)
    (positionPlayer originalPos : Position) : List RallyChange :=
  match person with
  | none => []
  | some owner =>
      if state.rpList.length <
          (state.deployRP settings world person positionPlayer originalPos).rpList.length then
        [.createRP owner positionPlayer]
      else []

variable [DecidableEq Flag]

/-- The state in which `FortifyRP` comes to its loop. -/
def refounded (state : State Flag) (cast : Ballot Flag) : State Flag :=
  (state.counted cast).reDeployFlagZone settings cast.flag cast.rpFlagPos cast.rpPos ⟨0, 0, 0⟩
    true

/-- `FortifyRP`: the votes, unless they are enough. -/
def fortifyTells (state : State Flag) (person : Option Person) (unitId : Text)
    (positionPlayer : Position) : List RallyChange :=
  match state.ballot settings world person unitId positionPlayer with
  | none => []
  | some cast =>
      if unitId ∈ cast.rpVoteList then []
      else if 1 + cast.rpVote = settings.rpVotesReq then
        (refounded settings state cast).sweepTells
          (recheckRP settings world cast.flag
            (lastFlag settings fun flag => settings.side flag ≠ cast.rpSide))
          (recheckTells settings world cast.flag
            (lastFlag settings fun flag => settings.side flag ≠ cast.rpSide))
      else [.updateRP cast.person (1 + cast.rpVote)]

def destroyTells (state : State Flag) (flag : Flag) : List RallyChange :=
  if 0 < (state.zone flag).captured ∧ 0 < (state.zone flag).support then []
  else
    (((state.wreck settings world flag).setBack settings flag).updateVisualState settings
      flag).sweepTells (deleteFriendlyRP settings world flag)
        (deleteFriendlyTells settings world flag)

end Tells

end State

/-- What an operation tells the clients about rally points. -/
def RallySession.tells [DecidableEq Flag] (settings : Settings Flag)
    (session : RallySession Flag) : RallyEvent Flag → List RallyChange
  | .remove _ => []
  | .flags _ => []
  | .deployRP time world person positionPlayer originalPos =>
      (session.zones.atTime time).deployTells settings (session.answers world) person
        positionPlayer originalPos
  | .fortifyRP time world person unitId positionPlayer =>
      (session.zones.atTime time).fortifyTells settings (session.answers world) person unitId
        positionPlayer
  | .destroyFlagZone time world flag _ =>
      (session.zones.atTime time).destroyTells settings (session.answers world) flag
  | .track time world =>
      (session.zones.atTime time).sweepTells (State.trackRP settings (session.answers world))
        (State.trackTells settings (session.answers world))

/-! ## The broadcasts say what happens -/

/-- What some messages say about the rally points of a unit. -/
def heardOf (person : Person) (marks : List RallyMark) (changes : List RallyChange) :
    List RallyMark :=
  changes.foldl (RallyChange.on person) marks

theorem heardOf_append (person : Person) (marks : List RallyMark)
    (first second : List RallyChange) :
    heardOf person marks (first ++ second) = heardOf person (heardOf person marks first) second :=
  List.foldl_append

/-- Messages that only delete leave no rally point of a unit that they name. -/
theorem heardOf_deletes {person : Person} {changes : List RallyChange}
    (deletes : ∀ change ∈ changes, ∃ owner, change = .deleteRP owner)
    (named : .deleteRP person ∈ changes) (marks : List RallyMark) :
    heardOf person marks changes = [] := by
  have gone : ∀ changes : List RallyChange,
      (∀ change ∈ changes, ∃ owner, change = .deleteRP owner) →
        heardOf person [] changes = [] := by
    intro changes deletes
    induction changes with
    | nil => rfl
    | cons change changes inductionHypothesis =>
        obtain ⟨owner, rfl⟩ := deletes change (by simp)
        have same : RallyChange.on person [] (.deleteRP owner) = [] := by
          simp [RallyChange.on]
        rw [heardOf, List.foldl_cons, same]
        exact inductionHypothesis fun other member => deletes other (by simp [member])
  induction changes generalizing marks with
  | nil => cases named
  | cons change changes inductionHypothesis =>
      have rest := fun other member => deletes other (List.mem_cons_of_mem change member)
      rw [heardOf, List.foldl_cons]
      rcases List.mem_cons.mp named with rfl | later
      · have nothing : RallyChange.on person marks (.deleteRP person) = [] := by
          simp [RallyChange.on]
        rw [nothing]
        exact gone changes rest
      · exact inductionHypothesis rest later _

namespace State

/-- The messages say what has become of the rally points of the living. -/
def Told (world : World) (before after : State Flag) (changes : List RallyChange) : Prop :=
  ∀ person, world.present person = true → world.alive person = true →
    after.marks person = heardOf person (before.marks person) changes

theorem Told.refl (world : World) (state : State Flag) : state.Told world state [] :=
  fun _ _ _ => rfl

theorem Told.trans {world : World} {before middle after : State Flag}
    {first second : List RallyChange} (one : before.Told world middle first)
    (two : middle.Told world after second) : before.Told world after (first ++ second) := by
  intro person isPresent isAlive
  rw [two person isPresent isAlive, one person isPresent isAlive, heardOf_append]

theorem marks_congr {before after : State Flag} {person : Person}
    (same : after.person person = before.person person) :
    after.marks person = before.marks person := by
  rw [marks, marks, same]

theorem marks_of_rpPos_none {state : State Flag} {person : Person}
    (none : (state.person person).rpPos = none) : state.marks person = [] := by
  rw [marks, none]

section Sweeps

variable {body : State Flag → RallyEntry → State Flag × Bool}
  {tells : State Flag → RallyEntry → List RallyChange}

/-- The variables of the units behind a loop over some elements. -/
def passed (body : State Flag → RallyEntry → State Flag × Bool) (state : State Flag)
    (entries : List RallyEntry) : State Flag :=
  entries.foldl (fun sofar entry => (body sofar entry).1) state

/-- A loop leaves the variables as its iterations leave them, and only takes elements away. -/
theorem sweepRP_person (state : State Flag) :
    (state.sweepRP body).person = (passed body state state.rpList).person ∧
      (state.sweepRP body).rpList.Sublist state.rpList := by
  have swept : ∀ (entries kept : List RallyEntry) (state : State Flag),
      let looped := entries.foldl (fun (sofar : State Flag × List RallyEntry) entry =>
        ((body sofar.1 entry).1,
          if (body sofar.1 entry).2 then sofar.2 else sofar.2 ++ [entry])) (state, kept)
      looped.1 = passed body state entries ∧ looped.2.Sublist (kept ++ entries) := by
    intro entries
    induction entries with
    | nil => exact fun kept state => ⟨rfl, by simp⟩
    | cons entry rest inductionHypothesis =>
        intro kept state
        have later := inductionHypothesis
          (if (body state entry).2 then kept else kept ++ [entry]) (body state entry).1
        refine ⟨later.1, later.2.trans ?_⟩
        split
        · exact List.Sublist.append_left (List.sublist_cons_self entry rest) kept
        · rw [List.append_assoc, List.singleton_append]
  have done := swept state.rpList [] state
  refine ⟨?_, done.2⟩
  rw [← done.1]
  rfl

theorem told_passed {world : World}
    (told : ∀ (state : State Flag) entry, state.Told world (body state entry).1
      (tells state entry)) (state : State Flag) (entries : List RallyEntry) :
    state.Told world (passed body state entries) (tellEach body tells state entries) := by
  induction entries generalizing state with
  | nil => exact .refl world state
  | cons entry rest inductionHypothesis =>
      exact (told state entry).trans (inductionHypothesis (body state entry).1)

theorem told_sweepRP {world : World}
    (told : ∀ (state : State Flag) entry, state.Told world (body state entry).1
      (tells state entry)) (state : State Flag) :
    state.Told world (state.sweepRP body) (state.sweepTells body tells) := by
  intro person isPresent isAlive
  rw [marks_congr (congrFun (sweepRP_person state).1 person)]
  exact told_passed told state state.rpList person isPresent isAlive

end Sweeps

section Bodies

variable (settings : Settings Flag) (world : World) (state : State Flag)

theorem told_gone {after : State Flag} {owner : Person}
    (others : ∀ other, other ≠ owner → after.person other = state.person other)
    (gone : world.present owner = true → (after.person owner).rpPos = none) :
    state.Told world after [.deleteRP owner] := by
  intro person isPresent _
  by_cases same : owner = person
  · subst same
    rw [marks_of_rpPos_none (gone isPresent)]
    simp [heardOf, RallyChange.on]
  · rw [marks_congr (others person (Ne.symm same))]
    simp [heardOf, RallyChange.on, same]

/-- What is done to units that have no rally point, or that are dead, need not be said. -/
theorem told_silent {after : State Flag} {owner : Person}
    (others : ∀ other, other ≠ owner → after.person other = state.person other)
    (silent : world.present owner = true → world.alive owner = true →
      after.marks owner = state.marks owner) : state.Told world after [] := by
  intro person isPresent isAlive
  by_cases same : person = owner
  · subst same
    exact silent isPresent isAlive
  · exact marks_congr (others person same)

theorem deleteRP_rpPos {entry : RallyEntry} (isPresent : world.present entry.person = true) :
    ((state.deleteRP settings world entry).1.person entry.person).rpPos = none := by
  have gone := disableRP_rpPos world state isPresent
  dsimp only [deleteRP]
  split
  · simpa [clearRPTime, setPerson] using gone
  · exact gone

theorem told_deleteRP (entry : RallyEntry) :
    state.Told world (state.deleteRP settings world entry).1 [.deleteRP entry.person] :=
  told_gone world state (handled_deleteRP settings world state entry).others
    (deleteRP_rpPos settings world state)

theorem told_deleteFriendlyRP (flag : Flag) (entry : RallyEntry) :
    state.Told world (deleteFriendlyRP settings world flag state entry).1
      (deleteFriendlyTells settings world flag state entry) := by
  unfold deleteFriendlyRP deleteFriendlyTells
  split
  · exact told_deleteRP settings world state entry
  · exact .refl world state

theorem told_recheckRP (flag : Flag) (enemyFlag : Option Flag) (entry : RallyEntry) :
    state.Told world (recheckRP settings world flag enemyFlag state entry).1
      (recheckTells settings world flag enemyFlag state entry) := by
  have deleted := told_deleteRP settings world state entry
  have same : state.Told world state [] := .refl world state
  unfold recheckRP recheckTells
  split
  · exact same
  · split
    · exact deleted
    · cases enemyFlag with
      | none => exact same
      | some enemyFlag =>
          cases (state.person entry.person).rpPos with
          | none => exact same
          | some position =>
              dsimp only
              split
              · exact deleted
              · exact same

theorem told_trackRP (entry : RallyEntry) :
    state.Told world (trackRP settings world state entry).1
      (trackTells settings world state entry) := by
  have others := (handled_trackRP settings world state entry).others
  by_cases isAlive : world.isAlive (some entry.person) = true
  · have isPresent : world.present entry.person = true := (Bool.and_eq_true _ _ ▸ isAlive).1
    have tracked : (trackRP settings world state entry).1.person entry.person =
          (state.leaveRP settings world entry.person).person entry.person ∨
        ((state.leaveRP settings world entry.person).person entry.person).rpPos = none ∧
          ((trackRP settings world state entry).1.person entry.person).rpPos = none := by
      rw [trackRP]
      simp only [isPresent, isAlive, Bool.not_true, Bool.false_eq_true, if_false]
      split
      · rename_i unlocked
        rw [Bool.and_eq_true, Bool.not_eq_true'] at unlocked
        have none := rpPos_of_not_hasRP world _ isPresent unlocked.1
        exact .inr ⟨none, by simpa [clearRPTime, setPerson] using none⟩
      · exact .inl rfl
    rw [trackTells, isAlive, Bool.true_and]
    by_cases away : (state.person entry.person).rpPos.any fun rpPos =>
        settings.rpDistance < world.distanceTo entry.person rpPos
    · rw [if_pos away]
      refine told_gone world state others fun _ => ?_
      have gone : ((state.leaveRP settings world entry.person).person entry.person).rpPos =
          none := by
        rw [leaveRP, if_pos away]
        exact disableRP_rpPos world state isPresent
      rcases tracked with same | none
      · rw [same, gone]
      · exact none.2
    · rw [if_neg away]
      refine told_silent world state others fun _ _ => ?_
      have stays : state.leaveRP settings world entry.person = state := by
        rw [leaveRP, if_neg away]
      rw [stays] at tracked
      rcases tracked with same | none
      · exact marks_congr same
      · rw [marks_of_rpPos_none none.2, marks_of_rpPos_none none.1]
  · rw [trackTells, if_neg (by simp [isAlive])]
    refine told_silent world state others fun isPresent alive => ?_
    exact absurd (by simp [World.isAlive, isPresent, alive]) isAlive

end Bodies

/-! ### The sides of the elements -/

def Sided (present : Person → Bool) (state : State Flag) : Prop :=
  ∀ entry ∈ state.rpList, present entry.person = true →
    (state.person entry.person).rpPos.isSome →
      (state.person entry.person).rpSide = some entry.side

section Sides

variable {present : Person → Bool} {state : State Flag}
  {body : State Flag → RallyEntry → State Flag × Bool}

theorem passed_spares (handles : ∀ (state : State Flag) entry,
      state.Handled present (body state entry).1 entry.person (body state entry).2)
    (state : State Flag) (entries : List RallyEntry) {person : Person}
    (isPresent : present person = true) :
    (passed body state entries).person person = state.person person ∨
      ((passed body state entries).person person).rpPos = none := by
  induction entries generalizing state with
  | nil => exact .inl rfl
  | cons entry rest inductionHypothesis =>
      have here : (body state entry).1.person person = state.person person ∨
          ((body state entry).1.person person).rpPos = none := by
        have handled := handles state entry
        by_cases same : person = entry.person
        · subst same
          cases marked : (body state entry).2 with
          | true => exact .inr (handled.removed isPresent marked).2
          | false => exact (handled.kept isPresent marked).2
        · exact .inl (handled.others person same)
      rcases inductionHypothesis (body state entry).1 with same | none
      · rcases here with before | none
        · exact .inl (same.trans before)
        · exact .inr ((congrArg PersonVariables.rpPos same).trans none)
      · exact .inr none

theorem Sided.sweepRP (handles : ∀ (state : State Flag) entry,
      state.Handled present (body state entry).1 entry.person (body state entry).2)
    (sided : state.Sided present) : (state.sweepRP body).Sided present := by
  intro entry member isPresent hasPos
  have swept := @sweepRP_person _ body state
  have listed := swept.2.subset member
  rw [swept.1] at hasPos ⊢
  rcases passed_spares handles state state.rpList isPresent with same | none
  · rw [same] at hasPos ⊢
    exact sided entry listed isPresent hasPos
  · rw [none] at hasPos
    cases hasPos

theorem SameRally.sided {before after : State Flag} (same : before.SameRally after)
    (sided : before.Sided present) : after.Sided present := by
  intro entry member
  rw [same.rpList] at member
  rw [same.person]
  exact sided entry member

end Sides

section Operations

variable (settings : Settings Flag) (world : World) (state : State Flag)

theorem sided_deployRP (person : Option Person) (positionPlayer originalPos : Position)
    (tracked : state.Tracked world.present state.rpList) (sided : state.Sided world.present) :
    (state.deployRP settings world person positionPlayer originalPos).Sided world.present := by
  rcases deployRP_cases settings world state person positionPlayer originalPos with
    same | ⟨owner, side, -, noTime, deployed⟩
  · rw [same]
    exact sided
  · rw [deployed]
    intro entry member isPresent hasPos
    rcases List.mem_append.mp member with before | new
    · have different : entry.person ≠ owner := by
        intro same
        have count := tracked.listed entry.person isPresent
        rw [same, noTime] at count
        have positive : 0 < occurrences state.rpList owner :=
          occurrences_pos_iff.mpr ⟨entry, before, same⟩
        rw [count] at positive
        simp at positive
      simp only [raised, setPerson, Function.update_of_ne different] at hasPos ⊢
      exact sided entry before isPresent hasPos
    · cases List.mem_singleton.mp new
      simp [raised, setPerson]

theorem told_deployRP (person : Option Person) (positionPlayer originalPos : Position)
    (tracked : state.Tracked world.present state.rpList) :
    state.Told world (state.deployRP settings world person positionPlayer originalPos)
      (state.deployTells settings world person positionPlayer originalPos) := by
  rcases deployRP_cases settings world state person positionPlayer originalPos with
    same | ⟨owner, side, rfl, noTime, deployed⟩
  · have silent : state.deployTells settings world person positionPlayer originalPos = [] := by
      cases person with
      | none => rfl
      | some owner => rw [deployTells, same, if_neg (lt_irrefl _)]
    rw [same, silent]
    exact .refl world state
  · have said : state.deployTells settings world (some owner) positionPlayer originalPos =
        [.createRP owner positionPlayer] := by
      rw [deployTells, deployed, if_pos]
      simp [raised]
    rw [deployed, said]
    intro other isPresent _
    by_cases same : owner = other
    · subst same
      have noPos : (state.person owner).rpPos = none := by
        by_contra hasPos
        have complete := tracked.complete owner isPresent (Option.isSome_iff_ne_none.mpr hasPos)
        simpa [noTime] using complete.time
      rw [marks_of_rpPos_none noPos]
      simp [marks, raised, setPerson, heardOf, RallyChange.on]
    · have unchanged : ((state.raised owner side (world.uidToId (world.playerUid owner))
          positionPlayer originalPos).person other) = state.person other := by
        simp [raised, setPerson, Ne.symm same]
      rw [marks_congr unchanged]
      simp [heardOf, RallyChange.on, same]

variable [DecidableEq Flag]

theorem told_destroyFlagZone (flag : Flag) (destroyingSide : Side) :
    state.Told world (state.destroyFlagZone settings world flag destroyingSide)
      (state.destroyTells settings world flag) := by
  unfold destroyFlagZone destroyTells
  split
  · exact .refl world state
  · exact told_sweepRP (told_deleteFriendlyRP settings world · flag) _

theorem sided_destroyFlagZone (flag : Flag) (destroyingSide : Side)
    (sided : state.Sided world.present) :
    (state.destroyFlagZone settings world flag destroyingSide).Sided world.present := by
  unfold destroyFlagZone
  split
  · exact sided
  · apply Sided.sweepRP
    · exact fun state entry => handled_deleteFriendlyRP settings world state flag entry
    · exact SameRally.sided ⟨rfl, rfl⟩ sided

omit [DecidableEq Flag] in
/-- The ballot is that of a rally point of a living unit, and its flag is of the same side. -/
theorem ballot_owner {person : Option Person} {unitId : Text} {positionPlayer : Position}
    {cast : Ballot Flag}
    (passed : state.ballot settings world person unitId positionPlayer = some cast) :
    world.present cast.person = true ∧ (state.person cast.person).rpPos = some cast.rpPos ∧
      (state.person cast.person).rpSide = some cast.rpSide ∧
      settings.side cast.flag = cast.rpSide := by
  unfold ballot at passed
  cases person with
  | none => cases passed
  | some person =>
      dsimp only at passed
      split at passed
      · cases passed
      · rename_i allowed
        have isPresent : world.present person = true := by
          by_contra absent
          simp [World.isAlive, absent] at allowed
        split at passed
        · rename_i unit
          split at passed
          · cases passed
          · split at passed
            · cases passed
            · rename_i flag found
              split at passed
              · cases passed
              · cases passed
                exact ⟨isPresent, by rw [unit], by rw [unit],
                  by simpa using List.find?_some found⟩
        · cases passed

omit [DecidableEq Flag] in
theorem recheckTells_deletes (flag : Flag) (enemyFlag : Option Flag) (entry : RallyEntry)
    {change : RallyChange}
    (member : change ∈ recheckTells settings world flag enemyFlag state entry) :
    change = .deleteRP entry.person := by
  unfold recheckTells at member
  split at member
  · cases member
  · split at member
    · exact List.mem_singleton.mp member
    · split at member
      · split at member
        · exact List.mem_singleton.mp member
        · cases member
      · cases member

omit [DecidableEq Flag] in
theorem tellEach_recheck_deletes (flag : Flag) (enemyFlag : Option Flag) (state : State Flag)
    (entries : List RallyEntry) :
    ∀ change ∈ tellEach (recheckRP settings world flag enemyFlag)
      (recheckTells settings world flag enemyFlag) state entries,
      ∃ owner, change = .deleteRP owner := by
  induction entries generalizing state with
  | nil => exact List.forall_mem_nil _
  | cons entry rest inductionHypothesis =>
      intro change member
      rcases List.mem_append.mp member with here | later
      · exact ⟨entry.person, recheckTells_deletes settings world state flag enemyFlag entry here⟩
      · exact inductionHypothesis _ change later

omit [DecidableEq Flag] in
/-- A rally point of the flag's side does not survive the loop of `FortifyRP` unsaid. -/
theorem tellEach_recheck_names {flag : Flag} {enemyFlag : Option Flag} {owner : Person}
    {entries : List RallyEntry}
    (friendly : ∀ entry ∈ entries, entry.person = owner → settings.side flag = entry.side)
    (listed : ∃ entry ∈ entries, entry.person = owner) {state : State Flag}
    (hasRP : state.hasRP world owner = true) :
    .deleteRP owner ∈ tellEach (recheckRP settings world flag enemyFlag)
      (recheckTells settings world flag enemyFlag) state entries := by
  induction entries generalizing state with
  | nil =>
      obtain ⟨entry, member, -⟩ := listed
      cases member
  | cons entry rest inductionHypothesis =>
      by_cases same : entry.person = owner
      · apply List.mem_append_left
        simp [recheckTells, same, hasRP, friendly entry (by simp) same]
      · apply List.mem_append_right
        have unchanged := (handled_recheckRP settings world state flag enemyFlag entry).others
          owner (Ne.symm same)
        apply inductionHypothesis
        · exact fun other member => friendly other (by simp [member])
        · obtain ⟨other, member, isOwner⟩ := listed
          rcases List.mem_cons.mp member with rfl | later
          · exact absurd isOwner same
          · exact ⟨other, later, isOwner⟩
        · rw [State.hasRP, unchanged]
          exact hasRP

theorem sameRally_refounded (cast : Ballot Flag) :
    (state.counted cast).SameRally (refounded settings state cast) :=
  sameRally_reDeployFlagZone settings _ _ _ _ _ true

/-- The loop of `FortifyRP` names the unit whose rally point has got its last vote. -/
theorem fortified_names {person : Option Person} {unitId : Text} {positionPlayer : Position}
    {cast : Ballot Flag} (enemyFlag : Option Flag)
    (passed : state.ballot settings world person unitId positionPlayer = some cast)
    (tracked : state.Tracked world.present state.rpList) (sided : state.Sided world.present) :
    .deleteRP cast.person ∈ (refounded settings state cast).sweepTells
      (recheckRP settings world cast.flag enemyFlag)
      (recheckTells settings world cast.flag enemyFlag) := by
  obtain ⟨isPresent, hasPos, hasSide, ofSide⟩ := ballot_owner settings world state passed
  have same := sameRally_refounded settings state cast
  have isSome : (state.person cast.person).rpPos.isSome := by rw [hasPos]; rfl
  apply tellEach_recheck_names
  · intro entry member isOwner
    rw [same.rpList] at member
    have side := sided entry member
    rw [isOwner] at side
    have sameSide := (side isPresent isSome).symm.trans hasSide
    exact ofSide.trans (Option.some.inj sameSide).symm
  · have complete := tracked.complete cast.person isPresent isSome
    have count := tracked.listed cast.person isPresent
    rw [if_pos complete.time] at count
    rw [same.rpList]
    exact occurrences_pos_iff.mp (lt_of_lt_of_eq one_pos count.symm)
  · rw [State.hasRP, same.person, isPresent, Bool.true_and]
    simp [State.counted, setPerson, hasPos]

theorem told_fortifyRP (person : Option Person) (unitId : Text) (positionPlayer : Position)
    (tracked : state.Tracked world.present state.rpList) (sided : state.Sided world.present) :
    state.Told world (state.fortifyRP settings world person unitId positionPlayer)
      (state.fortifyTells settings world person unitId positionPlayer) := by
  rw [fortifyRP_eq, fortifyTells]
  cases passed : state.ballot settings world person unitId positionPlayer with
  | none => exact .refl world state
  | some cast =>
      obtain ⟨-, hasPos, -, -⟩ := ballot_owner settings world state passed
      have hasVote := (ballot_reads settings world state passed).2.1
      have counted (other : Person) (different : other ≠ cast.person) :
          (state.counted cast).person other = state.person other :=
        Function.update_of_ne different _ _
      dsimp only
      rw [fortified]
      generalize (lastFlag settings fun flag => settings.side flag ≠ cast.rpSide) = enemyFlag
      split
      · exact .refl world state
      · split
        · -- the last vote is not told, but the rally point is deleted with it
          have swept := told_sweepRP (told_recheckRP settings world · cast.flag enemyFlag)
            (refounded settings state cast)
          have deletes := tellEach_recheck_deletes settings world cast.flag enemyFlag
            (refounded settings state cast) (refounded settings state cast).rpList
          have same := sameRally_refounded settings state cast
          intro other isPresent isAlive
          refine (swept other isPresent isAlive).trans ?_
          by_cases isOwner : other = cast.person
          · subst isOwner
            have named := fortified_names settings world state enemyFlag passed tracked sided
            exact (heardOf_deletes deletes named _).trans (heardOf_deletes deletes named _).symm
          · rw [marks_congr ((congrFun same.person other).trans (counted other isOwner))]
        · intro other _ _
          by_cases isOwner : cast.person = other
          · subst isOwner
            simp [marks, State.counted, setPerson, hasPos, hasVote, heardOf, RallyChange.on]
          · rw [marks_congr (counted other (Ne.symm isOwner))]
            simp [heardOf, RallyChange.on, isOwner]

theorem sided_fortifyRP (person : Option Person) (unitId : Text) (positionPlayer : Position)
    (sided : state.Sided world.present) :
    (state.fortifyRP settings world person unitId positionPlayer).Sided world.present := by
  rw [fortifyRP_eq]
  cases state.ballot settings world person unitId positionPlayer with
  | none => exact sided
  | some cast =>
      have counted : (state.counted cast).Sided world.present := by
        intro entry member isPresent hasPos
        by_cases isOwner : entry.person = cast.person
        · simp only [State.counted, setPerson, isOwner, Function.update_self] at hasPos ⊢
          have side := sided entry member isPresent
          rw [isOwner] at side
          exact side hasPos
        · simp only [State.counted, setPerson, Function.update_of_ne isOwner] at hasPos ⊢
          exact sided entry member isPresent hasPos
      dsimp only
      split
      · exact sided
      · split
        · apply Sided.sweepRP
          · exact fun state entry => handled_recheckRP settings world state _ _ entry
          · exact (sameRally_refounded settings state cast).sided counted
        · exact counted

end Operations

end State

end OperationFrontLine.Zones
