import OperationFrontLine.GroupManager.Requests

/-!
# Membership is a partition

No player is on the list of two groups, and the first of a list is the one that was
told to lead it, as long as nobody joins a group while he is on a list and nobody
leaves one whose leader has his ID in another case.  `JoinGroup.sqf` looks for the old
membership in the group of `player`, which a dedicated server does not have;
`LeaveGroup.sqf` and `GroupDisconnect.sqf` take a player for the leader by `==`.
-/

namespace OperationFrontLine.GroupManager

open OperationFrontLine.Identity (fold)
open OperationFrontLine.Library

namespace State

structure Partition (state : State) : Prop where
  once : ∀ group members, state.members group = some members → members.Nodup
  one : ∀ group other members others id, state.members group = some members →
    state.members other = some others → id ∈ members → id ∈ others → group = other
  active : ∀ group, some group ∈ state.activeGroups →
    ∃ members, state.members group = some members ∧ members ≠ []
  owner : ∀ group leader rest, state.members group = some (leader :: rest) →
    state.isLeader leader = true ∧ ∀ other ∈ rest, state.isLeader other = false
  left : ∀ group members id, state.members group = some members → id ∈ members →
    state.groupOf id = group

/-- The invariant: besides, lists are those of the active groups, which were created,
and groups without a list are not open. -/
structure Intact (state : State) : Prop where
  nonempty : ∀ group members, state.members group = some members → members ≠ []
  nodup : ∀ group members, state.members group = some members → members.Nodup
  inGroup : ∀ group members id, state.members group = some members → id ∈ members →
    state.groupOf id = group
  owner : ∀ group leader rest, state.members group = some (leader :: rest) →
    state.isLeader leader = true ∧ ∀ other ∈ rest, state.isLeader other = false
  opened : ∀ group, state.openGroup group = true → (state.members group).isSome
  issued : ∀ id number, state.groupOf id = .created number → number ≤ state.lastGroup
  listed : ∀ group, (state.members group).isSome →
    ∃ number ≤ state.lastGroup, group = .created number
  active : ∀ group, some group ∈ state.activeGroups ↔ (state.members group).isSome
  distinct : DistinctKeys (fun group => group) state.activeGroups
  deleted : state.deleted = []

/-- Whoever has the leader's ID up to case is the leader. -/
def LeadsAsWritten (id : Text) (members : List Text) : Prop :=
  ∀ leader ∈ members.head?, fold id = fold leader → id = leader

/-- The condition on a step: whoever joins a group is on no list, and whoever leaves one
or disconnects is not taken for its leader.  The scripts ask whether the player is alive
and whether the group he joins is open. -/
def Clears (state : State) : Event → Prop
  | .joinGroup player group => ∀ id ∈ player.id, ∀ joined ∈ group, player.alive = true →
      state.openGroup joined = true →
        ∀ other members, state.members other = some members → id ∉ members
  | .leaveGroup player => ∀ id ∈ player.id, player.alive = true →
      ∀ members, state.members (state.groupOf id) = some members → id ∈ members →
        LeadsAsWritten id members
  | .groupDisconnect id _ => ∀ group, some group ∈ state.activeGroups →
      ∀ members, state.members group = some members → id ∈ members → LeadsAsWritten id members
  | _ => True

theorem intact_initial (placement : Text → ℕ) : Intact (initial placement) where
  nonempty group members listed := by cases listed
  nodup group members listed := by cases listed
  inGroup group members id listed := by cases listed
  owner group leader rest listed := by cases listed
  opened group isOpen := by cases isOpen
  issued id number same := by cases same
  listed group listed := by cases listed
  active group := by simp [initial]
  distinct := DistinctKeys.nil
  deleted := rfl

namespace Intact

variable {before after : State}

theorem partition (intact : Intact before) : Partition before where
  once := intact.nodup
  one group other members others id isFirst isSecond first second :=
    (intact.inGroup group members id isFirst first).symm.trans
      (intact.inGroup other others id isSecond second)
  active group member := by
    obtain ⟨members, listed⟩ := Option.isSome_iff_exists.mp ((intact.active group).mp member)
    exact ⟨members, listed, intact.nonempty group members listed⟩
  owner := intact.owner
  left := intact.inGroup

/-- A list is replaced by a part of it with a leader of its own; players who are on no
list any more may move and be told anything. -/
theorem replace (intact : Intact before) {group : Group} {first leader : Text}
    {members rest : List Text} (listed : before.members group = some (first :: members))
    (sub : (leader :: rest).Sublist (first :: members)) (followers : ∀ id ∈ rest, id ∈ members)
    (isMembers : after.members = Function.update before.members group (some (leader :: rest)))
    (leads : after.isLeader leader = true)
    (isLeader : ∀ other list id, after.members other = some list → id ∈ list → id ≠ leader →
      after.isLeader id = before.isLeader id)
    (groupOf : ∀ other list id, after.members other = some list → id ∈ list →
      after.groupOf id = before.groupOf id)
    (issued : ∀ id number, after.groupOf id = .created number → number ≤ after.lastGroup)
    (lastGroup : before.lastGroup ≤ after.lastGroup)
    (openGroup : after.openGroup = before.openGroup)
    (activeGroups : after.activeGroups = before.activeGroups)
    (deleted : after.deleted = before.deleted) : Intact after := by
  have cases_members : ∀ other list, after.members other = some list →
      other = group ∧ list = leader :: rest ∨ other ≠ group ∧ before.members other = some list := by
    intro other list isList
    rw [isMembers, Function.update_apply] at isList
    split_ifs at isList with same
    · exact Or.inl ⟨same, (Option.some.inj isList).symm⟩
    · exact Or.inr ⟨same, isList⟩
  have stillListed : ∀ other, (before.members other).isSome → (after.members other).isSome := by
    intro other has
    rw [isMembers, Function.update_apply]
    split_ifs
    · rfl
    · exact has
  have wasListed : ∀ other, (after.members other).isSome → (before.members other).isSome := by
    intro other has
    rw [isMembers, Function.update_apply] at has
    split_ifs at has with same
    · rw [same, listed]
      rfl
    · exact has
  constructor
  · intro other list isList
    rcases cases_members other list isList with ⟨-, rfl⟩ | ⟨-, old⟩
    · exact List.cons_ne_nil _ _
    · exact intact.nonempty other list old
  · intro other list isList
    rcases cases_members other list isList with ⟨-, rfl⟩ | ⟨-, old⟩
    · exact (intact.nodup group _ listed).sublist sub
    · exact intact.nodup other list old
  · intro other list id isList member
    rw [groupOf other list id isList member]
    rcases cases_members other list isList with ⟨rfl, rfl⟩ | ⟨-, old⟩
    · exact intact.inGroup other _ id listed (sub.subset member)
    · exact intact.inGroup other list id old member
  · intro other head tail isList
    rcases cases_members other _ isList with ⟨rfl, same⟩ | ⟨different, old⟩
    · cases same
      refine ⟨leads, fun id member => ?_⟩
      have notLeader : id ≠ leader := by
        rintro rfl
        exact (List.nodup_cons.mp ((intact.nodup other _ listed).sublist sub)).1 member
      rw [isLeader other _ id isList (List.mem_cons_of_mem _ member) notLeader]
      exact (intact.owner other first members listed).2 id (followers id member)
    · have notLeader : ∀ id ∈ head :: tail, id ≠ leader := by
        rintro id member rfl
        have here := intact.inGroup group _ id listed (sub.subset (by simp))
        exact different ((intact.inGroup other _ id old member).symm.trans here)
      obtain ⟨headLeads, tailFollows⟩ := intact.owner other head tail old
      refine ⟨?_, fun id member => ?_⟩
      · rw [isLeader other _ head isList (by simp) (notLeader head (by simp))]
        exact headLeads
      · rw [isLeader other _ id isList (by simp [member]) (notLeader id (by simp [member]))]
        exact tailFollows id member
  · intro other isOpen
    rw [openGroup] at isOpen
    exact stillListed other (intact.opened other isOpen)
  · exact issued
  · intro other has
    obtain ⟨number, isIssued, same⟩ := intact.listed other (wasListed _ has)
    exact ⟨number, isIssued.trans lastGroup, same⟩
  · intro other
    rw [activeGroups, intact.active other]
    exact ⟨stillListed other, wasListed other⟩
  · rw [activeGroups]
    exact intact.distinct
  · rw [deleted]
    exact intact.deleted

theorem release (intact : Intact before) {group : Group} {first leader id : Text}
    {members rest : List Text} (listed : before.members group = some (first :: members))
    (member : id ∈ first :: members) (gone : id ∉ leader :: rest)
    (sub : (leader :: rest).Sublist (first :: members))
    (followers : ∀ other ∈ rest, other ∈ members)
    (isMembers : after.members = Function.update before.members group (some (leader :: rest)))
    (leads : after.isLeader leader = true)
    (isLeader : ∀ other, other ≠ leader → other ≠ id →
      after.isLeader other = before.isLeader other)
    (groupOf : after.groupOf = Function.update before.groupOf id (.created (before.lastGroup + 1)))
    (lastGroup : after.lastGroup = before.lastGroup + 1)
    (openGroup : after.openGroup = before.openGroup)
    (activeGroups : after.activeGroups = before.activeGroups)
    (deleted : after.deleted = before.deleted) : Intact after := by
  have notListed : ∀ other list, after.members other = some list → id ∉ list := by
    intro other list isList inList
    rw [isMembers, Function.update_apply] at isList
    split_ifs at isList with same
    · cases isList
      exact gone inList
    · have here := intact.inGroup group _ id listed member
      exact same ((intact.inGroup other list id isList inList).symm.trans here)
  have kept : ∀ other list player, after.members other = some list → player ∈ list →
      player ≠ id := by
    rintro other list player isList inList rfl
    exact notListed other list isList inList
  refine intact.replace listed sub followers isMembers leads ?_ ?_ ?_ ?_ openGroup activeGroups
    deleted
  · intro other list player isList inList notLeader
    exact isLeader player notLeader (kept other list player isList inList)
  · intro other list player isList inList
    rw [groupOf, Function.update_of_ne (kept other list player isList inList)]
  · intro player number same
    rw [groupOf, Function.update_apply] at same
    rw [lastGroup]
    split_ifs at same
    · cases same
      exact le_rfl
    · exact (intact.issued player number same).trans (Nat.le_succ _)
  · rw [lastGroup]
    exact Nat.le_succ _

theorem without_follower {first id : Text} {members : List Text} (different : id ≠ first) :
    without (first :: members) id = first :: without members id := by
  simp [without, different.symm]

theorem leaveGroup (intact : Intact before) {player : Player}
    (clears : Clears before (.leaveGroup player)) :
    Intact (before.leaveGroup player).state := by
  unfold State.leaveGroup
  split
  · exact intact
  · next id isId =>
      split
      · next alive =>
        dsimp only
        split
        · exact intact
        · next members listed =>
            split
            · next holds =>
                obtain ⟨member, long⟩ := holds
                have nonempty := intact.nonempty _ _ listed
                obtain ⟨first, others, rfl⟩ := List.exists_cons_of_ne_nil nonempty
                have distinct := intact.nodup _ _ listed
                by_cases head : fold id = fold first
                · cases clears id isId alive _ listed member first rfl head
                  obtain ⟨leader, rest, rfl⟩ : ∃ leader rest, others = leader :: rest :=
                    List.exists_cons_of_ne_nil (by rintro rfl; simp at long)
                  have promoted : before.promoteLeader (before.groupOf id) = some
                      ((before.setMembers (before.groupOf id) (some (leader :: rest))).tellLeader
                        leader true, true) := by
                    simp only [promoteLeader, listed, List.tail_cons]
                  simp only [List.head?_cons, Option.map_some, if_pos, promoted,
                    Outcome.finished_andThen, Outcome.state_finished]
                  refine intact.release listed member (List.nodup_cons.mp distinct).1
                    (List.sublist_cons_self _ _) (by simp_all) rfl ?_ ?_ rfl rfl rfl rfl rfl
                  · simp [tellLeader, joinNew, join, setMembers, Function.update_apply]
                  · intro other notLeader notSelf
                    simp [tellLeader, joinNew, join, setMembers, notLeader, notSelf]
                · have notHead : ¬ (first :: others).head?.map fold = some (fold id) := by
                    simpa using Ne.symm head
                  have different : id ≠ first := fun same => head (congrArg fold same)
                  simp only [if_neg notHead, Outcome.finished_andThen, Outcome.state_finished]
                  rw [without_follower different]
                  refine intact.release listed member ?_ ?_ ?_ rfl ?_ ?_ rfl rfl rfl rfl rfl
                  · simp [different]
                  · exact (List.filter_sublist).cons_cons first
                  · intro other inRest
                    exact (mem_without.mp inRest).1
                  · have leads := (intact.owner _ first others listed).1
                    simp [tellLeader, joinNew, join, setMembers, Function.update_apply, leads]
                  · intro other _ notSelf
                    simp [tellLeader, joinNew, join, setMembers, notSelf]
            · exact intact
      · exact intact

theorem kickPlayer (intact : Intact before) (player kicked : Player) :
    Intact (before.kickPlayer player kicked).state := by
  unfold State.kickPlayer
  split
  · next owner id _ _ =>
      split
      · dsimp only
        split
        · exact intact
        · next members listed =>
            split
            · next holds =>
                obtain ⟨-, notOwner, member, isHead⟩ := holds
                obtain ⟨first, others, rfl⟩ :=
                  List.exists_cons_of_ne_nil (intact.nonempty _ _ listed)
                have sameOwner : fold first = fold owner := by simpa using isHead
                have different : id ≠ first :=
                  fun same => notOwner ((congrArg fold same).trans sameOwner)
                rw [Outcome.state_finished, without_follower different]
                refine intact.release listed member ?_ ?_ ?_ rfl ?_ ?_ rfl rfl rfl rfl rfl
                · simp [different]
                · exact (List.filter_sublist).cons_cons first
                · intro other inRest
                  exact (mem_without.mp inRest).1
                · have leads := (intact.owner _ first others listed).1
                  simp [tellLeader, joinNew, join, setMembers, Function.update_apply, leads]
                · intro other _ notSelf
                  simp [tellLeader, joinNew, join, setMembers, notSelf]
            · exact intact
      · exact intact
  · exact intact

theorem setOpen (intact : Intact before) (group : Group) (value : Bool)
    (listed : value = true → (before.members group).isSome) :
    Intact (before.setOpen group value) where
  nonempty := intact.nonempty
  nodup := intact.nodup
  inGroup := intact.inGroup
  owner := intact.owner
  opened other isOpen := by
    simp only [State.setOpen, Function.update_apply] at isOpen
    split_ifs at isOpen with same
    · exact same ▸ listed isOpen
    · exact intact.opened other isOpen
  issued := intact.issued
  listed := intact.listed
  active := intact.active
  distinct := intact.distinct
  deleted := intact.deleted

theorem closeGroup (intact : Intact before) (player : Player) :
    Intact (before.closeGroup player).state := by
  unfold State.closeGroup
  split
  · exact intact
  · dsimp only
    split
    · split
      · exact intact
      · exact intact
      · split
        · exact intact.setOpen _ false (by simp)
        · exact intact
    · exact intact

/-- A player who is on no list gets a new group with himself as its leader. -/
theorem create (intact : Intact before) {id : Text}
    (unlisted : ∀ group members, before.members group = some members → id ∉ members)
    (members : after.members =
      Function.update before.members (.created (before.lastGroup + 1)) (some [id]))
    (isLeader : after.isLeader = Function.update before.isLeader id true)
    (groupOf : after.groupOf =
      Function.update before.groupOf id (.created (before.lastGroup + 1)))
    (lastGroup : after.lastGroup = before.lastGroup + 1)
    (openGroup : after.openGroup = before.openGroup)
    (activeGroups : after.activeGroups =
      before.activeGroups ++ [some (.created (before.lastGroup + 1))])
    (deleted : after.deleted = before.deleted) : Intact after := by
  have fresh : before.members (.created (before.lastGroup + 1)) = none := by
    cases listed : before.members (.created (before.lastGroup + 1)) with
    | none => rfl
    | some list =>
        obtain ⟨number, isIssued, same⟩ :=
          intact.listed (.created (before.lastGroup + 1)) (by simp [listed])
        cases same
        exact absurd isIssued (Nat.not_succ_le_self _)
  have cases_members : ∀ other list, after.members other = some list →
      other = .created (before.lastGroup + 1) ∧ list = [id] ∨
        before.members other = some list := by
    intro other list isList
    rw [members, Function.update_apply] at isList
    split_ifs at isList with same
    · exact Or.inl ⟨same, (Option.some.inj isList).symm⟩
    · exact Or.inr isList
  have has : ∀ other, (after.members other).isSome ↔
      (before.members other).isSome ∨ other = .created (before.lastGroup + 1) := by
    intro other
    rw [members, Function.update_apply]
    split_ifs with same
    · simp [same]
    · simp [same]
  constructor
  · intro other list isList
    rcases cases_members other list isList with ⟨-, rfl⟩ | old
    · exact List.cons_ne_nil _ _
    · exact intact.nonempty other list old
  · intro other list isList
    rcases cases_members other list isList with ⟨-, rfl⟩ | old
    · exact List.nodup_singleton _
    · exact intact.nodup other list old
  · intro other list player isList member
    rw [groupOf]
    rcases cases_members other list isList with ⟨rfl, rfl⟩ | old
    · rw [List.mem_singleton.mp member, Function.update_self]
    · have different : player ≠ id := by
        rintro rfl
        exact unlisted other list old member
      rw [Function.update_of_ne different]
      exact intact.inGroup other list player old member
  · intro other leader rest isList
    rw [isLeader]
    rcases cases_members other _ isList with ⟨-, same⟩ | old
    · cases same
      simp
    · have different : ∀ player ∈ leader :: rest, player ≠ id := by
        rintro player member rfl
        exact unlisted other _ old member
      obtain ⟨leads, follow⟩ := intact.owner other leader rest old
      refine ⟨?_, fun player member => ?_⟩
      · rw [Function.update_of_ne (different leader (by simp)), leads]
      · rw [Function.update_of_ne (different player (by simp [member])), follow player member]
  · intro other isOpen
    rw [openGroup] at isOpen
    exact (has other).mpr (Or.inl (intact.opened other isOpen))
  · intro player number same
    rw [groupOf, Function.update_apply] at same
    rw [lastGroup]
    split_ifs at same
    · cases same
      exact le_rfl
    · exact (intact.issued player number same).trans (Nat.le_succ _)
  · intro other isListed
    rw [lastGroup]
    rcases (has other).mp isListed with old | rfl
    · obtain ⟨number, isIssued, same⟩ := intact.listed other old
      exact ⟨number, isIssued.trans (Nat.le_succ _), same⟩
    · exact ⟨_, le_rfl, rfl⟩
  · intro other
    rw [activeGroups, List.mem_append, List.mem_singleton, Option.some.injEq, has,
      intact.active other]
  · rw [activeGroups]
    refine intact.distinct.append_single ?_
    rintro other member rfl
    have isListed := (intact.active _).mp member
    rw [fresh] at isListed
    cases isListed
  · rw [deleted]
    exact intact.deleted

theorem openOwn (intact : Intact before) (id : Text) : Intact (before.openOwn id).state := by
  unfold State.openOwn
  dsimp only
  split
  · next leader rest listed =>
      split
      · exact intact.setOpen _ true fun _ => by simp [listed]
      · exact intact
  · exact intact

theorem createOwn (intact : Intact before) {id : Text}
    (noList : before.members (before.groupOf id) = none) : Intact (before.createOwn id) := by
  have group : (before.joinNew id).groupOf id = .created (before.lastGroup + 1) :=
    Function.update_self _ _ _
  refine @create before (before.createOwn id) intact id ?_ ?_ rfl rfl rfl rfl ?_ rfl
  · intro other members isList member
    have here := intact.inGroup other members id isList member
    rw [here, isList] at noList
    cases noList
  · exact congrArg (Function.update before.members · (some [id])) group
  · exact congrArg (fun own => before.activeGroups ++ [some own]) group

theorem openGroupOf (intact : Intact before) (player : Player) :
    Intact (before.openGroupOf player).state := by
  unfold State.openGroupOf
  split
  · exact intact
  · next id _ =>
      split
      · exact intact
      · split
        · exact intact.openOwn id
        · next noList => exact (intact.createOwn noList).openOwn id

theorem enter (intact : Intact before) {group : Group} {members : List Text} {id : Text}
    (listed : before.members group = some members)
    (unlisted : ∀ group members, before.members group = some members → id ∉ members) :
    Intact (((before.join id group).setMembers group (some (members ++ [id]))).tellLeader id
      false) := by
  have cases_members : ∀ other list,
      Function.update before.members group (some (members ++ [id])) other = some list →
      other = group ∧ list = members ++ [id] ∨
        other ≠ group ∧ before.members other = some list := by
    intro other list isList
    rw [Function.update_apply] at isList
    split_ifs at isList with same
    · exact Or.inl ⟨same, (Option.some.inj isList).symm⟩
    · exact Or.inr ⟨same, isList⟩
  have has : ∀ other,
      (Function.update before.members group (some (members ++ [id])) other).isSome ↔
        (before.members other).isSome := by
    intro other
    rw [Function.update_apply]
    split_ifs with same
    · simp [same, listed]
    · rfl
  have different : ∀ other list, before.members other = some list → ∀ player ∈ list,
      player ≠ id := by
    rintro other list old player member rfl
    exact unlisted other list old member
  constructor
  · intro other list isList
    rcases cases_members other list isList with ⟨-, rfl⟩ | ⟨-, old⟩
    · simp
    · exact intact.nonempty other list old
  · intro other list isList
    rcases cases_members other list isList with ⟨-, rfl⟩ | ⟨-, old⟩
    · refine List.nodup_append.mpr ⟨intact.nodup group members listed,
        List.nodup_singleton _, ?_⟩
      intro player member last isLast
      rw [List.mem_singleton.mp isLast]
      exact different group members listed player member
    · exact intact.nodup other list old
  · intro other list player isList member
    change Function.update before.groupOf id group player = other
    rcases cases_members other list isList with ⟨rfl, rfl⟩ | ⟨-, old⟩
    · rcases List.mem_append.mp member with here | last
      · rw [Function.update_of_ne (different other members listed player here)]
        exact intact.inGroup other members player listed here
      · rw [List.mem_singleton.mp last, Function.update_self]
    · rw [Function.update_of_ne (different other list old player member)]
      exact intact.inGroup other list player old member
  · intro other leader rest isList
    change Function.update before.isLeader id false leader = true ∧
      ∀ player ∈ rest, Function.update before.isLeader id false player = false
    rcases cases_members other _ isList with ⟨rfl, same⟩ | ⟨-, old⟩
    · obtain ⟨first, others, rfl⟩ := List.exists_cons_of_ne_nil (intact.nonempty _ _ listed)
      cases same
      obtain ⟨leads, follow⟩ := intact.owner other leader others listed
      refine ⟨?_, fun player member => ?_⟩
      · rw [Function.update_of_ne (different other _ listed leader (by simp)), leads]
      · rcases List.mem_append.mp member with here | last
        · rw [Function.update_of_ne (different other _ listed player (by simp [here])),
            follow player here]
        · rw [List.mem_singleton.mp last, Function.update_self]
    · obtain ⟨leads, follow⟩ := intact.owner other leader rest old
      refine ⟨?_, fun player member => ?_⟩
      · rw [Function.update_of_ne (different other _ old leader (by simp)), leads]
      · rw [Function.update_of_ne (different other _ old player (by simp [member])),
          follow player member]
  · intro other isOpen
    exact (has other).mpr (intact.opened other isOpen)
  · intro player number same
    change Function.update before.groupOf id group player = .created number at same
    rw [Function.update_apply] at same
    split_ifs at same
    · obtain ⟨number, isIssued, isCreated⟩ := intact.listed group (by simp [listed])
      cases isCreated.symm.trans same
      exact isIssued
    · exact intact.issued player number same
  · exact fun other isListed => intact.listed other ((has _).mp isListed)
  · exact fun other => (intact.active other).trans (has other).symm
  · exact intact.distinct
  · exact intact.deleted

theorem disband (intact : Intact before) {group : Group} {index : ℕ}
    (here : before.activeGroups[index]? = some (some group)) :
    Intact { (before.setOpen group false).setMembers group none with
      activeGroups := before.activeGroups.set index none } := by
  have cases_members : ∀ other list,
      Function.update before.members group none other = some list →
      before.members other = some list := by
    intro other list isList
    rw [Function.update_apply] at isList
    split_ifs at isList with same
    exact isList
  have has : ∀ other, (Function.update before.members group none other).isSome ↔
      (before.members other).isSome ∧ other ≠ group := by
    intro other
    rw [Function.update_apply]
    split_ifs with same
    · simp [same]
    · simp [same]
  constructor
  · exact fun other list isList => intact.nonempty other list (cases_members _ _ isList)
  · exact fun other list isList => intact.nodup other list (cases_members _ _ isList)
  · exact fun other list player isList =>
      intact.inGroup other list player (cases_members _ _ isList)
  · exact fun other leader rest isList =>
      intact.owner other leader rest (cases_members _ _ isList)
  · intro other isOpen
    change Function.update before.openGroup group false other = true at isOpen
    rw [Function.update_apply] at isOpen
    split_ifs at isOpen with same
    exact (has other).mpr ⟨intact.opened other isOpen, same⟩
  · exact intact.issued
  · exact fun other isListed => intact.listed other ((has other).mp isListed).1
  · intro other
    exact (intact.distinct.mem_set here).trans
      ((and_congr_left fun _ => intact.active other).trans (has other).symm)
  · exact intact.distinct.set index
  · exact intact.deleted

/-- `GroupDisconnect.sqf` at one active group: its list loses the player, and a group
that has no other players is marked as closed. -/
theorem disconnectFrom (intact : Intact before) {id : Text} {group : Group} {index : ℕ}
    (here : before.activeGroups[index]? = some (some group))
    (asWritten : ∀ members, before.members group = some members → id ∈ members →
      LeadsAsWritten id members) :
    ∃ after, before.disconnectFrom id (some group, index) = .finished after ∧ Intact after ∧
      (∀ later, index < later → after.activeGroups[later]? = before.activeGroups[later]?) ∧
        ∀ other members, after.members other = some members → id ∈ members →
          other ≠ group ∧ before.members other = some members := by
  obtain ⟨list, listed⟩ := Option.isSome_iff_exists.mp
    ((intact.active group).mp (List.mem_of_getElem? here))
  obtain ⟨first, others, rfl⟩ := List.exists_cons_of_ne_nil (intact.nonempty group _ listed)
  have distinct := intact.nodup group _ listed
  have exists_group : group ∉ before.deleted := by simp [intact.deleted]
  have elsewhere : ∀ left : Option (List Text), (∀ members ∈ left, id ∉ members) →
      ∀ other members, Function.update before.members group left other = some members →
        id ∈ members → other ≠ group ∧ before.members other = some members := by
    intro left gone other members isList member
    rw [Function.update_apply] at isList
    split_ifs at isList with same
    · exact absurd member (gone members isList)
    · exact ⟨same, isList⟩
  simp only [State.disconnectFrom, if_neg exists_group, listed]
  by_cases member : id ∈ first :: others
  · rw [if_pos member]
    by_cases head : fold id = fold first
    · cases asWritten _ listed member first rfl head
      rw [if_pos (by simp)]
      cases others with
      | nil =>
          simp only [promoteLeader, listed, List.tail_cons]
          refine ⟨_, rfl, intact.disband here, fun later isLater => ?_, ?_⟩
          · exact List.getElem?_set_ne (by omega)
          · exact elsewhere none (by simp)
      | cons leader rest =>
          simp only [promoteLeader, listed, List.tail_cons]
          refine ⟨_, rfl, ?_, fun _ _ => rfl, ?_⟩
          · refine intact.replace listed (List.sublist_cons_self _ _) (by simp_all) rfl ?_ ?_
              (fun _ _ _ _ _ => rfl) intact.issued le_rfl rfl rfl rfl
            · exact Function.update_self _ _ _
            · intro other list player _ _ notLeader
              exact Function.update_of_ne notLeader _ _
          · refine elsewhere _ ?_
            rintro members ⟨rfl⟩
            exact (List.nodup_cons.mp distinct).1
    · have different : id ≠ first := fun same => head (congrArg fold same)
      rw [if_neg (by simpa using Ne.symm head), without_follower different]
      refine ⟨_, rfl, ?_, fun _ _ => rfl, ?_⟩
      · refine intact.replace listed ((List.filter_sublist).cons_cons first) ?_ rfl ?_
          (fun _ _ _ _ _ _ => rfl) (fun _ _ _ _ _ => rfl) intact.issued le_rfl rfl rfl rfl
        · exact fun other inRest => (mem_without.mp inRest).1
        · exact (intact.owner group first others listed).1
      · refine elsewhere _ ?_
        rintro members ⟨rfl⟩
        simp [different]
  · rw [if_neg member]
    refine ⟨before, rfl, intact, fun _ _ => rfl, ?_⟩
    rintro other members isList inList
    refine ⟨?_, isList⟩
    rintro rfl
    cases listed.symm.trans isList
    exact member inList

theorem gone (intact : Intact before) {id : Text} (placement : ℕ)
    (unlisted : ∀ group members, before.members group = some members → id ∉ members) :
    Intact (before.gone id placement) := by
  refine ⟨intact.nonempty, intact.nodup, ?_, intact.owner, intact.opened, ?_, intact.listed,
    intact.active, intact.distinct, intact.deleted⟩
  · intro group members player isList member
    have different : player ≠ id := by
      rintro rfl
      exact unlisted group members isList member
    exact (Function.update_of_ne different _ _).trans
      (intact.inGroup group members player isList member)
  · intro player number same
    change Function.update before.groupOf id (.placed placement) player = .created number at same
    rw [Function.update_apply] at same
    split_ifs at same
    exact intact.issued player number same

theorem groupDisconnect (intact : Intact before) (complete : none ∉ before.activeGroups)
    {id : Text} {placement : ℕ} (clears : Clears before (.groupDisconnect id placement)) :
    Intact ((before.groupDisconnect id).state.gone id placement) ∧
      none ∉ (before.groupDisconnect id).state.activeGroups := by
  let Inv (done : ℕ) (middle : State) : Prop := Intact middle ∧
    (∀ index, done ≤ index → middle.activeGroups[index]? = before.activeGroups[index]?) ∧
      ∀ group members, middle.members group = some members → id ∈ members →
        before.members group = some members ∧
          ∃ index ≥ done, before.activeGroups[index]? = some (some group)
  have initial : Inv 0 before := by
    refine ⟨intact, fun _ _ => rfl, fun group members isList _ => ⟨isList, ?_⟩⟩
    obtain ⟨index, here⟩ := List.mem_iff_getElem?.mp ((intact.active group).mpr (by simp [isList]))
    exact ⟨index, Nat.zero_le _, here⟩
  obtain ⟨checked, ended, kept, -, listed⟩ : ∃ checked,
      forEach (State.disconnectFrom id) before.activeGroups.zipIdx before = .finished checked ∧
        Inv before.activeGroups.length checked := by
    refine forEach_zipIdx_finished Inv ?_ initial
    rintro index slot here middle ⟨agrees, ahead, listed⟩
    cases slot with
    | none => exact absurd (List.mem_of_getElem? here) complete
    | some group =>
        have there := (ahead index le_rfl).trans here
        obtain ⟨after, ended, kept, active, elsewhere⟩ :=
          agrees.disconnectFrom there fun members isList member =>
            clears group (List.mem_of_getElem? here) members (listed _ _ isList member).1 member
        refine ⟨after, ended, kept, fun later isLater => ?_, ?_⟩
        · rw [active later isLater, ahead later (by omega)]
        · intro other members isList member
          obtain ⟨different, isOld⟩ := elsewhere other members isList member
          obtain ⟨old, slot, notBefore, isSlot⟩ := listed other members isOld member
          refine ⟨old, slot, lt_of_le_of_ne notBefore ?_, isSlot⟩
          rintro rfl
          exact different (Option.some.inj (Option.some.inj (isSlot.symm.trans here)))
  unfold State.groupDisconnect
  rw [ended, Outcome.finished_andThen, Outcome.state_finished]
  have filtered : Intact { checked with
      activeGroups := checked.activeGroups.filter Option.isSome } := by
    refine ⟨kept.nonempty, kept.nodup, kept.inGroup, kept.owner, kept.opened, kept.issued,
      kept.listed, fun other => ?_, kept.distinct.sublist List.filter_sublist, kept.deleted⟩
    rw [← kept.active other]
    simp
  refine ⟨filtered.gone placement ?_, by simp⟩
  · intro group members isList member
    obtain ⟨-, index, past, here⟩ := listed group members isList member
    rw [List.getElem?_eq_none past] at here
    cases here

end Intact

variable {before after : State}

/-- What `JoinGroup.sqf` does on a dedicated server, if it does anything. -/
theorem joinGroup_enter {player : Player} {id : Text} {joined : Group} {members : List Text}
    (isId : player.id = some id) (alive : player.alive = true)
    (isOpen : before.openGroup joined = true) (listed : before.members joined = some members) :
    before.joinGroup none player (some joined) = .finished
      (((before.join id joined).setMembers joined (some (members ++ [id]))).tellLeader id
        false) := by
  have listedHere : (before.join id joined).members joined = some members := listed
  simp only [joinGroup, isId, alive, isOpen, Bool.and_self, if_true, pushMember, listedHere]

theorem joinGroup_cases (intact : Intact before) (player : Player) (group : Option Group) :
    before.joinGroup none player group = .finished before ∨
      ∃ id joined members, player.id = some id ∧ group = some joined ∧ player.alive = true ∧
        before.openGroup joined = true ∧ before.members joined = some members := by
  cases isId : player.id with
  | none => exact Or.inl (by simp only [joinGroup, isId])
  | some id =>
      cases group with
      | none => exact Or.inl (by simp only [joinGroup, isId])
      | some joined =>
          by_cases allowed : (player.alive && before.openGroup joined) = true
          · obtain ⟨alive, isOpen⟩ := (Bool.and_eq_true _ _).mp allowed
            obtain ⟨members, listed⟩ := Option.isSome_iff_exists.mp (intact.opened joined isOpen)
            exact Or.inr ⟨id, joined, members, rfl, rfl, alive, isOpen, listed⟩
          · exact Or.inl (by simp only [joinGroup, isId, if_neg allowed])

def Settled (state : State) : Prop := Intact state ∧ none ∉ state.activeGroups

theorem activeGroups_openOwn (id : Text) (state : State) :
    (state.openOwn id).state.activeGroups = state.activeGroups := by
  unfold openOwn
  dsimp only
  split
  · split <;> rfl
  · rfl

theorem activeGroups_closeGroup (player : Player) (state : State) :
    (state.closeGroup player).state.activeGroups = state.activeGroups := by
  fun_cases State.closeGroup player state <;> rfl

theorem activeGroups_promoteLeader {group : Group} {state promoted : State} {found : Bool}
    (result : state.promoteLeader group = some (promoted, found)) :
    promoted.activeGroups = state.activeGroups := by
  unfold promoteLeader at result
  split at result
  · cases result
  · split at result <;> cases result <;> rfl

theorem activeGroups_leaveGroup (player : Player) (state : State) :
    (state.leaveGroup player).state.activeGroups = state.activeGroups := by
  unfold leaveGroup
  split
  · rfl
  · split
    · dsimp only
      split
      · rfl
      · split
        · refine Outcome.andThen_invariant
            (fun after : State => after.activeGroups = state.activeGroups) ?_ fun _ same => same
          split
          · split
            · rfl
            · next result => exact activeGroups_promoteLeader result
          · rfl
        · rfl
    · rfl

theorem activeGroups_kickPlayer (player kicked : Player) (state : State) :
    (state.kickPlayer player kicked).state.activeGroups = state.activeGroups := by
  fun_cases State.kickPlayer player kicked state <;> rfl

theorem complete_openGroupOf (player : Player) (complete : none ∉ before.activeGroups) :
    none ∉ (before.openGroupOf player).state.activeGroups := by
  unfold openGroupOf
  split
  · exact complete
  · next id _ =>
      split
      · exact complete
      · split
        · rw [activeGroups_openOwn]
          exact complete
        · rw [activeGroups_openOwn]
          change none ∉ before.activeGroups ++ [some ((before.joinNew id).groupOf id)]
          simpa using complete

theorem settled_step {event : Event} (settled : Settled before)
    (clears : Clears before event) (stepped : step before event = some after) :
    Settled after := by
  obtain ⟨intact, complete⟩ := settled
  cases event with
  | openGroup player =>
      cases stepped
      exact ⟨intact.openGroupOf player, complete_openGroupOf player complete⟩
  | closeGroup player =>
      cases stepped
      exact ⟨intact.closeGroup player, activeGroups_closeGroup player before ▸ complete⟩
  | joinGroup player group =>
      cases stepped
      rcases joinGroup_cases intact player group with
        same | ⟨id, joined, members, isId, rfl, alive, isOpen, listed⟩
      · rw [same]
        exact ⟨intact, complete⟩
      · rw [joinGroup_enter isId alive isOpen listed]
        exact ⟨intact.enter listed (clears id isId joined rfl alive isOpen), complete⟩
  | leaveGroup player =>
      cases stepped
      exact ⟨intact.leaveGroup clears, activeGroups_leaveGroup player before ▸ complete⟩
  | kickPlayer player kicked =>
      cases stepped
      exact ⟨intact.kickPlayer player kicked,
        activeGroups_kickPlayer player kicked before ▸ complete⟩
  | groupDisconnect id placement =>
      cases stepped
      exact intact.groupDisconnect complete clears

/-- Whoever is on a list when he joins a group is on two then, or twice on one. -/
theorem unlisted_of_partition (intact : Intact before) {player : Player} {group : Option Group}
    (partition : Partition (before.joinGroup none player group).state) :
    Clears before (.joinGroup player group) := by
  intro id isId joined isGroup alive isOpen other members listed member
  obtain ⟨list, listedHere⟩ := Option.isSome_iff_exists.mp (intact.opened joined isOpen)
  cases Option.mem_def.mp isGroup
  rw [joinGroup_enter isId alive isOpen listedHere] at partition
  have isJoined : Function.update before.members joined (some (list ++ [id])) joined =
      some (list ++ [id]) := Function.update_self _ _ _
  by_cases same : other = joined
  · subst same
    rw [listedHere] at listed
    cases listed
    exact (List.nodup_append.mp (partition.once other _ isJoined)).2.2 id member id (by simp) rfl
  · have isOther : Function.update before.members joined (some (list ++ [id])) other =
        some members := by
      rw [Function.update_of_ne same, listed]
    exact same (partition.one other joined _ _ id isOther isJoined member (by simp))

/-- Whoever leaves a group as its leader and is not stays on the list. -/
theorem asWritten_of_leaves (intact : Intact before) {player : Player}
    (partition : Partition (before.leaveGroup player).state) :
    Clears before (.leaveGroup player) := by
  intro id isId alive members listed member leader isHead same
  obtain ⟨rest, rfl⟩ : ∃ rest, members = leader :: rest := List.head?_eq_some_iff.mp isHead
  by_contra different
  have inRest : id ∈ rest := (List.mem_cons.mp member).resolve_left different
  obtain ⟨next, others, rfl⟩ := List.exists_cons_of_ne_nil (List.ne_nil_of_mem inRest)
  have left : (before.leaveGroup player).state =
      ((((before.setMembers (before.groupOf id) (some (next :: others))).tellLeader next
        true).joinNew id).tellLeader id true) := by
    simp [State.leaveGroup, Option.mem_def.mp isId, alive, listed, member, same, promoteLeader]
  rw [left] at partition
  have now := partition.left (before.groupOf id) (next :: others) id
    (Function.update_self _ _ _) inRest
  have moved : Group.created (before.lastGroup + 1) = before.groupOf id :=
    (Function.update_self id _ before.groupOf).symm.trans now
  exact Nat.not_succ_le_self _ (intact.issued id _ moved.symm)

/-- Whoever disconnects as the leader of a list and is not stays on it. -/
theorem asWritten_of_disconnects (settled : Settled before) {id : Text} {placement : ℕ}
    (partition : Partition ((before.groupDisconnect id).state.gone id placement)) :
    Clears before (.groupDisconnect id placement) := by
  obtain ⟨intact, complete⟩ := settled
  intro group active members listed member leader isHead same
  obtain ⟨rest, rfl⟩ : ∃ rest, members = leader :: rest := List.head?_eq_some_iff.mp isHead
  by_contra different
  have inRest : id ∈ rest := (List.mem_cons.mp member).resolve_left different
  obtain ⟨next, others, rfl⟩ := List.exists_cons_of_ne_nil (List.ne_nil_of_mem inRest)
  obtain ⟨here, isHere⟩ := List.mem_iff_getElem?.mp active
  -- the loop does nothing except at this group, whose list then begins with `next`
  let Inv (done : ℕ) (middle : State) : Prop :=
    middle.deleted = [] ∧ middle.activeGroups = before.activeGroups ∧
      middle.members = if done ≤ here then before.members
        else Function.update before.members group (some (next :: others))
  obtain ⟨checked, ended, -, -, lists⟩ : ∃ checked,
      forEach (State.disconnectFrom id) before.activeGroups.zipIdx before = .finished checked ∧
        Inv before.activeGroups.length checked := by
    refine forEach_zipIdx_finished Inv ?_ ⟨intact.deleted, rfl, by simp⟩
    rintro index slot isSlot middle ⟨deleted, activeGroups, lists⟩
    cases slot with
    | none => exact absurd (List.mem_of_getElem? isSlot) complete
    | some visited =>
        have isNull : visited ∉ middle.deleted := by simp [deleted]
        by_cases now : index = here
        · subst now
          cases Option.some.inj (Option.some.inj (isSlot.symm.trans isHere))
          rw [if_pos le_rfl] at lists
          refine ⟨(middle.setMembers group (some (next :: others))).tellLeader next true, ?_,
            deleted, activeGroups, ?_⟩
          · simp [State.disconnectFrom, isNull, lists, listed, member, same, promoteLeader]
          · rw [if_neg (Nat.not_succ_le_self _), ← lists]
            rfl
        · have apart : visited ≠ group := by
            rintro rfl
            exact now (intact.distinct.index_eq isSlot isHere rfl)
          obtain ⟨list, isList⟩ := Option.isSome_iff_exists.mp
            ((intact.active visited).mp (List.mem_of_getElem? isSlot))
          have isMiddle : middle.members visited = some list := by
            rw [lists]
            split_ifs
            · exact isList
            · rw [Function.update_of_ne apart, isList]
          have notListed : id ∉ list := fun inList =>
            apart ((intact.inGroup visited list id isList inList).symm.trans
              (intact.inGroup group _ id listed member))
          refine ⟨middle, ?_, deleted, activeGroups, ?_⟩
          · simp only [State.disconnectFrom, if_neg isNull, isMiddle, if_neg notListed]
          · rw [lists]
            exact if_congr (by omega) rfl rfl
  have past : ¬ before.activeGroups.length ≤ here :=
    Nat.not_le.mpr (List.getElem?_eq_some_iff.mp isHere).1
  rw [if_neg past] at lists
  unfold State.groupDisconnect at partition
  rw [ended, Outcome.finished_andThen, Outcome.state_finished] at partition
  have now := partition.left group (next :: others) id
    ((congrFun lists group).trans (Function.update_self _ _ _)) inRest
  obtain ⟨number, -, rfl⟩ := intact.listed group (by simp [listed])
  have moved : Group.placed placement = .created number :=
    (Function.update_self id _ checked.groupOf).symm.trans now
  cases moved

theorem clears_of_partition {event : Event} (settled : Settled before)
    (stepped : step before event = some after) (partition : Partition after) :
    Clears before event := by
  cases event with
  | joinGroup player group =>
      cases stepped
      exact unlisted_of_partition settled.1 partition
  | leaveGroup player =>
      cases stepped
      exact asWritten_of_leaves settled.1 partition
  | groupDisconnect id placement =>
      cases stepped
      exact asWritten_of_disconnects settled partition
  | openGroup _ => trivial
  | closeGroup _ => trivial
  | kickPlayer _ _ => trivial

end State

open State

/-- In a run membership is a partition after every step exactly when whoever joins a
group is on no list and whoever leaves one is not taken for its leader. -/
theorem partition_iff (placement : Text → ℕ) (events : List Event) :
    Along step (fun _ _ after => Partition after) (State.initial placement) events ↔
      Along step (fun before event _ => Clears before event) (State.initial placement)
        events := by
  refine along_iff_of_invariant Settled ?_ ?_ ⟨intact_initial placement, List.not_mem_nil⟩ events
  · intro before event after settled clears stepped
    exact settled_step settled clears stepped
  · intro before event after settled stepped
    constructor
    · exact clears_of_partition settled stepped
    · exact fun clears => (settled_step settled clears stepped).1.partition

/-- Two players open groups of their own, and the first joins the second. -/
def joinsSecond : List Event :=
  [.openGroup ⟨some ['1'], true⟩, .openGroup ⟨some ['2'], true⟩,
    .joinGroup ⟨some ['1'], true⟩ (some (.created 2))]

theorem partition_joinsSecond :
    ¬ Along step (fun _ _ after => Partition after) (State.initial fun _ => 0) joinsSecond := by
  intro partition
  have last := (((partition _ rfl).2 _ rfl).2 _ rfl).1
  have same := last.one (.created 1) (.created 2) [['1']] [['2'], ['1']] ['1'] rfl rfl (by simp)
    (by simp)
  exact absurd same (by decide)

end OperationFrontLine.GroupManager
