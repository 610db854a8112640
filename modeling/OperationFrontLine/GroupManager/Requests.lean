import OperationFrontLine.Identity.Tables
import OperationFrontLine.Library.Run
import OperationFrontLine.Library.Script
import OperationFrontLine.Library.Slots

/-!
# The group manager

The server's side of the scripts in `GROUP_MANAGER`.  Players go by the IDs of
their clients.  A request carries units, of which the script sees whether they are
null, dead or without an ID.  `==` compares two IDs without regard to case, `in`
and `-` as they are written.
-/

namespace OperationFrontLine.GroupManager

open OperationFrontLine.Identity (fold)
open OperationFrontLine.Library

/-- A group of the engine: one of the mission, or one created later. -/
inductive Group where
  | placed (index : ℕ)
  | created (number : ℕ)
  deriving DecidableEq, Repr

/-- A unit in a request: the ID of its player, if it has one and is not null, and
whether it is alive. -/
structure Player where
  id : Option Text
  alive : Bool
  deriving DecidableEq, Repr

structure State where
  /-- `group`, for the unit of a player -/
  groupOf : Text → Group
  /-- `OPFL_GROUP` -/
  members : Group → Option (List Text)
  /-- `OPFL_OPEN_GROUP` -/
  openGroup : Group → Bool
  /-- `OPFL_ACTIVE_GROUPS`; `none` stands for the -1 that marks a group as closed. -/
  activeGroups : List (Option Group)
  /-- Groups that `deleteGroup` has made null. -/
  deleted : List Group
  lastGroup : ℕ
  /-- Which of `OPFL_MakeLeader` and `OPFL_NotLeader` was sent to an ID last. -/
  isLeader : Text → Bool

namespace State

def initial (placement : Text → ℕ) : State where
  groupOf id := .placed (placement id)
  members _ := none
  openGroup _ := false
  activeGroups := []
  deleted := []
  lastGroup := 0
  isLeader _ := true

def setMembers (state : State) (group : Group) (members : Option (List Text)) : State :=
  { state with members := Function.update state.members group members }

def setOpen (state : State) (group : Group) (value : Bool) : State :=
  { state with openGroup := Function.update state.openGroup group value }

/-- `[_player] join _group` -/
def join (state : State) (id : Text) (group : Group) : State :=
  { state with groupOf := Function.update state.groupOf id group }

/-- `createGroup`, or the group that `join grpNull` makes. -/
def joinNew (state : State) (id : Text) : State :=
  { state.join id (.created (state.lastGroup + 1)) with lastGroup := state.lastGroup + 1 }

/-- `OPFL_MakeLeader` or `OPFL_NotLeader` sent to a player. -/
def tellLeader (state : State) (id : Text) (leads : Bool) : State :=
  { state with isLeader := Function.update state.isLeader id leads }

/-- `OPFL_PromoteLeader`, with whether there is a new leader; a group without a list
is an error. -/
def promoteLeader (state : State) (group : Group) : Option (State × Bool) :=
  match state.members group with
  | none => none
  | some members =>
      match members.tail with
      | [] => some ((state.setOpen group false).setMembers group none, false)
      | leader :: rest =>
          some ((state.setMembers group (some (leader :: rest))).tellLeader leader true, true)

/-- The end of both branches of `JoinGroup.sqf`; `pushBack` on `nil` is an error. -/
def pushMember (id : Text) (group : Group) (state : State) : Outcome State :=
  match state.members group with
  | none => .stopped state
  | some members =>
      .finished ((state.setMembers group (some (members ++ [id]))).tellLeader id false)

/-- The branch of `JoinGroup.sqf` for a player whose old group has a list. -/
def changeGroup (old group : Group) (grpList : List Text) (id : Text) (state : State) :
    Outcome State :=
  let left : Outcome State :=
    match grpList with
    | [] => .stopped state
    | leader :: _ =>
        if fold id = fold leader then
          match state.promoteLeader old with
          | none => .stopped state
          | some (promoted, true) => .finished (promoted.join id group)
          | some (disbanded, false) =>
              let joined := { disbanded with
                activeGroups := without disbanded.activeGroups (some group) }.join id group
              .finished { joined with deleted := old :: joined.deleted }
        else .finished ((state.setMembers old (some (without grpList id))).join id group)
  left.andThen (pushMember id group)

/-- `OPFL_JoinGroup`; `oldGroup` is `group player`, which is null on a dedicated
server, and a null group has no variables. -/
def joinGroup (oldGroup : Option Group) (player : Player) (group : Option Group)
    (state : State) : Outcome State :=
  match player.id, group with
  | some id, some group =>
      if player.alive && state.openGroup group then
        match oldGroup with
        | none => pushMember id group (state.join id group)
        | some old =>
            match state.members old with
            | none => pushMember id group (state.join id group)
            | some grpList =>
                if old = group then .finished state
                else state.changeGroup old group grpList id
      else .finished state
  | _, _ => .finished state

def createOwn (id : Text) (state : State) : State :=
  let created := state.joinNew id
  let group := created.groupOf id
  let listed := (created.setMembers group (some [id])).tellLeader id true
  { listed with activeGroups := listed.activeGroups ++ [some group] }

/-- The end of `OpenGroup.sqf`: the leader of a list opens the group. -/
def openOwn (id : Text) (state : State) : Outcome State :=
  let group := state.groupOf id
  match state.members group with
  | some (leader :: _) =>
      if fold id = fold leader then .finished (state.setOpen group true) else .finished state
  | _ => .stopped state

def openGroupOf (player : Player) (state : State) : Outcome State :=
  match player.id with
  | none => .finished state
  | some id =>
      if !player.alive || state.openGroup (state.groupOf id) then .finished state
      else
        match state.members (state.groupOf id) with
        | some _ => state.openOwn id
        | none => (state.createOwn id).openOwn id

def closeGroup (player : Player) (state : State) : Outcome State :=
  match player.id with
  | none => .finished state
  | some id =>
      let group := state.groupOf id
      if player.alive && state.openGroup group then
        match state.members group with
        | none => .finished state
        | some [] => .stopped state
        | some (leader :: _) =>
            if fold id = fold leader then .finished (state.setOpen group false)
            else .finished state
      else .finished state

def leaveGroup (player : Player) (state : State) : Outcome State :=
  match player.id with
  | none => .finished state
  | some id =>
      if player.alive then
        let group := state.groupOf id
        match state.members group with
        | none => .finished state
        | some members =>
            if id ∈ members ∧ 1 < members.length then
              let left : Outcome State :=
                if members.head?.map fold = some (fold id) then
                  match state.promoteLeader group with
                  | none => .stopped state
                  | some (promoted, _) => .finished promoted
                else .finished (state.setMembers group (some (without members id)))
              left.andThen fun state => .finished ((state.joinNew id).tellLeader id true)
            else .finished state
      else .finished state

/-- `OPFL_KickPlayer`; the branch for a player who kicks himself cannot be reached
and is left out. -/
def kickPlayer (player kicked : Player) (state : State) : Outcome State :=
  match player.id, kicked.id with
  | some owner, some id =>
      if player.alive && kicked.alive then
        let group := state.groupOf owner
        match state.members group with
        | none => .finished state
        | some members =>
            if 1 < members.length ∧ fold id ≠ fold owner ∧ id ∈ members ∧
                members.head?.map fold = some (fold owner) then
              .finished <|
                ((state.joinNew id).setMembers group (some (without members id))).tellLeader id
                  true
            else .finished state
      else .finished state
  | _, _ => .finished state

/-- The body of the loop of `GroupDisconnect.sqf`. -/
def disconnectFrom (id : Text) (element : Option Group × ℕ) (state : State) : Outcome State :=
  match element.1 with
  | none => .stopped state
  | some group =>
      if group ∈ state.deleted then .finished state
      else
        match state.members group with
        | none => .stopped state
        | some members =>
            if id ∈ members then
              if members.head?.map fold = some (fold id) then
                match state.promoteLeader group with
                | none => .stopped state
                | some (promoted, true) => .finished promoted
                | some (disbanded, false) =>
                    .finished { disbanded with
                      activeGroups := disbanded.activeGroups.set element.2 none }
              else .finished (state.setMembers group (some (without members id)))
            else .finished state

def groupDisconnect (id : Text) (state : State) : Outcome State :=
  (forEach (disconnectFrom id) state.activeGroups.zipIdx state).andThen fun checked =>
    .finished { checked with activeGroups := checked.activeGroups.filter Option.isSome }

/-- The unit of a player who is gone has left its group: whoever comes back under the
ID is in a group of the mission. -/
def gone (id : Text) (placement : ℕ) (state : State) : State :=
  state.join id (.placed placement)

end State

inductive Event where
  | openGroup (player : Player)
  | closeGroup (player : Player)
  | joinGroup (player : Player) (group : Option Group)
  | leaveGroup (player : Player)
  | kickPlayer (player kicked : Player)
  | groupDisconnect (id : Text) (placement : ℕ)

def step (state : State) : Event → Option State
  | .openGroup player => some (state.openGroupOf player).state
  | .closeGroup player => some (state.closeGroup player).state
  | .joinGroup player group => some (state.joinGroup none player group).state
  | .leaveGroup player => some (state.leaveGroup player).state
  | .kickPlayer player kicked => some (state.kickPlayer player kicked).state
  | .groupDisconnect id placement => some ((state.groupDisconnect id).state.gone id placement)

end OperationFrontLine.GroupManager
