import OperationFrontLine.Routing.Account

/-!
# Where broadcasts land

A packet that a handler relays is published under a name without a handler, so a broadcast
runs its function only where its own packets arrive and, on the machine that makes it, where
it does so itself.  When nothing is left to be done, it has run it exactly there.
-/

namespace OperationFrontLine.Routing

open OperationFrontLine.Library

universe u v

variable {Client : Type u} {Object : Type v}

namespace Network

variable (network : Network Client Object) [DecidableEq Client]

theorem pipe_of_mem_publicVariable {here : Machine Client} {pipe : Pipe}
    {value : List (Value Object)} {message : Message Client Object}
    (member : message ∈ network.publicVariable here pipe value) : message.pipe = pipe := by
  obtain ⟨machine, -, rfl⟩ := List.mem_map.mp member
  rfl

omit [DecidableEq Client] in
theorem pipe_of_mem_publicVariableServer {pipe : Pipe} {value : List (Value Object)}
    {message : Message Client Object} (member : message ∈ publicVariableServer pipe value) :
    message.pipe = pipe := by
  obtain rfl := List.mem_singleton.mp member
  rfl

omit [DecidableEq Client] in
theorem pipe_of_mem_publicVariableClient {temp : ℤ} {pipe : Pipe} {value : List (Value Object)}
    {message : Message Client Object}
    (member : message ∈ network.publicVariableClient temp pipe value) : message.pipe = pipe := by
  obtain ⟨client, -, rfl⟩ := List.mem_map.mp member
  rfl

theorem pipe_of_mem_sendData {here : Machine Client} {data : List (Value Object)}
    {type : AddressType} {atomic : Bool} {pipe : Option Pipe} {message : Message Client Object}
    (member : message ∈ network.sendData here data type atomic pipe) :
    message.pipe = .ofOption atomic pipe := by
  simp only [sendData] at member
  split at member
  · split at member
    · cases member
    · exact pipe_of_mem_publicVariableServer member
  · exact network.pipe_of_mem_publicVariable member
  · split at member
    · exact network.pipe_of_mem_publicVariable member
    · exact pipe_of_mem_publicVariableServer member
  all_goals
    split at member
    · split at member
      · exact network.pipe_of_mem_publicVariableClient member
      · cases member
    · exact pipe_of_mem_publicVariableServer member

/-- What is published without a pipe of its own has no handler anywhere. -/
theorem handle_of_mem_sendData {here : Machine Client} {data : List (Value Object)}
    {type : AddressType} {atomic : Bool} {message : Message Client Object}
    (member : message ∈ network.sendData here data type atomic none) :
    network.handle message = [] := by
  have pipe := network.pipe_of_mem_sendData member
  cases atomic with
  | false => rw [handle, pipe, Pipe.ofOption, if_neg Bool.false_ne_true]
  | true => rw [handle, pipe, Pipe.ofOption, if_pos rfl]

/-- What a handler does: it runs a function or relays the packet without its pipe. -/
inductive Handled : Action Object → Prop where
  | execute (atomic : Bool) (scriptArguments scriptEx : Value Object) :
      Handled (.ofHandler atomic (.run scriptArguments scriptEx))
  | relay (data : List (Value Object)) (type : AddressType) (atomic : Bool) :
      Handled (.call (.sendData data type atomic none))

theorem handler_handled {atomic : Bool} {here : Machine Client} {value : List (Value Object)}
    {action : Action Object} (member : action ∈ network.handler atomic here value) :
    Handled action := by
  simp only [handler] at member
  split at member
  · obtain rfl := List.mem_singleton.mp member
    exact .execute _ _ _
  · split at member
    · split at member
      · rcases List.mem_pair.mp member with rfl | rfl
        · exact .relay _ _ _
        · exact .execute _ _ _
      · obtain rfl := List.mem_singleton.mp member
        exact .execute _ _ _
    · obtain rfl := List.mem_singleton.mp member
      exact .relay _ _ _

theorem handle_handled {message : Message Client Object} {action : Action Object}
    (member : action ∈ network.handle message) : Handled action := by
  unfold handle at member
  split at member
  · exact network.handler_handled member
  · exact network.handler_handled member
  · cases member
  · cases member

abbrev Counted (Object : Type v) := Value Object → ℤ → Bool

variable (counted : Counted Object)

/-- Whether running this makes a function run on this machine. -/
def lands (target here : Machine Client) (scriptArguments scriptEx : Value Object) : ℕ :=
  if here = target ∧ (network.resolve scriptEx).any (counted scriptArguments) then 1 else 0

/-- The same for a task of a handler, which sends nothing that is handled. -/
def handledLands (target here : Machine Client) : Task Object → ℕ
  | .run scriptArguments scriptEx => network.lands counted target here scriptArguments scriptEx
  | .sendData .. => 0

/-- How often a packet makes a function run on this machine where it arrives. -/
def messageLands (target : Machine Client) (message : Message Client Object) : ℕ :=
  ((network.handle message).map fun action =>
    network.handledLands counted target message.receiver action.task).sum

/-- How often a task makes a function run on this machine. -/
def taskLands (target here : Machine Client) : Task Object → ℕ
  | .run scriptArguments scriptEx => network.lands counted target here scriptArguments scriptEx
  | .sendData data type atomic pipe =>
      ((network.sendData here data type atomic pipe).map (network.messageLands counted target)).sum

/-- How often what is left of the broadcast with this number makes its function run on this
machine. -/
def landing (number : ℕ) (target : Machine Client) : Weight Client Object where
  task here job :=
    if job.broadcast = number then network.taskLands counted target here job.content else 0
  message message :=
    if message.broadcast = number then network.messageLands counted target message.content else 0

def executions (number : ℕ) (target : Machine Client) (state : State Client Object) : ℕ :=
  state.executed.countP fun execution =>
    execution.broadcast = number ∧ execution.machine = target ∧
      counted execution.scriptArguments execution.function

def account (number : ℕ) (target : Machine Client) (state : State Client Object) : ℕ :=
  executions counted number target state +
    network.total (network.landing counted number target) state

theorem taskLands_of_handled {target here : Machine Client} {action : Action Object}
    (handled : Handled action) :
    network.taskLands counted target here action.task =
      network.handledLands counted target here action.task := by
  cases handled with
  | execute atomic scriptArguments scriptEx => cases atomic <;> rfl
  | relay data type atomic =>
      refine List.sum_eq_zero fun amount member => ?_
      obtain ⟨message, sent, rfl⟩ := List.mem_map.mp member
      rw [messageLands, network.handle_of_mem_sendData sent, List.map_nil, List.sum_nil]

theorem messageLands_eq (target : Machine Client) (message : Message Client Object) :
    network.messageLands counted target message = ((network.handle message).map fun action =>
      network.taskLands counted target message.receiver action.task).sum := by
  rw [messageLands]
  congr 1
  exact List.map_congr_left fun action member =>
    (network.taskLands_of_handled counted (network.handle_handled member)).symm

theorem executions_run (number : ℕ) (target here : Machine Client) (broadcast : ℕ)
    (state : State Client Object) (scriptArguments scriptEx : Value Object) :
    executions counted number target
        (network.callFnc here broadcast state (.run scriptArguments scriptEx)) =
      executions counted number target state +
        if broadcast = number then
          network.lands counted target here scriptArguments scriptEx else 0 := by
  rw [callFnc]
  split
  · rename_i function resolved
    by_cases same : broadcast = number
    · simp [executions, lands, resolved, same, List.countP_singleton]
    · simp [executions, same]
  · rename_i unresolved
    simp [lands, unresolved]

theorem account_perform (number : ℕ) (target here : Machine Client) (broadcast : ℕ)
    (state : State Client Object) (action : Action Object) :
    network.account counted number target (network.perform here broadcast state action) =
      network.account counted number target state +
        if broadcast = number then network.taskLands counted target here action.task else 0 := by
  have left := network.total_perform (network.landing counted number target) here broadcast state
    action
  cases action with
  | spawn task | spawnAtomic task =>
      rw [account, left]
      exact (Nat.add_assoc _ _ _).symm
  | call task =>
      cases task with
      | run scriptArguments scriptEx =>
          have run := network.executions_run counted number target here broadcast state
            scriptArguments scriptEx
          simp only [account, perform, Action.task, taskLands, added] at left ⊢
          omega
      | sendData data type atomic pipe =>
          have sent : network.added (network.landing counted number target) here broadcast
              (.call (.sendData data type atomic pipe)) =
              if broadcast = number then
                network.taskLands counted target here (.sendData data type atomic pipe) else 0 := by
            by_cases same : broadcast = number <;> simp [added, landing, taskLands, same]
          rw [account, left, sent]
          exact (Nat.add_assoc _ _ _).symm

theorem account_performAll (number : ℕ) (target here : Machine Client) (broadcast : ℕ)
    (state : State Client Object) (actions : List (Action Object)) :
    network.account counted number target (network.performAll here broadcast state actions) =
      network.account counted number target state +
        if broadcast = number then
          (actions.map fun action => network.taskLands counted target here action.task).sum
        else 0 := by
  induction actions generalizing state with
  | nil => simp [performAll]
  | cons action rest inductionHypothesis =>
      have first := network.account_perform counted number target here broadcast state action
      have others := inductionHypothesis (network.perform here broadcast state action)
      simp only [performAll, List.foldl_cons, List.map_cons, List.sum_cons] at others ⊢
      rw [others, first]
      split <;> omega

theorem callFnc_broadcasts (here : Machine Client) (broadcast : ℕ)
    (state : State Client Object) (task : Task Object) :
    (network.callFnc here broadcast state task).broadcasts = state.broadcasts := by
  cases task with
  | run scriptArguments scriptEx =>
      rw [callFnc]
      split <;> rfl
  | sendData data type atomic pipe => rfl

theorem performAll_broadcasts (here : Machine Client) (broadcast : ℕ)
    (state : State Client Object) (actions : List (Action Object)) :
    (network.performAll here broadcast state actions).broadcasts = state.broadcasts := by
  induction actions generalizing state with
  | nil => rfl
  | cons action rest inductionHypothesis =>
      have first : (network.perform here broadcast state action).broadcasts = state.broadcasts := by
        cases action with
        | spawn task => rfl
        | spawnAtomic task => rfl
        | call task => exact network.callFnc_broadcasts here broadcast state task
      rw [← first]
      exact inductionHypothesis (network.perform here broadcast state action)

/-- How often a broadcast makes a function run on this machine. -/
def reached (target : Machine Client) (broadcast : Broadcast Client Object) : ℕ :=
  ((network.actions broadcast).map fun action =>
    network.taskLands counted target broadcast.sender action.task).sum

/-- Every broadcast has run its function, or still will, as often as it does on its own. -/
def Accounted (state : State Client Object) : Prop :=
  ∀ number target, network.account counted number target state =
    (state.broadcasts[number]?.map (network.reached counted target)).getD 0

theorem accounted_initial : network.Accounted counted .initial := by
  intro number target
  simp [account, executions, total, queued, State.initial]

theorem step_accounted {before after : State Client Object} {event : Event Client Object}
    (accounted : network.Accounted counted before)
    (stepped : network.step before event = some after) : network.Accounted counted after := by
  intro number target
  have amount := accounted number target
  cases network.step_changed stepped with
  | broadcast broadcast now =>
      subst now
      have started : network.account counted number target
          { before with broadcasts := before.broadcasts ++ [broadcast] } =
          network.account counted number target before := rfl
      rw [account_performAll, performAll_broadcasts, started, amount]
      rcases lt_trichotomy number before.broadcasts.length with earlier | rfl | later
      · rw [List.getElem?_append_left earlier, if_neg (by omega), Nat.add_zero]
      · simp [reached]
      · have missing : before.broadcasts[number]? = none := List.getElem?_eq_none (by omega)
        have still : (before.broadcasts ++ [broadcast])[number]? = none :=
          List.getElem?_eq_none (by simp; omega)
        rw [missing, still, if_neg (by omega), Nat.add_zero]
  | job internal machine job middle now sameBroadcasts sameExecuted less =>
      subst now
      have ran := network.account_perform counted number target machine job.broadcast middle
        (.call job.content)
      have left := less (network.landing counted number target)
      have same : executions counted number target middle =
          executions counted number target before := by rw [executions, sameExecuted]; rfl
      simp only [perform, Action.task] at ran
      rw [callFnc_broadcasts, sameBroadcasts, ← amount, ran, account, account, same, ← left]
      simp only [landing]
      omega
  | message internal message middle now sameBroadcasts sameExecuted less =>
      subst now
      have left := less (network.landing counted number target)
      have same : executions counted number target middle =
          executions counted number target before := by rw [executions, sameExecuted]; rfl
      rw [performAll_broadcasts, sameBroadcasts, ← amount, account_performAll, ← messageLands_eq,
        account, account, same, ← left]
      simp only [landing]
      omega

theorem run_accounted {events : List (Event Client Object)} {state : State Client Object}
    (ran : run network.step .initial events = some state) : network.Accounted counted state :=
  run_invariant (network.Accounted counted)
    (fun _ _ _ accounted stepped => network.step_accounted counted accounted stepped)
    (network.accounted_initial counted) ran

theorem executions_of_settled {events : List (Event Client Object)} {state : State Client Object}
    (ran : run network.step .initial events = some state) (settled : state.Settled)
    {number : ℕ} {broadcast : Broadcast Client Object}
    (made : state.broadcasts[number]? = some broadcast) (target : Machine Client) :
    executions counted number target state = network.reached counted target broadcast := by
  have amount := network.run_accounted counted ran number target
  have nothing : network.total (network.landing counted number target) state = 0 := by
    simp [total, queued, settled.cpq, settled.spawned, settled.flight]
  rw [account, nothing, made] at amount
  exact amount

end Network

end OperationFrontLine.Routing
