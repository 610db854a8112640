import OperationFrontLine.Routing.Delivery

/-!
# Sessions settle

Without new broadcasts a session comes to an end: every step does one piece of the work that
is left, and while something is left some step is enabled.
-/

namespace OperationFrontLine.Routing

open OperationFrontLine.Library

universe u v

variable {Client : Type u} {Object : Type v}

namespace Network

variable (network : Network Client Object) [DecidableEq Client]

def actionWork (here : Machine Client) : Action Object → ℕ
  | .spawn _ | .spawnAtomic _ => 1
  | .call (.run _ _) => 0
  | .call (.sendData data type atomic pipe) =>
      (network.sendData here data type atomic pipe).length

/-- A packet arrives, and what its handler does is left. -/
def messageWork (message : Message Client Object) : ℕ :=
  1 + ((network.handle message).map (network.actionWork message.receiver)).sum

def work : Weight Client Object where
  task here
    | ⟨_, .run _ _⟩ => 1
    | ⟨_, .sendData data type atomic pipe⟩ =>
        1 + ((network.sendData here data type atomic pipe).map network.messageWork).sum
  message message := network.messageWork message.content

theorem added_work_of_handled {here : Machine Client} {broadcast : ℕ} {action : Action Object}
    (handled : Handled action) :
    network.added network.work here broadcast action = network.actionWork here action := by
  cases handled with
  | execute atomic scriptArguments scriptEx => cases atomic <;> rfl
  | relay data type atomic =>
      have single (message : Message Client Object)
          (sent : message ∈ network.sendData here data type atomic none) :
          network.messageWork message = 1 := by
        rw [messageWork, network.handle_of_mem_sendData sent, List.map_nil, List.sum_nil,
          Nat.add_zero]
      have amounts : (network.sendData here data type atomic none).map network.messageWork =
          (network.sendData here data type atomic none).map fun _ => 1 :=
        List.map_congr_left single
      simp only [added, work, actionWork, amounts, List.map_const', List.sum_replicate,
        smul_eq_mul, Nat.mul_one]

theorem step_work {before after : State Client Object} {event : Event Client Object}
    (internal : event.internal) (stepped : network.step before event = some after) :
    network.total network.work after + 1 = network.total network.work before := by
  cases network.step_changed stepped with
  | broadcast broadcast now => cases internal
  | job _ machine job middle now _ _ less =>
      have left := less network.work
      obtain ⟨number, task⟩ := job
      have done : network.added network.work machine number (.call task) + 1 =
          network.work.task machine ⟨number, task⟩ := by
        cases task with
        | run scriptArguments scriptEx => rfl
        | sendData data type atomic pipe => exact Nat.add_comm _ _
      rw [now, total_callFnc, ← left, ← done]
      exact Nat.add_assoc _ _ _
  | message _ message middle now _ _ less =>
      have left := less network.work
      have amounts : (network.handle message.content).map
          (network.added network.work message.content.receiver message.broadcast) =
          (network.handle message.content).map (network.actionWork message.content.receiver) :=
        List.map_congr_left fun action member =>
          network.added_work_of_handled (network.handle_handled member)
      rw [now, total_performAll, ← left, amounts]
      simp only [work, messageWork]
      omega

theorem run_work {before after : State Client Object} {events : List (Event Client Object)}
    (internal : ∀ event ∈ events, event.internal)
    (ran : run network.step before events = some after) :
    network.total network.work after + events.length = network.total network.work before := by
  induction events generalizing before with
  | nil =>
      cases ran
      rfl
  | cons event rest inductionHypothesis =>
      obtain ⟨next, stepped, continued⟩ := Option.bind_eq_some_iff.mp ran
      have first := network.step_work (internal event List.mem_cons_self) stepped
      have others := inductionHypothesis
        (fun other member => internal other (List.mem_cons_of_mem _ member)) continued
      rw [List.length_cons]
      omega

theorem settled_or_enabled (state : State Client Object) :
    state.Settled ∨
      ∃ event next, event.internal ∧ network.step state event = some next := by
  by_cases cpq : ∀ machine, state.cpq machine = []
  · by_cases spawned : ∀ machine, state.spawned machine = []
    · cases flight : state.flight with
      | nil => exact .inl ⟨cpq, spawned, flight⟩
      | cons message rest => exact .inr ⟨.deliver 0, _, rfl, by simp [step, flight]; rfl⟩
    · obtain ⟨machine, waiting⟩ := not_forall.mp spawned
      obtain ⟨job, rest, queue⟩ := List.exists_cons_of_ne_nil waiting
      exact .inr ⟨.schedule machine 0, _, rfl, by simp [step, queue]; rfl⟩
  · obtain ⟨machine, waiting⟩ := not_forall.mp cpq
    obtain ⟨job, rest, queue⟩ := List.exists_cons_of_ne_nil waiting
    exact .inr ⟨.frame machine, _, rfl, by simp [step, queue]; rfl⟩

theorem settles (state : State Client Object) :
    ∃ events finish, (∀ event ∈ events, event.internal) ∧
      run network.step state events = some finish ∧ finish.Settled := by
  induction left : network.total network.work state generalizing state with
  | zero =>
      rcases network.settled_or_enabled state with settled | ⟨event, next, internal, stepped⟩
      · exact ⟨[], state, by simp, rfl, settled⟩
      · have done := network.step_work internal stepped
        omega
  | succ amount inductionHypothesis =>
      rcases network.settled_or_enabled state with settled | ⟨event, next, internal, stepped⟩
      · exact ⟨[], state, by simp, rfl, settled⟩
      · have done := network.step_work internal stepped
        obtain ⟨events, finish, internals, ran, settled⟩ := inductionHypothesis next (by omega)
        refine ⟨event :: events, finish, ?_, ?_, settled⟩
        · exact List.forall_mem_cons.mpr ⟨internal, internals⟩
        · rw [run_cons, stepped]
          exact ran

end Network

end OperationFrontLine.Routing
