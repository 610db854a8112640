import OperationFrontLine.Library.Counting
import OperationFrontLine.Routing.Session

/-!
# What a session still has to do

Two amounts are followed through a session: how often a broadcast has run its function on a
machine or still will, which no step but the broadcast itself changes, and the work that is
left, which every other step lessens by one.
-/

namespace OperationFrontLine.Routing

open OperationFrontLine.Library

universe u v

variable {Client : Type u} {Object : Type v}

/-- What the tasks and the packets that are left amount to. -/
structure Weight (Client : Type u) (Object : Type v) where
  task : Machine Client → Tagged (Task Object) → ℕ
  message : Tagged (Message Client Object) → ℕ

namespace Network

variable (network : Network Client Object)

theorem mem_machines (machine : Machine Client) : machine ∈ network.machines := by
  cases machine with
  | server => exact List.mem_cons_self
  | client client =>
      exact List.mem_cons_of_mem _ (List.mem_map_of_mem (network.clients_complete client))

theorem machines_nodup : network.machines.Nodup := by
  refine List.nodup_cons.mpr ⟨by simp, ?_⟩
  exact network.clients_nodup.map fun first second same => Machine.client.inj same

def queued (weight : Weight Client Object) (queues : Machine Client → List (Tagged (Task Object))) :
    ℕ :=
  (network.machines.map fun machine => ((queues machine).map (weight.task machine)).sum).sum

def total (weight : Weight Client Object) (state : State Client Object) : ℕ :=
  network.queued weight state.cpq + network.queued weight state.spawned +
    (state.flight.map weight.message).sum

variable [DecidableEq Client] (weight : Weight Client Object)

theorem queued_update (queues : Machine Client → List (Tagged (Task Object)))
    (machine : Machine Client) (queue : List (Tagged (Task Object))) :
    network.queued weight (Function.update queues machine queue) +
        ((queues machine).map (weight.task machine)).sum =
      network.queued weight queues + (queue.map (weight.task machine)).sum :=
  sum_map_update (fun machine queue => (queue.map (weight.task machine)).sum) queues
    network.machines_nodup (network.mem_machines machine) queue

def added (here : Machine Client) (broadcast : ℕ) : Action Object → ℕ
  | .spawn task | .spawnAtomic task => weight.task here ⟨broadcast, task⟩
  | .call (.run _ _) => 0
  | .call (.sendData data type atomic pipe) =>
      ((network.sendData here data type atomic pipe).map fun message =>
        weight.message ⟨broadcast, message⟩).sum

theorem total_callFnc (here : Machine Client) (broadcast : ℕ) (state : State Client Object)
    (task : Task Object) :
    network.total weight (network.callFnc here broadcast state task) =
      network.total weight state + network.added weight here broadcast (.call task) := by
  cases task with
  | run scriptArguments scriptEx =>
      rw [callFnc]
      split <;> rfl
  | sendData data type atomic pipe =>
      simp only [callFnc, total, added, List.map_append, List.sum_append, List.map_map,
        Function.comp_def]
      omega

theorem total_perform (here : Machine Client) (broadcast : ℕ) (state : State Client Object)
    (action : Action Object) :
    network.total weight (network.perform here broadcast state action) =
      network.total weight state + network.added weight here broadcast action := by
  cases action with
  | spawn task =>
      have queued := network.queued_update weight state.spawned here
        (state.spawned here ++ [⟨broadcast, task⟩])
      simp only [List.map_append, List.map_cons, List.map_nil, List.sum_append, List.sum_cons,
        List.sum_nil] at queued
      simp only [perform, total, added]
      omega
  | spawnAtomic task =>
      have queued := network.queued_update weight state.cpq here
        (state.cpq here ++ [⟨broadcast, task⟩])
      simp only [List.map_append, List.map_cons, List.map_nil, List.sum_append, List.sum_cons,
        List.sum_nil] at queued
      simp only [perform, total, added]
      omega
  | call task => exact network.total_callFnc weight here broadcast state task

theorem total_performAll (here : Machine Client) (broadcast : ℕ) (state : State Client Object)
    (actions : List (Action Object)) :
    network.total weight (network.performAll here broadcast state actions) =
      network.total weight state + (actions.map (network.added weight here broadcast)).sum := by
  induction actions generalizing state with
  | nil => rfl
  | cons action rest inductionHypothesis =>
      have first := network.total_perform weight here broadcast state action
      have others := inductionHypothesis (network.perform here broadcast state action)
      simp only [performAll, List.foldl_cons, List.map_cons, List.sum_cons] at others ⊢
      omega

/-- How a step changes what is left: it takes away a task or a packet and adds what the
actions add that come of it. -/
inductive Changed (before after : State Client Object) : Event Client Object → Prop where
  | broadcast (broadcast : Broadcast Client Object)
      (now : after = network.performAll broadcast.sender before.broadcasts.length
        { before with broadcasts := before.broadcasts ++ [broadcast] }
        (network.actions broadcast)) :
      Changed before after (.broadcast broadcast)
  | job {event : Event Client Object} (internal : event.internal) (machine : Machine Client)
      (job : Tagged (Task Object)) (middle : State Client Object)
      (now : after = network.callFnc machine job.broadcast middle job.content)
      (sameBroadcasts : middle.broadcasts = before.broadcasts)
      (sameExecuted : middle.executed = before.executed)
      (less : ∀ weight : Weight Client Object,
        network.total weight middle + weight.task machine job = network.total weight before) :
      Changed before after event
  | message {event : Event Client Object} (internal : event.internal)
      (message : Tagged (Message Client Object)) (middle : State Client Object)
      (now : after = network.performAll message.content.receiver message.broadcast middle
        (network.handle message.content))
      (sameBroadcasts : middle.broadcasts = before.broadcasts)
      (sameExecuted : middle.executed = before.executed)
      (less : ∀ weight : Weight Client Object,
        network.total weight middle + weight.message message = network.total weight before) :
      Changed before after event

theorem step_changed {before after : State Client Object} {event : Event Client Object}
    (stepped : network.step before event = some after) : network.Changed before after event := by
  cases event with
  | broadcast broadcast =>
      simp only [step, Option.some.injEq] at stepped
      exact .broadcast broadcast stepped.symm
  | frame machine =>
      simp only [step] at stepped
      split at stepped
      · cases stepped
      · rename_i job rest queue
        cases stepped
        refine .job rfl machine job _ rfl rfl rfl fun weight => ?_
        have queued := network.queued_update weight before.cpq machine rest
        simp only [queue, List.map_cons, List.sum_cons] at queued
        simp only [total]
        omega
  | schedule machine index =>
      simp only [step] at stepped
      split at stepped
      · cases stepped
      · rename_i job found
        cases stepped
        refine .job rfl machine job _ rfl rfl rfl fun weight => ?_
        have queued := network.queued_update weight before.spawned machine
          ((before.spawned machine).eraseIdx index)
        have erased := sum_map_eraseIdx (weight.task machine) found
        simp only [total]
        omega
  | deliver index =>
      simp only [step] at stepped
      split at stepped
      · cases stepped
      · rename_i message found
        cases stepped
        refine .message rfl message _ rfl rfl rfl fun weight => ?_
        have erased := sum_map_eraseIdx weight.message found
        simp only [total]
        omega

end Network

end OperationFrontLine.Routing
