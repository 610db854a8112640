import OperationFrontLine.Routing.Settling

/-!
# What broadcasts reach

Where a broadcast makes its function run, for every sender and every address, and when these
are the machines that it addresses.
-/

namespace OperationFrontLine.Routing

open OperationFrontLine.Library
open OperationFrontLine.Identity (fold)

universe u v

variable {Client : Type u} {Object : Type v}

@[simp]
theorem Action.ofHandler_task (atomic : Bool) (task : Task Object) :
    (Action.ofHandler atomic task).task = task := by
  cases atomic <;> rfl

@[simp]
theorem Action.ofBroadcast_task (atomic : Bool) (task : Task Object) :
    (Action.ofBroadcast atomic task).task = task := by
  cases atomic <;> rfl

/-- Without the mark the packet has lost its address, and the arguments as well if they are
the number -1. -/
theorem Value.withoutMinusOne_packet (scriptArguments : Value Object) (number : ℕ) :
    Value.withoutMinusOne [scriptArguments, .scalar number, .scalar (-1)] =
      if scriptArguments.isMinusOne then [.scalar number]
      else [scriptArguments, .scalar number] := by
  have kept : (Value.scalar number : Value Object).isMinusOne = false := by
    simp only [Value.isMinusOne, decide_eq_false_iff_not]
    omega
  have removed : (Value.scalar (-1) : Value Object).isMinusOne = true := rfl
  cases minusOne : scriptArguments.isMinusOne <;>
    simp [Value.withoutMinusOne, minusOne, kept, removed]

theorem Value.object_ne_nil (object : Object) : Value.object object ≠ .nil := by
  simp

namespace Network

variable (network : Network Client Object) [DecidableEq Client] (counted : Counted Object)

/-- A handler runs the function of a packet without an address, or with its machine's own. -/
def takes (receiver : Machine Client) : Value Object → Bool
  | .nil => true
  | address => network.isMe receiver address

theorem handlerLands (atomic : Bool) (target receiver : Machine Client)
    (value : List (Value Object)) :
    ((network.handler atomic receiver value).map fun action =>
        network.handledLands counted target receiver action.task).sum =
      if network.takes receiver (Value.select value 2) then
        network.lands counted target receiver (Value.select value 0) (Value.select value 1)
      else 0 := by
  have relayed (type : AddressType) : network.handledLands counted target receiver
      (Action.call (.sendData value type atomic none)).task = 0 := rfl
  have ran : network.handledLands counted target receiver
      (.run (Value.select value 0) (Value.select value 1)) =
      network.lands counted target receiver (Value.select value 0) (Value.select value 1) := rfl
  simp only [handler]
  cases address : Value.select value 2 with
  | nil =>
      simp only [takes, List.map_cons, List.map_nil, List.sum_singleton, Action.ofHandler_task, ran,
        if_true]
  | scalar | string | object | array =>
      simp only [takes, relayType]
      split <;> rename_i me <;> simp [relayed, ran, me]

/-- A packet on one of the two pipes makes its function run where it is taken. -/
theorem messageLands_key (target receiver : Machine Client) (key : Key)
    (value : List (Value Object)) :
    network.messageLands counted target ⟨receiver, key.pipe, value⟩ =
      if network.takes receiver (Value.select value 2) then
        network.lands counted target receiver (Value.select value 0) (Value.select value 1)
      else 0 := by
  cases key with
  | a => exact network.handlerLands counted false target receiver value
  | b => exact network.handlerLands counted true target receiver value

theorem lands_of_ne {target here : Machine Client} (different : here ≠ target)
    (scriptArguments scriptEx : Value Object) :
    network.lands counted target here scriptArguments scriptEx = 0 :=
  if_neg fun landing => different landing.1

theorem messageLands_of_ne {target receiver : Machine Client} (different : receiver ≠ target)
    (pipe : Pipe) (value : List (Value Object)) :
    network.messageLands counted target ⟨receiver, pipe, value⟩ = 0 := by
  refine List.sum_eq_zero fun amount member => ?_
  obtain ⟨action, -, rfl⟩ := List.mem_map.mp member
  cases action.task with
  | run scriptArguments scriptEx => exact network.lands_of_ne counted different _ _
  | sendData => rfl

theorem publicVariable_lands (target here : Machine Client) (pipe : Pipe)
    (value : List (Value Object)) :
    ((network.publicVariable here pipe value).map (network.messageLands counted target)).sum =
      if target = here then 0 else network.messageLands counted target ⟨target, pipe, value⟩ := by
  rw [publicVariable, List.map_map, Function.comp_def,
    List.sum_map_eq_nsmul_single target _ fun machine different _ =>
      network.messageLands_of_ne counted different pipe value,
    List.Nodup.count (network.machines_nodup.filter _)]
  by_cases same : target = here
  · simp [same]
  · simp [same, network.mem_machines target]

theorem publicVariableServer_lands (target : Machine Client) (pipe : Pipe)
    (value : List (Value Object)) :
    ((publicVariableServer pipe value).map (network.messageLands counted target)).sum =
      network.messageLands counted target ⟨.server, pipe, value⟩ :=
  Nat.add_zero _

def hasNumber (temp : ℤ) : Machine Client → Bool
  | .server => false
  | .client client => (network.owner client : ℤ) = temp

/-- What is published for one client reaches the one with that number. -/
theorem publicVariableClient_lands (target : Machine Client) (temp : ℤ) (pipe : Pipe)
    (value : List (Value Object)) :
    ((network.publicVariableClient temp pipe value).map (network.messageLands counted target)).sum =
      if network.hasNumber temp target then
        network.messageLands counted target ⟨target, pipe, value⟩
      else 0 := by
  cases target with
  | server =>
      refine List.sum_eq_zero fun amount member => ?_
      obtain ⟨message, sent, rfl⟩ := List.mem_map.mp member
      obtain ⟨client, -, rfl⟩ := List.mem_map.mp sent
      have different : Machine.client client ≠ .server := by simp
      exact network.messageLands_of_ne counted different pipe value
  | client target =>
      have others (client : Client) (different : client ≠ target) :
          network.messageLands counted (.client target) ⟨.client client, pipe, value⟩ = 0 :=
        network.messageLands_of_ne counted (fun same => different (Machine.client.inj same)) pipe
          value
      rw [publicVariableClient, List.map_map, Function.comp_def,
        List.sum_map_eq_nsmul_single target _ fun client different _ => others client different,
        List.Nodup.count (network.clients_nodup.filter _)]
      by_cases same : (network.owner target : ℤ) = temp
      · simp [hasNumber, same, network.clients_complete target]
      · simp [hasNumber, same]

variable (target receiver : Machine Client) (key : Key) (scriptArguments : Value Object)
  (number : ℕ)

theorem lands_number :
    network.lands counted target receiver scriptArguments (.scalar number) =
      if receiver = target ∧ counted scriptArguments number then 1 else 0 := rfl

theorem messageLands_packet :
    network.messageLands counted target
        ⟨receiver, key.pipe, [scriptArguments, .scalar number]⟩ =
      network.lands counted target receiver scriptArguments (.scalar number) :=
  network.messageLands_key counted target receiver key _

theorem messageLands_withoutMinusOne :
    network.messageLands counted target
        ⟨receiver, key.pipe,
          Value.withoutMinusOne [scriptArguments, .scalar number, .scalar (-1)]⟩ =
      if scriptArguments.isMinusOne then 0
      else network.lands counted target receiver scriptArguments (.scalar number) := by
  rw [Value.withoutMinusOne_packet, messageLands_key]
  cases scriptArguments.isMinusOne with
  | false => rfl
  | true =>
      -- the number of the function has taken the place of the arguments, and has left its own
      have nothing (here : Machine Client) (given : Value Object) :
          network.lands counted target here given .nil = 0 := by simp [lands, resolve]
      simp [Value.select, takes, nothing]

theorem messageLands_addressed {address : Value Object} (present : address ≠ .nil) :
    network.messageLands counted target
        ⟨receiver, key.pipe, [scriptArguments, .scalar number, address]⟩ =
      if network.isMe receiver address then
        network.lands counted target receiver scriptArguments (.scalar number)
      else 0 := by
  have takes : network.takes receiver address = network.isMe receiver address := by
    cases address with
    | nil => exact absurd rfl present
    | scalar | string | object | array => rfl
  rw [messageLands_key, ← takes]
  rfl

variable {atomic : Bool} {address : Value Object}

/-- The server's packets for everyone, and those for the server, are published without -1. -/
theorem sendData_all_lands (here : Machine Client) :
    network.taskLands counted target here
        (.sendData [scriptArguments, .scalar number, address] .all atomic (some key.pipe)) =
      if (target ≠ here ∧ scriptArguments.isMinusOne = false) ∧ counted scriptArguments number
      then 1 else 0 := by
  have sent : network.sendData here [scriptArguments, .scalar number, address] .all atomic
      (some key.pipe) = network.publicVariable here key.pipe
        (Value.withoutMinusOne [scriptArguments, .scalar number, .scalar (-1)]) := rfl
  rw [taskLands, sent, publicVariable_lands, messageLands_withoutMinusOne, lands_number]
  by_cases same : target = here <;> cases scriptArguments.isMinusOne <;> simp [same]

theorem sendData_server_lands (sender : Client) :
    network.taskLands counted target (.client sender)
        (.sendData [scriptArguments, .scalar number, address] .server atomic (some key.pipe)) =
      if (target = .server ∧ scriptArguments.isMinusOne = false) ∧ counted scriptArguments number
      then 1 else 0 := by
  have sent : network.sendData (.client sender) [scriptArguments, .scalar number, address] .server
      atomic (some key.pipe) = publicVariableServer key.pipe
        (Value.withoutMinusOne [scriptArguments, .scalar number, .scalar (-1)]) := rfl
  rw [taskLands, sent, publicVariableServer_lands, messageLands_withoutMinusOne, lands_number]
  cases scriptArguments.isMinusOne <;> simp [@eq_comm _ target]

theorem sendData_client_lands_of_server :
    network.taskLands counted target .server
        (.sendData [scriptArguments, .scalar number, address] .client atomic (some key.pipe)) =
      if target ≠ .server ∧ counted scriptArguments number then 1 else 0 := by
  have sent : network.sendData .server [scriptArguments, .scalar number, address] .client atomic
      (some key.pipe) =
        network.publicVariable .server key.pipe [scriptArguments, .scalar number] := rfl
  rw [taskLands, sent, publicVariable_lands, messageLands_packet, lands_number]
  by_cases same : target = .server <;> simp [same]

/-- Whatever else a client sends goes to the server with its address. -/
theorem sendData_lands_of_client (sender : Client) {type : AddressType}
    (other : type ≠ .all ∧ type ≠ .server) (present : address ≠ .nil) :
    network.taskLands counted target (.client sender)
        (.sendData [scriptArguments, .scalar number, address] type atomic (some key.pipe)) =
      if (target = .server ∧ network.isMe .server address) ∧ counted scriptArguments number
      then 1 else 0 := by
  have sent : network.sendData (.client sender) [scriptArguments, .scalar number, address] type
      atomic (some key.pipe) =
        publicVariableServer key.pipe [scriptArguments, .scalar number, address] := by
    cases type with
    | all => exact absurd rfl other.1
    | server => exact absurd rfl other.2
    | objectLocal | temporaryId | uid | client => rfl
  rw [taskLands, sent, publicVariableServer_lands,
    network.messageLands_addressed counted target .server key scriptArguments number present,
    lands_number]
  cases network.isMe .server address <;> simp [@eq_comm _ target]

/-- The server sends the packet for an ID to the client with the number that it finds. -/
theorem sendData_uid_lands_of_server :
    network.taskLands counted target .server
        (.sendData [scriptArguments, .scalar number, address] .uid atomic (some key.pipe)) =
      if network.hasNumber (network.tempId address) target ∧ counted scriptArguments number
      then 1 else 0 := by
  have sent : network.sendData .server [scriptArguments, .scalar number, address] .uid atomic
      (some key.pipe) = if 0 < network.tempId address then
        network.publicVariableClient (network.tempId address) key.pipe
          [scriptArguments, .scalar number] else [] := rfl
  rw [taskLands, sent]
  split
  · rw [publicVariableClient_lands, messageLands_packet, lands_number]
    cases network.hasNumber (network.tempId address) target <;> simp
  · rename_i missing
    have nobody : network.hasNumber (network.tempId address) target = false := by
      cases target with
      | server => rfl
      | client client =>
          have positive := network.owner_pos client
          simp only [hasNumber, decide_eq_false_iff_not]
          omega
    simp [nobody]

/-- It sends the packet for an object to the client that has it, which takes it. -/
theorem sendData_objectLocal_lands_of_server {object : Object} {holder : Client}
    (remote : network.locality object = .client holder) :
    network.taskLands counted target .server
        (.sendData [scriptArguments, .scalar number, .object object] .objectLocal atomic
          (some key.pipe)) =
      if target = .client holder ∧ counted scriptArguments number then 1 else 0 := by
  have temp : network.tempId (.object object : Value Object) = network.owner holder := by
    simp only [tempId, remote, ownerOf]
  have positive : 0 < network.tempId (.object object : Value Object) := by
    have owner := network.owner_pos holder
    omega
  have sent : network.sendData .server [scriptArguments, .scalar number, .object object]
      .objectLocal atomic (some key.pipe) =
        if 0 < network.tempId (.object object : Value Object) then
          network.publicVariableClient (network.tempId (.object object : Value Object)) key.pipe
            [scriptArguments, .scalar number, .object object]
        else [] := rfl
  rw [taskLands, sent, if_pos positive, publicVariableClient_lands, temp,
    network.messageLands_addressed counted target target key scriptArguments number
      (Value.object_ne_nil object), lands_number]
  cases target with
  | server => simp [hasNumber]
  | client target =>
      by_cases same : target = holder
      · subst same
        simp [hasNumber, isMe, remote]
      · have different : network.owner target ≠ network.owner holder :=
          fun equal => same (network.owner_injective equal)
        simp [hasNumber, same, different]

/-- Where a broadcast makes its function run. -/
def Lands (broadcast : Broadcast Client Object) (target : Machine Client) : Prop :=
  match broadcast.sender, broadcast.address with
  | sender, .all => target = sender ∨ broadcast.scriptArguments.isMinusOne = false
  | .server, .server => target = .server
  | .server, .client => target ≠ .server
  | .server, .id client =>
      network.hasNumber (network.tempId (.string (network.unique client) : Value Object)) target
  | .server, .object object => target = network.locality object
  | .client _, .server => target = .server ∧ broadcast.scriptArguments.isMinusOne = false
  | .client _, .client => False
  | .client sender, .id client =>
      target = .client sender ∧ fold (network.unique client) = fold (network.unique sender)
  | .client sender, .object object =>
      target = network.locality object ∧ (target = .server ∨ target = .client sender)

instance (broadcast : Broadcast Client Object) (target : Machine Client) :
    Decidable (network.Lands broadcast target) := by
  unfold Lands
  split <;> infer_instance

theorem reached_mk (sender : Machine Client) (atomic : Bool) (name : Text)
    (address : Address Client Object) :
    network.reached counted target ⟨sender, atomic, scriptArguments, name, address, key⟩ =
      ((network.broadcast atomic sender scriptArguments name (network.addressValue address)
        key.pipe).map fun action => network.taskLands counted target sender action.task).sum := by
  cases atomic <;> rfl

theorem taskLands_run :
    network.taskLands counted target receiver (.run scriptArguments (.scalar number)) =
      if target = receiver ∧ counted scriptArguments number then 1 else 0 :=
  if_congr (and_congr_left' eq_comm) rfl rfl

variable {number} {name : Text} (named : network.functionNumber name = some number)
  (sender : Machine Client) (atomic : Bool)

include named

theorem reached_server :
    network.reached counted target ⟨sender, atomic, scriptArguments, name, .server, key⟩ =
      if network.Lands ⟨sender, atomic, scriptArguments, name, .server, key⟩ target ∧
        counted scriptArguments number then 1 else 0 := by
  rw [reached_mk]
  simp only [Network.broadcast, named, addressValue, Value.select, List.getD_cons_zero, if_true]
  cases sender with
  | server =>
      simp only [Machine.isServer, if_true, List.map_cons, List.map_nil, List.sum_singleton,
        Action.ofBroadcast_task, taskLands_run]
      exact if_congr Iff.rfl rfl rfl
  | client sender =>
      simp only [Machine.isServer, Bool.false_eq_true, if_false, List.map_cons, List.map_nil,
        List.sum_singleton, Action.task, sendData_server_lands]
      exact if_congr Iff.rfl rfl rfl

theorem reached_client :
    network.reached counted target ⟨sender, atomic, scriptArguments, name, .client, key⟩ =
      if network.Lands ⟨sender, atomic, scriptArguments, name, .client, key⟩ target ∧
        counted scriptArguments number then 1 else 0 := by
  have notServer : ¬ fold "CLIENT".toList = fold "SERVER".toList := by decide
  rw [reached_mk]
  simp only [Network.broadcast, named, addressValue, Value.select, List.getD_cons_zero,
    if_neg notServer, if_true, List.map_cons, List.map_nil, List.sum_singleton, Action.task]
  cases sender with
  | server =>
      rw [sendData_client_lands_of_server]
      exact if_congr Iff.rfl rfl rfl
  | client sender =>
      rw [network.sendData_lands_of_client counted target key scriptArguments number sender ?_ ?_]
      · exact if_congr (by simp [isMe, Machine.isServer, Lands]) rfl rfl
      · decide
      · simp

theorem reached_all :
    network.reached counted target ⟨sender, atomic, scriptArguments, name, .all, key⟩ =
      if network.Lands ⟨sender, atomic, scriptArguments, name, .all, key⟩ target ∧
        counted scriptArguments number then 1 else 0 := by
  have notServer : ¬ fold "ALL".toList = fold "SERVER".toList := by decide
  have notClient : ¬ fold "ALL".toList = fold "CLIENT".toList := by decide
  have landing : network.Lands ⟨sender, atomic, scriptArguments, name, .all, key⟩ target ↔
      target = sender ∨ scriptArguments.isMinusOne = false := by
    cases sender <;> exact Iff.rfl
  rw [reached_mk]
  simp only [Network.broadcast, named, addressValue, Value.select, List.getD_cons_zero,
    if_neg notServer, if_neg notClient, if_true, List.map_cons, List.map_nil, List.sum_cons,
    List.sum_nil, Action.ofBroadcast_task, taskLands_run]
  rw [Action.task, sendData_all_lands]
  simp only [landing]
  by_cases here : target = sender <;> cases scriptArguments.isMinusOne <;> simp [here]

theorem reached_id (client : Client) :
    network.reached counted target ⟨sender, atomic, scriptArguments, name, .id client, key⟩ =
      if network.Lands ⟨sender, atomic, scriptArguments, name, .id client, key⟩ target ∧
        counted scriptArguments number then 1 else 0 := by
  rw [reached_mk]
  simp only [Network.broadcast, named, addressValue]
  cases sender with
  | server =>
      have other : ¬ fold (network.unique client) = fold (network.uniqueOf .server) := by
        simp [uniqueOf, fold, network.unique_ne_nil client]
      simp only [if_neg other, List.map_cons, List.map_nil, List.sum_singleton, Action.task,
        sendData_uid_lands_of_server]
      exact if_congr Iff.rfl rfl rfl
  | client sender =>
      by_cases own : fold (network.unique client) = fold (network.uniqueOf (.client sender))
      · simp only [if_pos own, List.map_cons, List.map_nil, List.sum_singleton,
          Action.ofBroadcast_task, taskLands_run]
        exact if_congr (and_congr_left' (iff_self_and.mpr fun _ => own)) rfl rfl
      · simp only [if_neg own, List.map_cons, List.map_nil, List.sum_singleton, Action.task]
        rw [network.sendData_lands_of_client counted target key scriptArguments number sender ?_ ?_]
        · refine if_congr (and_congr_left' (iff_of_false ?_ fun landing => own landing.2)) rfl rfl
          simp [isMe, Machine.isServer]
        · decide
        · simp

theorem reached_object (object : Object) :
    network.reached counted target ⟨sender, atomic, scriptArguments, name, .object object, key⟩ =
      if network.Lands ⟨sender, atomic, scriptArguments, name, .object object, key⟩ target ∧
        counted scriptArguments number then 1 else 0 := by
  rw [reached_mk]
  simp only [Network.broadcast, named, addressValue]
  by_cases own : network.locality object = sender
  · simp only [if_pos own, List.map_cons, List.map_nil, List.sum_singleton,
      Action.ofBroadcast_task, taskLands_run]
    refine if_congr (and_congr_left' ?_) rfl rfl
    cases sender with
    | server => simp [Lands, own]
    | client sender => simp only [Lands, own]; exact ⟨fun here => ⟨here, .inr here⟩, And.left⟩
  · simp only [if_neg own, List.map_cons, List.map_nil, List.sum_singleton, Action.task]
    cases sender with
    | server =>
        obtain ⟨holder, remote⟩ : ∃ holder, network.locality object = .client holder := by
          cases holder : network.locality object with
          | server => exact absurd holder own
          | client there => exact ⟨there, rfl⟩
        rw [network.sendData_objectLocal_lands_of_server counted target key scriptArguments number
          remote]
        exact if_congr (and_congr_left' (by simp only [Lands, remote])) rfl rfl
    | client sender =>
        rw [network.sendData_lands_of_client counted target key scriptArguments number sender ?_ ?_]
        · refine if_congr (and_congr_left' ?_) rfl rfl
          have isMe : network.isMe .server (.object object) = true ↔
              network.locality object = .server := decide_eq_true_iff
          rw [isMe]
          constructor
          · rintro ⟨rfl, onServer⟩
            exact ⟨onServer.symm, .inl rfl⟩
          · rintro ⟨rfl, onServer | onSender⟩
            · exact ⟨onServer, onServer⟩
            · exact absurd onSender own
        · decide
        · simp

omit named in
/-- A broadcast of a function that has a number makes it run where it lands. -/
theorem reached_eq {broadcast : Broadcast Client Object}
    (named : network.functionNumber broadcast.name = some number) :
    network.reached counted target broadcast =
      if network.Lands broadcast target ∧ counted broadcast.scriptArguments number then 1
      else 0 := by
  obtain ⟨sender, atomic, scriptArguments, name, address, key⟩ := broadcast
  cases address with
  | server => exact network.reached_server counted target key scriptArguments named sender atomic
  | client => exact network.reached_client counted target key scriptArguments named sender atomic
  | all => exact network.reached_all counted target key scriptArguments named sender atomic
  | id client =>
      exact network.reached_id counted target key scriptArguments named sender atomic client
  | object object =>
      exact network.reached_object counted target key scriptArguments named sender atomic object

end Network

end OperationFrontLine.Routing
