import OperationFrontLine.Identity.Inverse
import OperationFrontLine.Routing.Reach

/-!
# Which broadcasts run on the machines that they address

The packet that the server relays for a client has no handler, so a client reaches the
server, everyone, itself and the objects of the server or of its own, but no other client and
not the clients together.
-/

namespace OperationFrontLine.Routing

open OperationFrontLine.Library

universe u v

variable {Client : Type u} {Object : Type v} [DecidableEq Client]

namespace Network

variable (network : Network Client Object)

def addressed (address : Address Client Object) (machine : Machine Client) : Bool :=
  match address with
  | .server => machine = .server
  | .client => machine ≠ .server
  | .all => true
  | .id client => machine = .client client
  | .object object => machine = network.locality object

/-- The broadcast with this number has run its function once on every machine that it
addresses, and on no other. -/
def RanOnce (number : ℕ) (broadcast : Broadcast Client Object) (state : State Client Object) :
    Prop :=
  ∀ machine, (state.executed.countP fun execution =>
      execution.broadcast = number ∧ execution.machine = machine) =
    if network.addressed broadcast.address machine then 1 else 0

/-- The broadcasts that reach the machines that they address. -/
def Reaches (broadcast : Broadcast Client Object) : Prop :=
  match broadcast.sender, broadcast.address with
  | .server, .server | .server, .client | .server, .object _ => True
  | .server, .all => broadcast.scriptArguments.isMinusOne = false ∨ network.clients = []
  | .server, .id client =>
      network.tempId (.string (network.unique client) : Value Object) = network.owner client
  | .client _, .server | .client _, .all => broadcast.scriptArguments.isMinusOne = false
  | .client _, .client => False
  | .client sender, .id client => client = sender
  | .client sender, .object object =>
      network.locality object = .server ∨ network.locality object = .client sender

/-- A broadcast lands on the machines that it addresses exactly when it reaches them. -/
theorem lands_iff_addressed (broadcast : Broadcast Client Object) :
    (∀ machine, network.Lands broadcast machine ↔
      network.addressed broadcast.address machine) ↔ network.Reaches broadcast := by
  obtain ⟨sender, atomic, scriptArguments, name, address, key⟩ := broadcast
  cases sender with
  | server =>
      cases address with
      | server => simp [Lands, addressed, Reaches]
      | client => simp [Lands, addressed, Reaches]
      | object object => simp [Lands, addressed, Reaches]
      | all =>
          simp only [Lands, addressed, Reaches, iff_true]
          constructor
          · intro everywhere
            cases clients : network.clients with
            | nil => exact .inr rfl
            | cons client rest =>
                exact .inl ((everywhere (.client client)).resolve_left (by simp))
          · rintro (kept | alone) machine
            · exact .inr kept
            · cases machine with
              | server => exact .inl rfl
              | client client =>
                  have present := network.clients_complete client
                  rw [alone] at present
                  cases present
      | id client =>
          simp only [Lands, addressed, Reaches, decide_eq_true_eq]
          constructor
          · intro only
            have found := (only (.client client)).mpr rfl
            exact (of_decide_eq_true found).symm
          · intro found machine
            rw [found]
            cases machine with
            | server => simp [hasNumber]
            | client other =>
                simp only [hasNumber, decide_eq_true_eq, Nat.cast_inj, Machine.client.injEq]
                exact network.owner_injective.eq_iff
  | client sender =>
      cases address with
      | server =>
          simp only [Lands, addressed, Reaches, decide_eq_true_eq]
          exact ⟨fun only => ((only .server).mpr rfl).2, fun kept machine => and_iff_left kept⟩
      | client =>
          simp only [Lands, addressed, Reaches, decide_eq_true_eq, iff_false, not_forall]
          exact ⟨.client sender, fun nowhere => nowhere.mpr (by simp)⟩
      | all =>
          simp only [Lands, addressed, Reaches, iff_true]
          exact ⟨fun everywhere => (everywhere .server).resolve_left (by simp),
            fun kept machine => .inr kept⟩
      | id client =>
          simp only [Lands, addressed, Reaches, decide_eq_true_eq]
          constructor
          · intro only
            exact Machine.client.inj ((only (.client client)).mpr rfl).1
          · rintro rfl machine
            exact and_iff_left rfl
      | object object =>
          simp only [Lands, addressed, Reaches, decide_eq_true_eq, and_iff_left_iff_imp]
          exact ⟨fun only => only _ rfl, fun own machine isThere => isThere ▸ own⟩

/-- Whatever is run for a broadcast is the function that it names, with its arguments. -/
theorem executed_named {events : List (Event Client Object)} {state : State Client Object}
    (ran : run network.step .initial events = some state)
    {number : ℕ} {broadcast : Broadcast Client Object}
    (made : state.broadcasts[number]? = some broadcast) {function : ℕ}
    (named : network.functionNumber broadcast.name = some function)
    {execution : Execution Client Object} (member : execution ∈ state.executed)
    (own : execution.broadcast = number) :
    execution.function = function ∧ execution.scriptArguments = broadcast.scriptArguments := by
  classical
  -- runs of anything else are what is counted, and the broadcast makes none
  let other : Counted Object := fun given called =>
    decide ¬ (called = function ∧ given = broadcast.scriptArguments)
  have amount := network.run_accounted other ran number execution.machine
  have nothing : network.reached other execution.machine broadcast = 0 := by
    rw [network.reached_eq other _ named]
    exact if_neg fun landing => by simp [other] at landing
  rw [made, Option.map_some, Option.getD_some, nothing] at amount
  have none : executions other number execution.machine state = 0 := by
    rw [account] at amount
    omega
  by_contra different
  have counted := List.countP_eq_zero.mp none execution member
  simp [own, other, different] at counted

/-- Without new broadcasts a session settles, after as many steps as there is work left, and
in a settled state a broadcast of a function has run this function, with its arguments, once on
every machine that it addresses, and on no other, exactly when it reaches them. -/
theorem broadcasts_routed_iff {events : List (Event Client Object)}
    {state : State Client Object} (ran : run network.step .initial events = some state)
    {number : ℕ} {broadcast : Broadcast Client Object}
    (made : state.broadcasts[number]? = some broadcast) {function : ℕ}
    (named : network.functionNumber broadcast.name = some function) :
    (∃ later finish, (∀ event ∈ later, event.internal) ∧
      run network.step state later = some finish ∧ finish.Settled) ∧
    (∀ later finish, (∀ event ∈ later, event.internal) →
      run network.step state later = some finish →
      later.length ≤ network.total network.work state) ∧
    (∀ execution ∈ state.executed, execution.broadcast = number →
      execution.function = function ∧ execution.scriptArguments = broadcast.scriptArguments) ∧
    (state.Settled → (network.RanOnce number broadcast state ↔ network.Reaches broadcast)) := by
  refine ⟨network.settles state, ?_, ?_, ?_⟩
  · intro later finish internal continued
    have done := network.run_work internal continued
    omega
  · intro execution member own
    exact network.executed_named ran made named member own
  · intro settled
    have count (machine : Machine Client) :
        (state.executed.countP fun execution =>
          execution.broadcast = number ∧ execution.machine = machine) =
          if network.Lands broadcast machine then 1 else 0 := by
      have amount := network.executions_of_settled (fun _ _ => true) ran settled made machine
      rw [network.reached_eq _ _ named] at amount
      simpa [executions] using amount
    rw [← lands_iff_addressed]
    refine forall_congr' fun machine => ?_
    rw [count machine]
    by_cases landing : network.Lands broadcast machine <;>
      cases network.addressed broadcast.address machine <;> simp [landing]

/-- Two clients that have connected one after the other. -/
def pair : Network (Fin 2) Empty where
  clients := [0, 1]
  clients_nodup := by decide
  clients_complete := by decide
  unique client := [Char.ofNat (client.val + 2)]
  unique_ne_nil _ := List.cons_ne_nil _ _
  unique_injective := by decide
  owner client := client.val + 3
  owner_pos _ := Nat.succ_pos _
  owner_injective := by decide
  locality := Empty.elim
  tables :=
    ((Identity.Tables.initial.addConnection "7656119800000001".toList "A".toList 3).state
      |>.addConnection "7656119800000002".toList "B".toList 4).state
  functionNumber name := if name = "OPFL_LockRP".toList then some 12 else none

def lockRP (sender : Machine (Fin 2)) (address : Address (Fin 2) Empty) :
    Broadcast (Fin 2) Empty :=
  ⟨sender, true, .array [], "OPFL_LockRP".toList, address, .b⟩

def serverAsks : List (Event (Fin 2) Empty) :=
  [.broadcast (lockRP .server (.id 1)), .frame .server, .deliver 0]

/-- The first client asks the second: the server relays the packet, and it arrives. -/
def clientAsks : List (Event (Fin 2) Empty) :=
  [.broadcast (lockRP (.client 0) (.id 1)), .frame (.client 0), .deliver 0, .deliver 0]

theorem serverAsks_ran : (run pair.step .initial serverAsks).isSome := by
  decide

theorem clientAsks_ran : (run pair.step .initial clientAsks).isSome := by
  decide

theorem settled_of_lengths {state : State (Fin 2) Empty}
    (server : (state.cpq .server).length = 0 ∧ (state.spawned .server).length = 0)
    (clients : ∀ client, (state.cpq (.client client)).length = 0 ∧
      (state.spawned (.client client)).length = 0)
    (flight : state.flight.length = 0) : state.Settled where
  cpq
    | .server => List.eq_nil_of_length_eq_zero server.1
    | .client client => List.eq_nil_of_length_eq_zero (clients client).1
  spawned
    | .server => List.eq_nil_of_length_eq_zero server.2
    | .client client => List.eq_nil_of_length_eq_zero (clients client).2
  flight := List.eq_nil_of_length_eq_zero flight

/-- What the server asks of a client is done there once. -/
theorem broadcasts_routed_iff_serverAsks :
    pair.RanOnce 0 (lockRP .server (.id 1))
      ((run pair.step .initial serverAsks).get serverAsks_ran) := by
  have named : pair.functionNumber (lockRP .server (.id 1)).name = some 12 := by decide
  have reaches : pair.tempId (.string (pair.unique 1) : Value Empty) = pair.owner 1 := by decide
  have made : ((run pair.step .initial serverAsks).get serverAsks_ran).broadcasts[0]? =
      some (lockRP .server (.id 1)) := rfl
  have routed := pair.broadcasts_routed_iff (Option.some_get serverAsks_ran).symm made named
  exact (routed.2.2.2 (settled_of_lengths (by decide) (by decide) (by decide))).mpr reaches

/-- What a client asks of another is done nowhere. -/
theorem relayed_packet_lost :
    ∃ state, run pair.step .initial clientAsks = some state ∧ state.Settled ∧
      state.broadcasts[0]? = some (lockRP (.client 0) (.id 1)) ∧
      pair.functionNumber "OPFL_LockRP".toList = some 12 ∧
      ¬ pair.RanOnce 0 (lockRP (.client 0) (.id 1)) state :=
  ⟨(run pair.step .initial clientAsks).get clientAsks_ran, (Option.some_get clientAsks_ran).symm,
    settled_of_lengths (by decide) (by decide) (by decide), rfl, by decide,
    fun once => absurd (once (.client 1)) (by decide)⟩

end Network

end OperationFrontLine.Routing
