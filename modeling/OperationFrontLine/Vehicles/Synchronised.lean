import OperationFrontLine.Library.Replica
import OperationFrontLine.Vehicles.Blocks

/-!
# Every client that asked gets the list

A client's list is a replica of the server's list.  Behind all messages on its way it is
empty, complete, or as long as the cursor of the pass that covers the client.
-/

namespace OperationFrontLine.Vehicles

open OperationFrontLine.Library

universe u v

variable {Vehicle : Type u} {Uid : Type v}

section Handlers

theorem setElement_of_lt {array : List (Element Vehicle)} {index : ℕ}
    (inside : index < array.length) (element : Element Vehicle) :
    setElement array index element = array.set index element := by
  rw [setElement, if_pos inside]

@[simp]
theorem setElement_length (array : List (Element Vehicle)) (element : Element Vehicle) :
    setElement array array.length element = array ++ [element] := by
  simp [setElement]

theorem Client.store_eq_append (vehicleList args : List (Element Vehicle)) :
    Client.store vehicleList vehicleList.length args = vehicleList ++ args := by
  induction args generalizing vehicleList with
  | nil => simp [store]
  | cons element args inductionHypothesis =>
      have next := inductionHypothesis (vehicleList ++ [element])
      rw [List.length_append, List.length_singleton, List.append_assoc] at next
      rw [store, setElement_length, next, List.singleton_append]

def Message.ofSent (vehicleCount : ℕ) (sent : Sent Vehicle) : Message Vehicle :=
  match sent.update with
  | .block start values =>
      { function := .addVBlck
        arguments :=
          if start < 1 then .number 0 :: .number vehicleCount :: values.map .vehicle
          else .number start :: values.map .vehicle
        vehicleList := sent.source }
  | .entry index value =>
      { function := .updIndex
        arguments := [.number index, .vehicle value]
        vehicleList := sent.source }

@[simp]
theorem Message.ofSent_vehicleList (vehicleCount : ℕ) (sent : Sent Vehicle) :
    (ofSent vehicleCount sent).vehicleList = sent.source := by
  rcases sent with ⟨update, source⟩
  cases update <;> rfl

@[simp]
theorem countP_isVehicle (values : List Vehicle) :
    (values.map Element.vehicle).countP Element.isVehicle = values.length := by
  apply List.countP_eq_length.mpr ?_ |>.trans (List.length_map _)
  intro element member
  obtain ⟨value, -, rfl⟩ := List.mem_map.mp member
  exact Element.isVehicle_vehicle value

theorem Message.concerns_ofSent {vehicleCount index : ℕ} {sent : Sent Vehicle} :
    (ofSent vehicleCount sent).Concerns index ↔ sent.update.Concerns index := by
  rcases sent with ⟨update, source⟩
  cases update with
  | block start values =>
      by_cases first : start < 1
      · obtain rfl : start = 0 := Nat.lt_one_iff.mp first
        simp only [ofSent, Nat.zero_lt_one, if_true, Concerns, Update.Concerns,
          List.countP_cons, countP_isVehicle, Element.isVehicle_number]
        simp
      · simp only [ofSent, first, if_false, Concerns, Update.Concerns, countP_isVehicle]
        omega
  | entry place value =>
      simp only [ofSent, Concerns, Update.Concerns]
      omega

theorem filter_isMark (values : List Vehicle) :
    (values.map Element.vehicle).filter (fun element => !element.isMark) =
      values.map .vehicle := by
  rw [List.filter_eq_self]
  intro element member
  obtain ⟨value, -, rfl⟩ := List.mem_map.mp member
  rfl

theorem Client.handle_ofSent {client : Client Vehicle} {copy : List Vehicle}
    (held : client.vehicleList.getD [] = copy.map .vehicle) (vehicleCount : ℕ)
    (sent : Sent Vehicle) :
    (client.handle (.ofSent vehicleCount sent)).vehicleList.getD [] =
      (sent.update.apply copy).map .vehicle := by
  rcases sent with ⟨update, source⟩
  cases update with
  | block start values =>
      have size : (client.vehicleList.getD []).length = copy.length := by simp [held]
      by_cases here : start = copy.length
      · subst here
        rw [Update.apply_block_of_eq, List.map_append, ← held]
        by_cases first : copy.length < 1
        · have empty : copy.length = 0 := Nat.lt_one_iff.mp first
          have stored := store_eq_append (client.vehicleList.getD []) (values.map .vehicle)
          rw [size, empty] at stored
          simpa [handle, Message.ofSent, addVBlck, first, size, empty,
            filter_isMark] using stored
        · have stored := store_eq_append (client.vehicleList.getD []) (values.map .vehicle)
          rw [size] at stored
          have later : ¬(copy.length : ℤ) < 1 := by omega
          simpa [handle, Message.ofSent, addVBlck, first, later, size,
            filter_isMark] using stored
      · rw [Update.apply_block_of_ne here, ← held]
        by_cases first : start < 1
        · obtain rfl : start = 0 := Nat.lt_one_iff.mp first
          have gap : ¬((0 : ℤ) = copy.length) := by omega
          simp [handle, Message.ofSent, addVBlck, size, gap]
        · have gap : ¬((start : ℤ) = copy.length) := by omega
          simp [handle, Message.ofSent, addVBlck, size, first, gap]
  | entry index value =>
      rw [Update.apply, List.map_set]
      cases list : client.vehicleList with
      | none =>
          rw [list, Option.getD_none] at held
          simp [handle, Message.ofSent, updIndex, list, ← held]
      | some vehicleList =>
          rw [list, Option.getD_some] at held
          subst held
          by_cases beyond : copy.length ≤ index
          · have out : (copy.map Element.vehicle).length ≤ index := by simpa using beyond
            simp [handle, Message.ofSent, updIndex, list, beyond, List.set_eq_of_length_le out]
          · have inside : index < (copy.map Element.vehicle).length := by simpa using beyond
            have natural : ¬((index : ℤ) < 0) := by omega
            simp [handle, Message.ofSent, updIndex, list, beyond, natural,
              setElement_of_lt inside]

@[simp]
theorem Client.asked_handle (client : Client Vehicle) (message : Message Vehicle) :
    (client.handle message).asked = client.asked := by
  unfold handle addVBlck updIndex
  cases message.function with
  | addVBlck =>
      dsimp only
      split
      · split <;> rfl
      · rfl
  | updIndex =>
      dsimp only
      split
      · split <;> rfl
      · rfl

end Handlers

section Pass

variable (state : State Uid Vehicle)

def State.nextEntries : List Vehicle :=
  (state.vehicleList.drop state.currentIndex).take blckSize

def State.nextAddr : Machine Uid :=
  if state.currentIndex < 1 then
    if state.pendingClients = 1 then .uid state.lastClient else .all
  else state.addr

theorem State.block_eq (counted : state.vehicleCount = state.vehicleList.length)
    (rounds i : ℕ) : state.block rounds i =
      ((state.vehicleList.drop (state.currentIndex + i)).take rounds).map .vehicle := by
  induction rounds generalizing i with
  | zero => simp [block]
  | succ rounds inductionHypothesis =>
      rw [block, inductionHypothesis]
      by_cases inside : state.currentIndex + i < state.vehicleList.length
      · rw [if_pos (counted ▸ inside), List.drop_eq_getElem_cons inside, List.take_succ_cons,
          List.map_cons, List.getElem?_eq_getElem inside, Option.elim_some, Nat.add_assoc]
      · rw [if_neg (counted ▸ inside), List.drop_eq_nil_of_le (Nat.le_of_not_lt inside)]
        simp

theorem State.sendBlock_eq [DecidableEq Uid]
    (counted : state.vehicleCount = state.vehicleList.length) :
    state.sendBlock =
      { state with
        addr := state.nextAddr
        pendingClients := if state.currentIndex < 1 then 0 else state.pendingClients
        currentIndex :=
          if state.vehicleCount ≤ state.currentIndex + state.nextEntries.length then 0
          else state.currentIndex + state.nextEntries.length
        clients uid := (state.clients uid).map fun client =>
          if state.nextAddr.Covers uid then
            client.post (.ofSent state.vehicleCount
              ⟨.block state.currentIndex state.nextEntries, state.vehicleList⟩)
          else client } := by
  have carried : state.block blckSize 0 = state.nextEntries.map .vehicle :=
    state.block_eq counted blckSize 0
  by_cases first : state.currentIndex < 1
  · have zero : state.currentIndex = 0 := Nat.lt_one_iff.mp first
    by_cases complete : state.vehicleCount ≤ state.nextEntries.length
    · simp [sendBlock, carried, nextAddr, broadcast, Message.ofSent, zero, complete]
    · simp [sendBlock, carried, nextAddr, broadcast, Message.ofSent, zero, complete]
  · by_cases complete : state.vehicleCount ≤ state.currentIndex + state.nextEntries.length
    · simp [sendBlock, carried, nextAddr, broadcast, Message.ofSent, first, complete]
    · simp [sendBlock, carried, nextAddr, broadcast, Message.ofSent, first, complete]

theorem State.length_nextEntries : state.nextEntries.length =
    min blckSize (state.vehicleList.length - state.currentIndex) := by
  simp [nextEntries]

/-- The next block is a part of the server's list, and not an empty one. -/
theorem State.nextEntries_bounds (counted : state.vehicleCount = state.vehicleList.length)
    (cursor : state.currentIndex < state.vehicleCount) :
    0 < state.nextEntries.length ∧
      state.currentIndex + state.nextEntries.length ≤ state.vehicleCount := by
  rw [length_nextEntries, blckSize]
  omega

theorem State.clients_setClient_self [DecidableEq Uid] (uid : Uid)
    (client : Option (Client Vehicle)) : (state.setClient uid client).clients uid = client :=
  Function.update_self ..

theorem State.clients_setClient_of_ne [DecidableEq Uid] {state : State Uid Vehicle}
    {uid other : Uid} (distinct : other ≠ uid) (client : Option (Client Vehicle)) :
    (state.setClient uid client).clients other = state.clients other :=
  Function.update_of_ne distinct ..

theorem State.clients_connectUID_self [DecidableEq Uid] (uid : Uid) :
    (state.connectUID uid).clients uid =
      (state.clients uid).map fun client => { client with asked := true } :=
  Function.update_self ..

theorem State.clients_connectUID_of_ne [DecidableEq Uid] {state : State Uid Vehicle}
    {uid other : Uid} (distinct : other ≠ uid) :
    (state.connectUID uid).clients other = state.clients other :=
  Function.update_of_ne distinct ..

end Pass

/-- The client is a replica: its list is `copy`, and `queue` and `handled` are the updates
that it was sent and those that it has handled. -/
structure Mirrors (vehicleCount : ℕ) (client : Client Vehicle) (copy : List Vehicle)
    (queue handled : List (Sent Vehicle)) : Prop where
  list : client.vehicleList.getD [] = copy.map .vehicle
  inbox : client.inbox = queue.map (.ofSent vehicleCount)
  handled : client.handled = handled.map (.ofSent vehicleCount)

/-- The length of a list behind all messages, seen from the pass in progress. -/
def Reached (state : State Uid Vehicle) (uid : Uid) (length : ℕ) : Prop :=
  length = 0 ∨ length = state.vehicleCount ∨
    0 < state.currentIndex ∧ state.addr.Covers uid ∧ length = state.currentIndex

/-- A client that asked is waited for, served, or complete. -/
def Promised (state : State Uid Vehicle) (uid : Uid) (length : ℕ) : Prop :=
  (0 < state.pendingClients ∧ (state.pendingClients = 1 → state.lastClient = some uid)) ∨
    (0 < state.vehicleCount ∧ length = state.vehicleCount) ∨
    0 < state.currentIndex ∧ state.addr.Covers uid ∧ length = state.currentIndex

structure Served (state : State Uid Vehicle) (uid : Uid) (client : Client Vehicle)
    (copy : List Vehicle) (queue handled : List (Sent Vehicle)) : Prop where
  mirrors : Mirrors state.vehicleCount client copy queue handled
  follows : Follows state.vehicleList copy queue
  latest : Latest copy handled
  reached : Reached state uid (drained copy queue).length
  promised : client.asked = true → Promised state uid (drained copy queue).length

structure Consistent (state : State Uid Vehicle) : Prop where
  counted : state.vehicleCount = state.vehicleList.length
  cursor : state.mainThread = true → state.currentIndex < state.vehicleCount
  served : ∀ uid client, state.clients uid = some client →
    ∃ copy queue handled, Served state uid client copy queue handled

namespace Mirrors

variable {vehicleCount : ℕ} {client : Client Vehicle} {copy : List Vehicle}
  {queue handled : List (Sent Vehicle)}

theorem post (mirrors : Mirrors vehicleCount client copy queue handled) (sent : Sent Vehicle) :
    Mirrors vehicleCount (client.post (.ofSent vehicleCount sent)) copy (queue ++ [sent])
      handled where
  list := mirrors.list
  inbox := by rw [Client.post, mirrors.inbox, List.map_append, List.map_singleton]
  handled := mirrors.handled

/-- Delivery takes the oldest update and does with it what the replica does. -/
theorem deliver (mirrors : Mirrors vehicleCount client copy queue handled)
    {next : Client Vehicle} (delivered : client.deliver = some next) :
    ∃ sent rest, queue = sent :: rest ∧ next.asked = client.asked ∧
      Mirrors vehicleCount next (sent.update.apply copy) rest (sent :: handled) := by
  unfold Client.deliver at delivered
  cases queue with
  | nil =>
      rw [mirrors.inbox] at delivered
      cases delivered
  | cons sent rest =>
      rw [mirrors.inbox] at delivered
      cases delivered
      refine ⟨sent, rest, rfl, ?_, ?_, rfl, ?_⟩
      · exact client.asked_handle _
      · exact Client.handle_ofSent mirrors.list vehicleCount sent
      · rw [mirrors.handled, List.map_cons]

end Mirrors

namespace Consistent

variable {state : State Uid Vehicle}

theorem initial (vehicles : List Vehicle) :
    Consistent (State.initVehicleRespawn vehicles : State Uid Vehicle) where
  counted := rfl
  cursor installed := by
    cases vehicles with
    | nil => cases installed
    | cons vehicle vehicles => exact Nat.zero_lt_succ _
  served uid client connected := by cases connected

/-- An event that leaves the server's list and the pass alone, and of the clients changes
one, keeps the others served. -/
theorem setClient [DecidableEq Uid] (consistent : Consistent state) (uid : Uid)
    {client : Option (Client Vehicle)}
    (served : ∀ next, client = some next →
      ∃ copy queue handled, Served state uid next copy queue handled) :
    Consistent (state.setClient uid client) where
  counted := consistent.counted
  cursor := consistent.cursor
  served other next connected := by
    have kept : ∃ copy queue handled, Served state other next copy queue handled := by
      by_cases same : other = uid
      · subst same
        rw [State.clients_setClient_self] at connected
        exact served next connected
      · rw [State.clients_setClient_of_ne same] at connected
        exact consistent.served other next connected
    obtain ⟨copy, queue, handled, ⟨mirrors, follows, latest, reached, promised⟩⟩ := kept
    exact ⟨copy, queue, handled, mirrors, follows, latest, reached, promised⟩

theorem connect [DecidableEq Uid] (consistent : Consistent state) (uid : Uid) :
    Consistent (state.setClient uid (some .joining)) := by
  apply consistent.setClient uid
  intro next same
  cases same
  refine ⟨[], [], [], ⟨rfl, rfl, rfl⟩, List.nil_prefix, latest_nil [], .inl rfl, ?_⟩
  intro asked
  cases asked

theorem leave [DecidableEq Uid] (consistent : Consistent state) (uid : Uid) :
    Consistent (state.setClient uid none) := by
  apply consistent.setClient uid
  intro next same
  cases same

theorem deliver [DecidableEq Uid] (consistent : Consistent state) {uid : Uid}
    {client next : Client Vehicle} (connected : state.clients uid = some client)
    (delivered : client.deliver = some next) :
    Consistent (state.setClient uid (some next)) := by
  apply consistent.setClient uid
  intro other same
  cases same
  obtain ⟨copy, queue, handled, served⟩ := consistent.served uid client connected
  obtain ⟨sent, rest, rfl, asked, mirrors⟩ := served.mirrors.deliver delivered
  obtain ⟨quoted, brought, follows⟩ := served.follows
  refine ⟨_, rest, sent :: handled, mirrors, follows, served.latest.handle brought,
    served.reached, ?_⟩
  rw [asked]
  exact served.promised

theorem connectUID [DecidableEq Uid] (consistent : Consistent state) (uid : Uid) :
    Consistent (state.connectUID uid) where
  counted := consistent.counted
  cursor := consistent.cursor
  served other next connected := by
    by_cases same : other = uid
    · subst same
      rw [State.clients_connectUID_self, Option.map_eq_some_iff] at connected
      obtain ⟨client, connected, rfl⟩ := connected
      obtain ⟨copy, queue, handled, served⟩ := consistent.served other client connected
      have mirrors := served.mirrors
      refine ⟨copy, queue, handled, ⟨mirrors.list, mirrors.inbox, mirrors.handled⟩,
        served.follows, served.latest, served.reached, fun _ => .inl ⟨Nat.succ_pos _, ?_⟩⟩
      exact fun _ => rfl
    · rw [State.clients_connectUID_of_ne same] at connected
      obtain ⟨copy, queue, handled, served⟩ := consistent.served other next connected
      refine ⟨copy, queue, handled, served.mirrors, served.follows, served.latest,
        served.reached, ?_⟩
      intro asked
      rcases served.promised asked with ⟨pending, -⟩ | complete | covered
      · refine .inl ⟨Nat.succ_pos _, fun alone => ?_⟩
        exact absurd (Nat.succ.inj alone) pending.ne'
      · exact .inr (.inl complete)
      · exact .inr (.inr covered)

theorem respawnVehicle [DecidableEq Uid] (consistent : Consistent state) {index : ℕ}
    (inside : index < state.vehicleList.length) (newVehicle : Vehicle) :
    Consistent (state.respawnVehicle index newVehicle) where
  counted := consistent.counted.trans List.length_set.symm
  cursor := consistent.cursor
  served uid next connected := by
    obtain ⟨client, held, rfl⟩ := Option.map_eq_some_iff.mp connected
    obtain ⟨copy, queue, handled, served⟩ := consistent.served uid client held
    have length : (drained copy (queue ++ [⟨.entry index newVehicle,
        state.vehicleList.set index newVehicle⟩])).length = (drained copy queue).length := by
      rw [drained_push, Update.length_apply_entry]
    rw [if_pos (.inl rfl)]
    refine ⟨copy, _, handled, served.mirrors.post
      ⟨.entry index newVehicle, state.vehicleList.set index newVehicle⟩,
      served.follows.push_entry inside newVehicle, served.latest, ?_, ?_⟩
    · rw [length]
      exact served.reached
    · rw [length]
      exact served.promised

theorem covers_waiting {uid : Uid} (first : state.currentIndex < 1)
    (waiting : state.pendingClients = 1 → state.lastClient = some uid) :
    state.nextAddr.Covers uid := by
  by_cases alone : state.pendingClients = 1
  · exact .inr (by simp [State.nextAddr, first, alone, waiting alone])
  · exact .inl (by simp [State.nextAddr, first, alone])

section SendBlock

variable [DecidableEq Uid]

/-- A copy that ends where the block starts ends where the cursor is next, or is complete. -/
theorem advanced (consistent : Consistent state) (installed : state.mainThread = true)
    {uid : Uid} (covered : state.nextAddr.Covers uid) :
    Reached state.sendBlock uid (state.currentIndex + state.nextEntries.length) ∧
      Promised state.sendBlock uid (state.currentIndex + state.nextEntries.length) := by
  have cursor := consistent.cursor installed
  obtain ⟨some, within⟩ := state.nextEntries_bounds consistent.counted cursor
  rw [state.sendBlock_eq consistent.counted]
  by_cases complete : state.vehicleCount ≤ state.currentIndex + state.nextEntries.length
  · have all := Nat.le_antisymm within complete
    exact ⟨.inr (.inl all), .inr (.inl ⟨Nat.zero_lt_of_lt cursor, all⟩)⟩
  · have ahead : 0 < state.currentIndex + state.nextEntries.length := by omega
    simp only [Reached, Promised, complete, if_false]
    exact ⟨.inr (.inr ⟨ahead, covered, trivial⟩), .inr (.inr ⟨ahead, covered, trivial⟩)⟩

/-- A copy that the block does not extend is still empty or complete, and its client is
still waited for if it was. -/
theorem passed (consistent : Consistent state) {uid : Uid} {length : ℕ}
    (ignored : ¬(state.nextAddr.Covers uid ∧ state.currentIndex = length))
    (reached : Reached state uid length) :
    Reached state.sendBlock uid length ∧
      (Promised state uid length → Promised state.sendBlock uid length) := by
  have outside : ¬(0 < state.currentIndex ∧ state.addr.Covers uid ∧
      length = state.currentIndex) := by
    rintro ⟨later, covered, same⟩
    apply ignored
    rw [State.nextAddr, if_neg (by omega)]
    exact ⟨covered, same.symm⟩
  have settled : length = 0 ∨ length = state.vehicleCount := by
    rcases reached with empty | complete | covered
    · exact .inl empty
    · exact .inr complete
    · exact absurd covered outside
  rw [state.sendBlock_eq consistent.counted]
  refine ⟨settled.imp_right .inl, ?_⟩
  rintro (⟨pending, waiting⟩ | complete | covered)
  · by_cases first : state.currentIndex < 1
    · have apart : state.currentIndex ≠ length :=
        fun same => ignored ⟨covers_waiting first waiting, same⟩
      have complete : length = state.vehicleCount := settled.resolve_left (by omega)
      exact .inr (.inl ⟨by show 0 < state.vehicleCount; omega, complete⟩)
    · refine .inl ?_
      simp only [first, if_false]
      exact ⟨pending, waiting⟩
  · exact .inr (.inl complete)
  · exact absurd covered outside

theorem sendBlock (consistent : Consistent state) (installed : state.mainThread = true) :
    Consistent state.sendBlock where
  counted := by
    rw [state.sendBlock_eq consistent.counted]
    exact consistent.counted
  cursor _ := by
    rw [state.sendBlock_eq consistent.counted]
    have cursor := consistent.cursor installed
    simp only
    split
    · exact Nat.zero_lt_of_lt cursor
    · omega
  served uid next connected := by
    have sent := state.sendBlock_eq consistent.counted
    have sameList : state.sendBlock.vehicleList = state.vehicleList := by rw [sent]
    have sameCount : state.sendBlock.vehicleCount = state.vehicleCount := by rw [sent]
    rw [sent] at connected
    obtain ⟨client, held, rfl⟩ := Option.map_eq_some_iff.mp connected
    obtain ⟨copy, queue, handled, served⟩ := consistent.served uid client held
    have quoted : (Update.block state.currentIndex state.nextEntries).Quotes
        state.vehicleList := List.take_prefix _ _
    by_cases covered : state.nextAddr.Covers uid
    · have length : Reached state.sendBlock uid (drained copy (queue ++
          [⟨.block state.currentIndex state.nextEntries, state.vehicleList⟩])).length ∧
          (client.asked = true → Promised state.sendBlock uid (drained copy (queue ++
            [⟨.block state.currentIndex state.nextEntries, state.vehicleList⟩])).length) := by
        rw [drained_push]
        by_cases here : state.currentIndex = (drained copy queue).length
        · have advanced := consistent.advanced installed covered
          rw [here, Update.apply_block_of_eq, List.length_append, ← here]
          exact ⟨advanced.1, fun _ => advanced.2⟩
        · have passed := consistent.passed (fun both => here both.2) served.reached
          rw [Update.apply_block_of_ne here]
          exact ⟨passed.1, fun asked => passed.2 (served.promised asked)⟩
      rw [if_pos covered]
      refine ⟨copy, _, handled, ?_, ?_, served.latest, length.1, length.2⟩
      · exact sameCount ▸ served.mirrors.post _
      · exact sameList ▸ served.follows.push_block quoted
    · rw [if_neg covered]
      have passed := consistent.passed (fun both => covered both.1) served.reached
      refine ⟨copy, queue, handled, ?_, ?_, served.latest, passed.1, ?_⟩
      · exact sameCount ▸ served.mirrors
      · exact sameList ▸ served.follows
      · exact fun asked => passed.2 (served.promised asked)

theorem step {label : Event Uid Vehicle} {after : State Uid Vehicle}
    (consistent : Consistent state) (stepped : Vehicles.step state label = some after) :
    Consistent after := by
  cases label with
  | connect uid =>
      obtain ⟨-, rfl⟩ := Option.ite_none_right_eq_some.mp stepped |>.imp_right Option.some.inj
      exact consistent.connect uid
  | connectUID uid =>
      cases stepped
      exact consistent.connectUID uid
  | leave uid =>
      cases stepped
      exact consistent.leave uid
  | respawnVehicle index newVehicle =>
      obtain ⟨⟨-, inside⟩, rfl⟩ :=
        Option.ite_none_right_eq_some.mp stepped |>.imp_right Option.some.inj
      exact consistent.respawnVehicle inside newVehicle
  | sendBlock =>
      obtain ⟨⟨installed, -⟩, rfl⟩ :=
        Option.ite_none_right_eq_some.mp stepped |>.imp_right Option.some.inj
      exact consistent.sendBlock installed
  | deliver uid =>
      obtain ⟨client, connected, next⟩ := Option.bind_eq_some_iff.mp stepped
      obtain ⟨next, delivered, rfl⟩ := Option.map_eq_some_iff.mp next
      exact consistent.deliver connected delivered

end SendBlock

theorem run {labels : List (Event Uid Vehicle)} {vehicles : List Vehicle} [DecidableEq Uid]
    {finish : State Uid Vehicle}
    (ran : Library.run Vehicles.step (State.initVehicleRespawn vehicles) labels =
      some finish) : Consistent finish :=
  run_invariant Consistent (fun _ _ _ consistent stepped => consistent.step stepped)
    (initial vehicles) ran

end Consistent

/-- The client's list is no longer than the server's, and each entry is what the server's
list held when the last message about it was sent, of those that the client has handled. -/
def UpToDate (state : State Uid Vehicle) (client : Client Vehicle) : Prop :=
  (client.vehicleList.getD []).length ≤ state.vehicleList.length ∧
    ∀ index < (client.vehicleList.getD []).length, ∃ newer message older vehicle,
      client.handled = newer ++ message :: older ∧
      (∀ other ∈ newer, ¬other.Concerns index) ∧ message.Concerns index ∧
      message.vehicleList[index]? = some vehicle ∧
      (client.vehicleList.getD [])[index]? = some (.vehicle vehicle)

/-- Each entry of the server's list is on the client's or has a message about it on its way,
or the client's list ends before it; then a client that asked waits for a pass or for the
next block of one. -/
def OnItsWay (state : State Uid Vehicle) (client : Client Vehicle) : Prop :=
  ∀ index vehicle, state.vehicleList[index]? = some vehicle →
    (client.vehicleList.getD [])[index]? = some (.vehicle vehicle) ∨
      (∃ message ∈ client.inbox, message.Concerns index) ∨
        (client.vehicleList.getD []).length ≤ index ∧
          (client.asked = true → 0 < state.pendingClients ∨ 0 < state.currentIndex)

/-- A client's entry changes only when the client handles a message about it, to what the
server's list held there when the message was sent. -/
def StoresInPlace (before : State Uid Vehicle) (label : Event Uid Vehicle)
    (after : State Uid Vehicle) : Prop :=
  ∀ uid client next, before.clients uid = some client → after.clients uid = some next →
    ∀ index : ℕ, (next.vehicleList.getD [])[index]? ≠ (client.vehicleList.getD [])[index]? →
      ∃ message inbox vehicle, label = .deliver uid ∧ client.inbox = message :: inbox ∧
        message.Concerns index ∧ message.vehicleList[index]? = some vehicle ∧
        (next.vehicleList.getD [])[index]? = some (.vehicle vehicle)

namespace Served

variable {state : State Uid Vehicle} {uid : Uid} {client : Client Vehicle}
  {copy : List Vehicle} {queue handled : List (Sent Vehicle)}

theorem upToDate (served : Served state uid client copy queue handled) :
    UpToDate state client := by
  have list := served.mirrors.list
  constructor
  · calc (client.vehicleList.getD []).length = copy.length := by rw [list, List.length_map]
      _ ≤ (drained copy queue).length := length_le_drained copy queue
      _ ≤ state.vehicleList.length := served.follows.drained_isPrefix.length_le
  · intro index inside
    have inCopy : index < copy.length := by simpa [list] using inside
    obtain ⟨newer, message, older, split, silent, concerns, same⟩ :=
      served.latest index inCopy
    rw [List.getElem?_eq_getElem inCopy] at same
    refine ⟨newer.map (.ofSent state.vehicleCount), .ofSent state.vehicleCount message,
      older.map (.ofSent state.vehicleCount), copy[index], ?_, ?_,
      Message.concerns_ofSent.mpr concerns, ?_, ?_⟩
    · rw [served.mirrors.handled, split, List.map_append, List.map_cons]
    · intro other member
      obtain ⟨sent, among, rfl⟩ := List.mem_map.mp member
      exact fun about => silent sent among (Message.concerns_ofSent.mp about)
    · rw [Message.ofSent_vehicleList, same]
    · rw [list, List.getElem?_map, List.getElem?_eq_getElem inCopy, Option.map_some]

theorem onItsWay (served : Served state uid client copy queue handled)
    (counted : state.vehicleCount = state.vehicleList.length) : OnItsWay state client := by
  intro index vehicle isEntry
  have list := served.mirrors.list
  rcases served.follows.getElem?_cases isEntry with
    same | ⟨sent, member, concerns⟩ | ⟨beyond, later⟩
  · left
    rw [list, List.getElem?_map, same, Option.map_some]
  · refine .inr (.inl ⟨.ofSent state.vehicleCount sent, ?_, Message.concerns_ofSent.mpr concerns⟩)
    rw [served.mirrors.inbox]
    exact List.mem_map_of_mem member
  · refine .inr (.inr ⟨by simpa [list] using beyond, fun asked => ?_⟩)
    rcases served.promised asked with ⟨waits, -⟩ | ⟨-, whole⟩ | ⟨underWay, -⟩
    · exact .inl waits
    · have inside := (List.getElem?_eq_some_iff.mp isEntry).1
      omega
    · exact .inr underWay

/-- Between two passes, a client that asked and has nothing left to handle has it all. -/
theorem complete (served : Served state uid client copy queue handled)
    (counted : state.vehicleCount = state.vehicleList.length)
    (settled : state.pendingClients = 0) (idle : state.currentIndex = 0)
    (delivered : client.inbox = []) (asked : client.asked = true) :
    client.vehicleList = some (state.vehicleList.map .vehicle) := by
  have empty : queue = [] := by simpa [delivered] using served.mirrors.inbox
  subst empty
  have promised := served.promised asked
  simp only [Promised, settled, idle, Nat.lt_irrefl, false_and, false_or, or_false] at promised
  have whole : copy = state.vehicleList :=
    served.follows.eq_of_length (promised.2.trans counted)
  have list := served.mirrors.list
  cases held : client.vehicleList with
  | none =>
      rw [held, Option.getD_none, whole] at list
      have none := congrArg List.length list
      rw [List.length_map, ← counted] at none
      exact absurd none promised.1.ne
  | some vehicleList => rw [← whole, ← list, held, Option.getD_some]

end Served

/-- Only the delivery of a message to a client that stays connected changes its list. -/
theorem step_vehicleList [DecidableEq Uid] {before after : State Uid Vehicle}
    {label : Event Uid Vehicle} (counted : before.vehicleCount = before.vehicleList.length)
    (stepped : step before label = some after) {uid : Uid}
    {client next : Client Vehicle} (held : before.clients uid = some client)
    (connected : after.clients uid = some next) :
    next.vehicleList = client.vehicleList ∨
      label = .deliver uid ∧ client.deliver = some next := by
  cases label with
  | connect other =>
      obtain ⟨free, rfl⟩ := Option.ite_none_right_eq_some.mp stepped |>.imp_right Option.some.inj
      have distinct : uid ≠ other := by
        rintro rfl
        simp [held] at free
      rw [State.clients_setClient_of_ne distinct, held] at connected
      cases connected
      exact .inl rfl
  | connectUID other =>
      cases stepped
      by_cases same : uid = other
      · subst same
        rw [State.clients_connectUID_self, held] at connected
        cases connected
        exact .inl rfl
      · rw [State.clients_connectUID_of_ne same, held] at connected
        cases connected
        exact .inl rfl
  | leave other =>
      cases stepped
      by_cases same : uid = other
      · subst same
        rw [State.clients_setClient_self] at connected
        cases connected
      · rw [State.clients_setClient_of_ne same, held] at connected
        cases connected
        exact .inl rfl
  | respawnVehicle index newVehicle =>
      obtain ⟨-, rfl⟩ := Option.ite_none_right_eq_some.mp stepped |>.imp_right Option.some.inj
      obtain ⟨other, same, rfl⟩ := Option.map_eq_some_iff.mp connected
      obtain rfl : client = other := Option.some.inj (held.symm.trans same)
      exact .inl (by rw [if_pos (.inl rfl), Client.post])
  | sendBlock =>
      obtain ⟨-, rfl⟩ := Option.ite_none_right_eq_some.mp stepped |>.imp_right Option.some.inj
      rw [before.sendBlock_eq counted] at connected
      obtain ⟨other, same, rfl⟩ := Option.map_eq_some_iff.mp connected
      obtain rfl : client = other := Option.some.inj (held.symm.trans same)
      exact .inl (by split <;> rfl)
  | deliver other =>
      obtain ⟨receiver, found, handled⟩ := Option.bind_eq_some_iff.mp stepped
      obtain ⟨done, delivered, rfl⟩ := Option.map_eq_some_iff.mp handled
      by_cases same : uid = other
      · subst same
        rw [State.clients_setClient_self, Option.some.injEq] at connected
        rw [held, Option.some.injEq] at found
        exact .inr ⟨rfl, by rw [found, delivered, connected]⟩
      · rw [State.clients_setClient_of_ne same, held] at connected
        cases connected
        exact .inl rfl

theorem storesInPlace_of_step [DecidableEq Uid] {before after : State Uid Vehicle}
    {label : Event Uid Vehicle} (consistent : Consistent before)
    (stepped : step before label = some after) : StoresInPlace before label after := by
  intro uid client next held connected index changed
  rcases step_vehicleList consistent.counted stepped held connected with same | ⟨rfl, delivered⟩
  · exact absurd (by rw [same]) changed
  · obtain ⟨copy, queue, handled, served⟩ := consistent.served uid client held
    obtain ⟨sent, rest, rfl, -, mirrors⟩ := served.mirrors.deliver delivered
    obtain ⟨-, brought, -⟩ := served.follows
    rw [mirrors.list, served.mirrors.list, List.getElem?_map, List.getElem?_map] at changed
    have concerned : sent.update.Concerns index := by
      by_contra foreign
      exact changed (by rw [Update.apply_getElem?_of_not_concerns foreign])
    have inside : index < (sent.update.apply copy).length := by
      by_contra beyond
      have short := sent.update.length_le_apply copy
      rw [List.getElem?_eq_none (by omega), List.getElem?_eq_none (by omega)] at changed
      exact changed rfl
    refine ⟨.ofSent before.vehicleCount sent, rest.map (.ofSent before.vehicleCount),
      (sent.update.apply copy)[index], rfl, ?_, Message.concerns_ofSent.mpr concerned, ?_, ?_⟩
    · rw [served.mirrors.inbox, List.map_cons]
    · rw [Message.ofSent_vehicleList]
      exact List.prefix_iff_getElem?.mp brought index inside
    · rw [mirrors.list, List.getElem?_map, List.getElem?_eq_getElem inside, Option.map_some]

/-- Every run of the server, its clients and their messages keeps the clients' lists in
step with the server's list. -/
theorem lists_synchronised [DecidableEq Uid] {vehicles : List Vehicle}
    {labels : List (Event Uid Vehicle)} {finish : State Uid Vehicle}
    (ran : run step (State.initVehicleRespawn vehicles) labels = some finish) :
    Along step StoresInPlace (State.initVehicleRespawn vehicles) labels ∧
      (∀ uid client, finish.clients uid = some client → UpToDate finish client) ∧
      (finish.pendingClients = 0 → finish.currentIndex = 0 →
        ∀ uid client, finish.clients uid = some client → client.inbox = [] →
          client.asked = true →
            client.vehicleList = some (finish.vehicleList.map .vehicle)) := by
  have consistent := Consistent.run ran
  refine ⟨?_, ?_, ?_⟩
  · exact along_of_invariant Consistent
      (fun _ _ _ consistent stepped =>
        ⟨consistent.step stepped, storesInPlace_of_step consistent stepped⟩)
      (Consistent.initial vehicles) labels
  · intro uid client connected
    obtain ⟨copy, queue, handled, served⟩ := consistent.served uid client connected
    exact served.upToDate
  · intro settled idle uid client connected delivered asked
    obtain ⟨copy, queue, handled, served⟩ := consistent.served uid client connected
    exact served.complete consistent.counted settled idle delivered asked

/-- Two clients of seven vehicles: one asks and is served alone, the other joins in the
middle of that pass, asks, and is served while two vehicles are replaced. -/
def session : List (Event ℕ ℕ) :=
  [.connect 1, .connectUID 1, .sendBlock, .connect 2, .deliver 1, .respawnVehicle 1 8,
    .respawnVehicle 6 9, .connectUID 2, .sendBlock, .deliver 1, .deliver 1, .deliver 1,
    .sendBlock, .deliver 2, .deliver 2, .deliver 2, .sendBlock, .deliver 2]

theorem lists_synchronised_session : ∃ finish : State ℕ ℕ,
    run step (State.initVehicleRespawn (List.range 7)) session = some finish ∧
      ∀ client, finish.clients 2 = some client →
        client.vehicleList = some ([0, 8, 2, 3, 4, 5, 9].map .vehicle) := by
  have ends : (run step (State.initVehicleRespawn (List.range 7) : State ℕ ℕ) session).map
      (fun state => (state.pendingClients, state.currentIndex, state.vehicleList,
        (state.clients 2).map fun client => (client.inbox.isEmpty, client.asked))) =
      some (0, 0, [0, 8, 2, 3, 4, 5, 9], some (true, true)) := by decide +kernel
  obtain ⟨finish, ran, reached⟩ := Option.map_eq_some_iff.mp ends
  simp only [Prod.mk.injEq] at reached
  obtain ⟨settled, idle, list, delivered⟩ := reached
  refine ⟨finish, ran, fun client connected => ?_⟩
  rw [connected, Option.map_some, Option.some.injEq, Prod.mk.injEq] at delivered
  rw [← list]
  exact (lists_synchronised ran).2.2 settled idle 2 client connected
    (List.isEmpty_iff.mp delivered.1) delivered.2

end OperationFrontLine.Vehicles
