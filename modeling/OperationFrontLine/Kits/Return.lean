import OperationFrontLine.Kits.Stock

/-!
# Return of the kits of players who left

A player's last entry in the queue decides whether the player ends up with a kit.
A request is only queued while its player has an owner number, and a
disconnection is queued before that number is removed, so the last entry of a
player who left is the disconnection.
-/

namespace OperationFrontLine.Kits

open OperationFrontLine.Library
open OperationFrontLine.Identity

/-- Whether a player may hold a kit after an entry, from whether it may before. -/
def fate (key : Text) (holds : Bool) : Option Entry → Bool
  | some (.setKit _ _ uid) => holds || decide (fold uid = key)
  | some (.disconnectKit uid) => holds && decide (fold uid ≠ key)
  | none => holds

/-- A player who may hold a kit after the queue although not before may as well
have held one before. -/
theorem fate_mono {key : Text} {less more : Bool} (queue : List (Option Entry))
    (fewer : less = true → more = true) (held : queue.foldl (fate key) less = true) :
    queue.foldl (fate key) more = true := by
  induction queue generalizing less more with
  | nil => exact fewer held
  | cons item queue inductionHypothesis =>
      refine inductionHypothesis ?_ held
      cases item with
      | none => exact fewer
      | some entry =>
          cases entry with
          | setKit id kitName uid =>
              simp only [fate, Bool.or_eq_true]
              exact Or.imp_left fewer
          | disconnectKit uid =>
              simp only [fate, Bool.and_eq_true]
              exact And.imp_left fewer

theorem fate_filter (key : Text) (queue : List (Option Entry)) (held : Bool) :
    (queue.filter (· ≠ none)).foldl (fate key) held = queue.foldl (fate key) held := by
  induction queue generalizing held with
  | nil => rfl
  | cons item queue inductionHypothesis =>
      cases item with
      | none => simpa [fate] using inductionHypothesis held
      | some entry => simpa using inductionHypothesis (fate key held (some entry))

def Sets (uid : Text) (item : Option Entry) : Prop :=
  ∃ id kitName, item = some (.setKit id kitName uid)

def Rest.WorksOn (uid : Text) (item : Option Entry) : Rest → Prop
  | .give _ => Sets uid item
  | .clear => item = some (.disconnectKit uid)

namespace State

def Connected (state : State) (key : Text) : Prop :=
  ∃ client ∈ state.directory.connected, fold client.1 = key

/-- The element of the queue that the thread works on; when it is done with a
disconnection, the player's variable is clear. -/
def WorksOn (state : State) (item : Option Entry) : Prop :=
  match state.thread with
  | .select => False
  | .dispatch entry => item = some entry
  | .exitIfHeld _ uid => Sets uid item
  | .ifAvailable _ uid => Sets uid item
  | .take _ uid => Sets uid item
  | .dropKit uid rest => rest.WorksOn uid item
  | .putBack _ uid rest => rest.WorksOn uid item
  | .assign uid rest => rest.WorksOn uid item
  | .mark => ∀ uid, item = some (.disconnectKit uid) → state.holder (fold uid) = none
  | .filter => item = none

def AtHead (state : State) : Prop :=
  state.thread = .select ∨ ∃ item rest, state.queue = item :: rest ∧ state.WorksOn item

/-- Who may hold a kit once the queue is worked off is connected. -/
structure Returning (state : State) : Prop where
  owners : state.directory.OwnersConnected
  atHead : state.AtHead
  fated : ∀ key, state.queue.foldl (fate key) (state.holder key).isSome = true →
    state.Connected key

theorem returning_start (kits : List (Text × ℕ)) : (start kits).Returning where
  owners := Directory.ownersConnected_initial
  atHead := .inl rfl
  fated key held := by simp [start] at held

theorem AtHead.append {state : State} (atHead : state.AtHead) (entries : List (Option Entry))
    (directory : Directory) :
    AtHead { state with queue := state.queue ++ entries, directory := directory } :=
  atHead.imp id fun ⟨item, rest, queue, works⟩ =>
    ⟨item, rest ++ entries, by rw [queue, List.cons_append], works⟩

theorem owner_of_tempId {tables : Tables} {id : Text} (positive : 0 < tempId tables id) :
    tables.table (variableName .client (tables.idToUid (.text id))) ≠ none := by
  intro missing
  simp [tempId, Tables.idToTemp, Tables.uidToTemp, missing] at positive

theorem Returning.request {state : State} (returning : state.Returning) (id kitName : Text) :
    (state.requestSetKit id kitName).Returning := by
  unfold requestSetKit
  split
  case isFalse => exact returning
  case isTrue positive =>
    refine ⟨returning.owners, returning.atHead.append _ _, fun key held => ?_⟩
    simp only [List.foldl_append, List.foldl_cons, List.foldl_nil, fate, Bool.or_eq_true,
      decide_eq_true_eq] at held
    rcases held with before | rfl
    · exact returning.fated key before
    · exact returning.owners _ (owner_of_tempId positive)

theorem Returning.connection {state after : State} (returning : state.Returning)
    {event : Identity.Event} (stepped : state.connection event = some after) :
    after.Returning := by
  obtain ⟨directory, did, result⟩ := Option.map_eq_some_iff.mp stepped
  have owners := returning.owners.step did
  cases event with
  | connect uid name owner =>
      subst result
      refine ⟨owners, ?_, fun key held => ?_⟩
      · simpa using returning.atHead.append [] directory
      · obtain ⟨client, member, same⟩ := returning.fated key held
        simp only [Directory.step, Option.ite_none_right_eq_some, Option.some.injEq] at did
        obtain ⟨-, rfl⟩ := did
        exact ⟨client, List.mem_cons_of_mem _ member, same⟩
  | disconnect uid =>
      subst result
      refine ⟨owners, returning.atHead.append _ _, fun key held => ?_⟩
      simp only [attemptDisconnectKit, List.foldl_append, List.foldl_cons, List.foldl_nil, fate,
        Bool.and_eq_true, decide_eq_true_eq] at held
      obtain ⟨client, member, same⟩ := returning.fated key held.1
      simp only [Directory.step, Option.ite_none_right_eq_some, Option.some.injEq] at did
      obtain ⟨-, rfl⟩ := did
      refine ⟨client, List.mem_filter.mpr ⟨member, ?_⟩, same⟩
      refine decide_eq_true fun left => held.2 ?_
      rw [← left, same]

/-- A statement that leaves the queue and the players' variables alone and goes on
with the same entry. -/
theorem Returning.next {state after : State} (returning : state.Returning)
    (working : state.thread ≠ .select) (directory : after.directory = state.directory)
    (queue : after.queue = state.queue) (holder : after.holder = state.holder)
    (works : ∀ item, state.WorksOn item → after.WorksOn item) : after.Returning where
  owners := directory ▸ returning.owners
  atHead := by
    obtain ⟨item, rest, head, here⟩ := returning.atHead.resolve_left working
    exact .inr ⟨item, rest, queue.trans head, works item here⟩
  fated key held := by
    rw [queue, holder] at held
    rw [Connected, directory]
    exact returning.fated key held

theorem Sets.done {uid : Text} {item : Option Entry} (sets : Sets uid item) (other : Text) :
    item ≠ some (.disconnectKit other) := by
  obtain ⟨id, kitName, rfl⟩ := sets
  exact fun same => by cases same

/-- A change of one player's variable that the entry at the head makes anyway. -/
theorem Returning.assign {state after : State} (returning : state.Returning) {uid : Text}
    {value : Option Text} {item : Option Entry} {rest : List (Option Entry)}
    (head : state.queue = item :: rest) (directory : after.directory = state.directory)
    (queue : after.queue = state.queue)
    (holder : after.holder = Function.update state.holder (fold uid) value)
    (same : ∀ before, fate (fold uid) before item = value.isSome) (atHead : after.AtHead) :
    after.Returning where
  owners := directory ▸ returning.owners
  atHead := atHead
  fated key held := by
    rw [Connected, directory]
    refine returning.fated key ?_
    rw [queue, holder, head, List.foldl_cons, Function.update_apply] at held
    rw [head, List.foldl_cons]
    by_cases here : key = fold uid
    · rw [here, same] at held ⊢
      exact held
    · rwa [if_neg here] at held

/-- Every statement of the thread keeps the players who left on their way to none. -/
theorem Returning.threadStep {state after : State} (returning : state.Returning)
    (stepped : state.threadStep = some after) : after.Returning := by
  cases at_ : state.thread with
  | select =>
      simp only [State.threadStep, at_] at stepped
      split at stepped
      case h_1 => cases stepped
      case h_2 rest queue =>
        obtain rfl := Option.some.inj stepped
        exact ⟨returning.owners, .inr ⟨_, _, queue, fun _ other => by cases other⟩,
          returning.fated⟩
      case h_3 entry rest queue =>
        obtain rfl := Option.some.inj stepped
        exact ⟨returning.owners, .inr ⟨_, _, queue, rfl⟩, returning.fated⟩
  | dispatch entry =>
      cases entry with
      | setKit id kitName uid =>
          simp only [State.threadStep, at_] at stepped
          obtain rfl := Option.some.inj stepped
          refine returning.next (by simp [at_]) rfl rfl rfl fun item here => ?_
          simp only [WorksOn, at_] at here
          exact ⟨id, kitName, here⟩
      | disconnectKit uid =>
          simp only [State.threadStep, at_] at stepped
          obtain rfl := Option.some.inj stepped
          refine returning.next (by simp [at_]) rfl rfl rfl fun item here => ?_
          simp only [WorksOn, at_] at here
          exact here
  | exitIfHeld kitName uid =>
      simp only [State.threadStep, at_] at stepped
      split at stepped <;> obtain rfl := Option.some.inj stepped <;>
        refine returning.next (by simp [at_]) rfl rfl rfl fun item here => ?_ <;>
        simp only [WorksOn, at_] at here
      · exact fun other same => absurd same (Sets.done here other)
      · exact here
  | ifAvailable kitName uid =>
      simp only [State.threadStep, at_] at stepped
      split at stepped
      case h_1 =>
        split at stepped <;> obtain rfl := Option.some.inj stepped <;>
          refine returning.next (by simp [at_]) rfl rfl rfl fun item here => ?_ <;>
          simp only [WorksOn, at_] at here
        · exact here
        · exact fun other same => absurd same (Sets.done here other)
      case h_2 =>
        obtain rfl := Option.some.inj stepped
        refine returning.next (by simp [at_]) rfl rfl rfl fun item here => ?_
        simp only [WorksOn, at_] at here
        exact fun other same => absurd same (Sets.done here other)
  | take kitName uid =>
      simp only [State.threadStep, at_] at stepped
      obtain rfl := Option.some.inj stepped
      refine returning.next (by simp [at_]) rfl rfl rfl fun item here => ?_
      simp only [WorksOn, at_] at here
      exact here
  | dropKit uid rest =>
      simp only [State.threadStep, at_] at stepped
      split at stepped <;> obtain rfl := Option.some.inj stepped <;>
        refine returning.next (by simp [at_]) rfl rfl rfl fun item here => ?_ <;>
        simp only [WorksOn, at_] at here <;> exact here
  | putBack lastKitName uid rest =>
      simp only [State.threadStep, at_] at stepped
      obtain rfl := Option.some.inj stepped
      refine returning.next (by simp [at_]) rfl rfl rfl fun item here => ?_
      simp only [WorksOn, at_] at here
      exact here
  | assign uid rest =>
      obtain ⟨item, others, head, here⟩ := returning.atHead.resolve_left (by simp [at_])
      simp only [WorksOn, at_] at here
      cases rest with
      | give kitName =>
          simp only [State.threadStep, at_] at stepped
          obtain rfl := Option.some.inj stepped
          refine returning.assign head rfl rfl rfl ?_ (.inr ⟨item, others, head, ?_⟩)
          · obtain ⟨id, name, rfl⟩ := here
            simp [fate]
          · exact fun other same => absurd same (Sets.done here other)
      | clear =>
          simp only [State.threadStep, at_] at stepped
          obtain rfl := Option.some.inj stepped
          obtain rfl : item = some (.disconnectKit uid) := here
          refine returning.assign head rfl rfl rfl (by simp [fate]) (.inr ⟨_, others, head, ?_⟩)
          intro other same
          obtain rfl : uid = other := by simpa using same
          simp
  | mark =>
      obtain ⟨item, others, head, here⟩ := returning.atHead.resolve_left (by simp [at_])
      simp only [WorksOn, at_] at here
      simp only [State.threadStep, at_] at stepped
      obtain rfl := Option.some.inj stepped
      refine ⟨returning.owners, .inr ⟨none, others, by rw [head]; rfl, rfl⟩, fun key held => ?_⟩
      refine returning.fated key ?_
      rw [head, List.set_cons_zero, List.foldl_cons] at held
      rw [head, List.foldl_cons]
      refine fate_mono others (fun holds => ?_) held
      cases item with
      | none => exact holds
      | some entry =>
          cases entry with
          | setKit id kitName uid => simpa [fate] using Or.inl holds
          | disconnectKit uid =>
              have cleared := here uid rfl
              have other : fold uid ≠ key := by
                rintro rfl
                simp [fate, cleared] at holds
              simpa [fate, other] using holds
  | filter =>
      simp only [State.threadStep, at_] at stepped
      obtain rfl := Option.some.inj stepped
      refine ⟨returning.owners, .inl rfl, fun key held => returning.fated key ?_⟩
      rwa [fate_filter] at held

theorem Returning.step {state after : State} (returning : state.Returning) {event : Event}
    (stepped : state.step event = some after) : after.Returning := by
  cases event with
  | request id kitName =>
      obtain rfl := Option.some.inj stepped
      exact returning.request id kitName
  | connection event => exact returning.connection stepped
  | thread => exact returning.threadStep stepped

/-! ## Runs -/

/-- The kits of a mission with certain limits: none is negative in stock, stock and
players have the limit between them unless the thread is moving a kit, and with an
empty queue only connected players hold one. -/
structure Conserved (limits : Text → Option ℤ) (state : State) : Prop where
  nonnegative : ∀ kit limit, limits kit = some limit →
    ∃ available, state.stock kit = some available ∧ 0 ≤ available
  conserved : ∀ kit limit, limits kit = some limit → state.thread.settled = true →
    ∃ available, state.stock kit = some available ∧
      available + (state.holders kit).ncard = limit
  returned : state.queue = [] → ∀ uid, state.holder (fold uid) ≠ none →
    ∃ client ∈ state.directory.connected, fold client.1 = fold uid

theorem inHand_of_settled {state : State} (settled : state.thread.settled = true) (kit : Text) :
    state.inHand kit = 0 := by
  unfold inHand
  unfold Thread.settled at settled
  split <;> simp_all

theorem Accounted.conserved {state : State} {limits : Text → Option ℤ}
    (accounted : state.Accounted limits) (returning : state.Returning) :
    state.Conserved limits where
  nonnegative kit limit limited := by
    obtain ⟨available, stocked, nonneg, -⟩ := accounted.stocked kit limit limited
    exact ⟨available, stocked, nonneg⟩
  conserved kit limit limited settled := by
    obtain ⟨available, stocked, -, account⟩ := accounted.stocked kit limit limited
    rw [inHand_of_settled settled, add_zero] at account
    exact ⟨available, stocked, account⟩
  returned empty uid held := by
    refine returning.fated (fold uid) ?_
    rw [empty, List.foldl_nil]
    exact Option.isSome_iff_ne_none.mpr held

/-- In every run of requests, connections, disconnections and statements of the thread,
for any kits, the kits are conserved. -/
theorem kits_conserved (kits : List (Text × ℕ)) (events : List Event) :
    Along step (fun _ _ after => after.Conserved (loadKits kits)) (start kits) events :=
  along_of_invariant (fun state => state.Accounted (loadKits kits) ∧ state.Returning)
    (fun _ _ _ holds stepped =>
      have accounted := holds.1.step stepped
      have returning := holds.2.step stepped
      ⟨⟨accounted, returning⟩, accounted.conserved returning⟩)
    ⟨accounted_start kits, returning_start kits⟩ events

def firstKit : List Event :=
  [.connection (.connect "7".toList [] 3), .request [Char.ofNat 2] "WestSniper".toList,
    .thread, .thread, .thread, .thread, .thread]

/-- Between two statements of `PKS_SetKit` the kit is neither in stock nor held. -/
theorem kits_firstKit :
    ¬ Along step (fun _ _ after => ∀ kit limit,
        loadKits [("WestSniper".toList, 1)] kit = some limit →
        ∃ available, after.stock kit = some available ∧
          available + (after.holders kit).ncard = limit)
      (start [("WestSniper".toList, 1)]) firstKit := by
  intro conserved
  have taken : ((run step (start [("WestSniper".toList, 1)]) (firstKit.take 6)).bind fun before =>
      (before.step .thread).map fun after =>
        (after.stock "westsniper".toList, after.holder)) = some (some 0, fun _ => none) := by
    rfl
  obtain ⟨before, ran, rest⟩ := Option.bind_eq_some_iff.mp taken
  obtain ⟨after, stepped, same⟩ := Option.map_eq_some_iff.mp rest
  obtain ⟨empty, unheld⟩ := Prod.mk.inj same
  have split : firstKit = firstKit.take 6 ++ [.thread] := by decide +kernel
  rw [split] at conserved
  have last := ((along_append.mp conserved).2 before ran after stepped).1
  obtain ⟨available, stocked, account⟩ := last "westsniper".toList 1 (by decide +kernel)
  rw [empty, Option.some.injEq] at stocked
  rw [← stocked, holders, unheld, keysWith_none, Set.ncard_empty] at account
  simp at account

end State

end OperationFrontLine.Kits
