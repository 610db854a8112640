import OperationFrontLine.Library.Counting
import OperationFrontLine.Kits.Armory

/-!
# Conservation of the kits

A kit is in the stock, held by a player, or in the hands of the thread: between
the statement that takes it and the one that gives it.  The account of the three
is exact in every state; without the third it is so only outside the entry.
-/

namespace OperationFrontLine.Kits

open OperationFrontLine.Library
open OperationFrontLine.Identity

/-- The players whose variable is a kit, by UID. -/
def State.holders (state : State) (kit : Text) : Set Text :=
  keysWith (fun name => fold name = kit) state.holder

/-- Whether a value of a player's variable is the kit, as a number. -/
def counts (held : Option Text) (kit : Text) : ℕ :=
  if ∃ name ∈ held, fold name = kit then 1 else 0

def Rest.gives (kit : Text) : Rest → ℕ
  | .give kitName => counts (some kitName) kit
  | .clear => 0

/-- The kits in the hands of the thread.  After a drop the old kit is in the stock and
still in the player's variable, so it counts against. -/
def State.inHand (state : State) (kit : Text) : ℤ :=
  match state.thread with
  | .dropKit _ rest => rest.gives kit
  | .putBack _ _ rest => rest.gives kit
  | .assign uid rest => rest.gives kit - counts (state.holder (fold uid)) kit
  | _ => 0

def Thread.settled : Thread → Bool
  | .dropKit _ _ => false
  | .putBack _ _ _ => false
  | .assign _ _ => false
  | _ => true

/-! ## The stock -/

def State.Checked (state : State) : Prop :=
  match state.thread with
  | .take kitName _ => ∃ available, state.stock (fold kitName) = some available ∧ 0 < available
  | .putBack lastKitName uid _ => state.holder (fold uid) = some lastKitName
  | _ => True

/-- Stock, players and thread have the limit of each kit between them. -/
structure State.Accounted (limits : Text → Option ℤ) (state : State) : Prop where
  finite : ∀ kit, (state.holders kit).Finite
  stocked : ∀ kit limit, limits kit = some limit →
    ∃ available, state.stock kit = some available ∧ 0 ≤ available ∧
      available + (state.holders kit).ncard + state.inHand kit = limit
  domain : ∀ kit available, state.stock kit = some available → (limits kit).isSome
  checked : state.Checked

theorem counts_some (name kit : Text) :
    counts (some name) kit = if fold name = kit then 1 else 0 := by
  simp [counts]

@[simp]
theorem counts_none (kit : Text) : counts none kit = 0 := by
  simp [counts]

theorem loadKits_nonneg (kits : List (Text × ℕ)) (kit : Text) (limit : ℤ)
    (loaded : loadKits kits kit = some limit) : 0 ≤ limit := by
  have keep : ∀ (rest : List (Text × ℕ)) (stock : Text → Option ℤ),
      (∀ kit limit, stock kit = some limit → 0 ≤ limit) →
      ∀ kit limit, rest.foldl kitActionUpdater stock kit = some limit → 0 ≤ limit := by
    intro rest
    induction rest with
    | nil => exact fun _ nonneg => nonneg
    | cons head rest inductionHypothesis =>
        intro stock nonneg
        refine inductionHypothesis _ fun kit limit set => ?_
        unfold kitActionUpdater at set
        split at set
        case isTrue => exact nonneg kit limit set
        case isFalse =>
          rw [Function.update_apply] at set
          split at set
          case isTrue =>
            obtain rfl := Option.some.inj set
            exact Int.natCast_nonneg _
          case isFalse => exact nonneg kit limit set
  exact keep _ _ (fun _ _ missing => by cases missing) kit limit loaded

theorem accounted_start (kits : List (Text × ℕ)) :
    (State.start kits).Accounted (loadKits kits) where
  finite kit := by
    simp [State.holders, State.start]
  stocked kit limit loaded :=
    ⟨limit, loaded, loadKits_nonneg kits kit limit loaded, by
      simp [State.holders, State.start, State.inHand]⟩
  domain kit available loaded := by
    rw [show loadKits kits kit = some available from loaded]
    rfl
  checked := trivial

namespace State

variable {limits : Text → Option ℤ}

theorem Accounted.stock_nonneg {state : State} (accounted : state.Accounted limits) {kit : Text}
    {available : ℤ} (stocked : state.stock kit = some available) : 0 ≤ available := by
  obtain ⟨limit, limited⟩ := Option.isSome_iff_exists.mp (accounted.domain kit available stocked)
  obtain ⟨same, sameStock, nonneg, -⟩ := accounted.stocked kit limit limited
  rw [stocked, Option.some.injEq] at sameStock
  exact sameStock ▸ nonneg

/-- A statement that changes neither map: only what the thread holds matters. -/
theorem Accounted.frame {state after : State} (accounted : state.Accounted limits)
    (stock : after.stock = state.stock) (holder : after.holder = state.holder)
    (inHand : ∀ kit, after.inHand kit = state.inHand kit) (checked : after.Checked) :
    after.Accounted limits where
  finite kit := by
    rw [holders, holder]
    exact accounted.finite kit
  stocked kit limit limited := by
    rw [stock, holders, holder, inHand]
    exact accounted.stocked kit limit limited
  domain kit available stocked := accounted.domain kit available (stock ▸ stocked)
  checked := checked

/-- A statement that changes the stock of one kit by what it adds to the thread's hands. -/
theorem Accounted.move {state after : State} (accounted : state.Accounted limits)
    {name : Text} {change : ℤ}
    (stock : after.stock = Function.update state.stock (fold name)
      ((state.stock (fold name)).map (· + change)))
    (holder : after.holder = state.holder)
    (inHand : ∀ kit, after.inHand kit + (if fold name = kit then change else 0) =
      state.inHand kit)
    (enough : ∀ available, state.stock (fold name) = some available → 0 ≤ available + change)
    (checked : after.Checked) : after.Accounted limits where
  finite kit := by
    rw [holders, holder]
    exact accounted.finite kit
  stocked kit limit limited := by
    obtain ⟨available, stocked, nonneg, account⟩ := accounted.stocked kit limit limited
    rw [stock, holders, holder, Function.update_apply]
    have moved := inHand kit
    by_cases here : kit = fold name
    · subst here
      rw [if_pos rfl, stocked, Option.map_some]
      rw [if_pos rfl] at moved
      refine ⟨_, rfl, enough available stocked, ?_⟩
      rw [holders] at account
      omega
    · rw [if_neg here]
      rw [if_neg (Ne.symm here)] at moved
      refine ⟨available, stocked, nonneg, ?_⟩
      rw [holders] at account
      omega
  domain kit available stocked := by
    rw [stock, Function.update_apply] at stocked
    split at stocked
    case isTrue here =>
      subst here
      obtain ⟨old, oldStock, -⟩ := Option.map_eq_some_iff.mp stocked
      exact accounted.domain _ _ oldStock
    case isFalse => exact accounted.domain kit available stocked
  checked := checked

/-- A statement that changes one player's variable and empties the thread's hands. -/
theorem Accounted.assign {state after : State} (accounted : state.Accounted limits)
    {uid : Text} {value : Option Text} (stock : after.stock = state.stock)
    (holder : after.holder = Function.update state.holder (fold uid) value)
    (inHand : ∀ kit, after.inHand kit = 0 ∧
      state.inHand kit = counts value kit - counts (state.holder (fold uid)) kit)
    (checked : after.Checked) : after.Accounted limits where
  finite kit := by
    rw [holders, holder]
    exact finite_keysWith_update (accounted.finite kit) _ _
  stocked kit limit limited := by
    obtain ⟨available, stocked, nonneg, account⟩ := accounted.stocked kit limit limited
    refine ⟨available, stock ▸ stocked, nonneg, ?_⟩
    have counted : (after.holders kit).ncard + counts (state.holder (fold uid)) kit =
        (state.holders kit).ncard + counts value kit := by
      rw [holders, holder]
      exact ncard_keysWith_update (accounted.finite kit) (fold uid) value
    obtain ⟨emptied, held⟩ := inHand kit
    omega
  domain kit available stocked := accounted.domain kit available (stock ▸ stocked)
  checked := checked

theorem Accounted.threadStep {state after : State} (accounted : state.Accounted limits)
    (stepped : state.threadStep = some after) : after.Accounted limits := by
  have checked := accounted.checked
  cases at_ : state.thread with
  | select =>
      simp only [State.threadStep, at_] at stepped
      split at stepped
      case h_1 => cases stepped
      all_goals
        obtain rfl := Option.some.inj stepped
        exact accounted.frame rfl rfl (fun kit => by simp [inHand, at_]) trivial
  | dispatch entry =>
      cases entry <;>
        · simp only [State.threadStep, at_] at stepped
          obtain rfl := Option.some.inj stepped
          exact accounted.frame rfl rfl (fun kit => by simp [inHand, at_, Rest.gives]) trivial
  | exitIfHeld kitName uid =>
      simp only [State.threadStep, at_] at stepped
      split at stepped <;>
        · obtain rfl := Option.some.inj stepped
          exact accounted.frame rfl rfl (fun kit => by simp [inHand, at_]) trivial
  | ifAvailable kitName uid =>
      simp only [State.threadStep, at_] at stepped
      split at stepped
      case h_1 available stocked =>
        split at stepped
        case isTrue positive =>
          obtain rfl := Option.some.inj stepped
          exact accounted.frame rfl rfl (fun kit => by simp [inHand, at_])
            ⟨available, stocked, positive⟩
        case isFalse =>
          obtain rfl := Option.some.inj stepped
          exact accounted.frame rfl rfl (fun kit => by simp [inHand, at_]) trivial
      case h_2 =>
        obtain rfl := Option.some.inj stepped
        exact accounted.frame rfl rfl (fun kit => by simp [inHand, at_]) trivial
  | take kitName uid =>
      simp only [Checked, at_] at checked
      obtain ⟨available, stocked, positive⟩ := checked
      simp only [State.threadStep, at_] at stepped
      obtain rfl := Option.some.inj stepped
      refine @Accounted.move _ _ _ accounted kitName (-1) rfl rfl (fun kit => ?_)
        (fun other same => ?_) trivial
      · simp only [inHand, at_, Rest.gives, counts_some]
        split <;> simp
      · rw [stocked, Option.some.injEq] at same
        omega
  | dropKit uid rest =>
      simp only [State.threadStep, at_] at stepped
      split at stepped
      case h_1 lastKitName held =>
        obtain rfl := Option.some.inj stepped
        exact accounted.frame rfl rfl (fun kit => by simp [inHand, at_]) held
      case h_2 missing =>
        obtain rfl := Option.some.inj stepped
        exact accounted.frame rfl rfl (fun kit => by simp [inHand, at_, missing]) trivial
  | putBack lastKitName uid rest =>
      simp only [Checked, at_] at checked
      simp only [State.threadStep, at_] at stepped
      obtain rfl := Option.some.inj stepped
      refine @Accounted.move _ _ _ accounted lastKitName 1 rfl rfl (fun kit => ?_)
        (fun other same => ?_) trivial
      · simp only [inHand, at_, checked, counts_some]
        split <;> simp
      · exact Int.add_nonneg (accounted.stock_nonneg same) one_pos.le
  | assign uid rest =>
      cases rest <;>
        · simp only [State.threadStep, at_] at stepped
          obtain rfl := Option.some.inj stepped
          exact accounted.assign rfl rfl
            (fun kit => by simp [inHand, at_, Rest.gives]) trivial
  | mark =>
      simp only [State.threadStep, at_] at stepped
      obtain rfl := Option.some.inj stepped
      exact accounted.frame rfl rfl (fun kit => by simp [inHand, at_]) trivial
  | filter =>
      simp only [State.threadStep, at_] at stepped
      obtain rfl := Option.some.inj stepped
      exact accounted.frame rfl rfl (fun kit => by simp [inHand, at_]) trivial

theorem Accounted.step {state after : State} (accounted : state.Accounted limits) {event : Event}
    (stepped : state.step event = some after) : after.Accounted limits := by
  cases event with
  | request id kitName =>
      obtain rfl := Option.some.inj stepped
      unfold requestSetKit
      split
      case isTrue => exact accounted.frame rfl rfl (fun _ => rfl) accounted.checked
      case isFalse => exact accounted
  | connection event =>
      obtain ⟨directory, -, rfl⟩ := Option.map_eq_some_iff.mp stepped
      cases event <;> exact accounted.frame rfl rfl (fun _ => rfl) accounted.checked
  | thread => exact accounted.threadStep stepped

end State

end OperationFrontLine.Kits
