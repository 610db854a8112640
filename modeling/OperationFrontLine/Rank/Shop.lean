import OperationFrontLine.Rank.Machine

/-!
# The accounts of the vehicle shop

The counter of a category and side is the number of its shop threads that have not
finished.  No balance is negative if the database never answers with a negative
one, and a player whose registered vehicle exists buys no other.
-/

namespace OperationFrontLine.Rank

open OperationFrontLine.Library

variable {Uid Name Number : Type}

/-- A shop thread of the category and side that has not run its last statement. -/
def unfinished (category : ℕ) (side : ShopSide) (thread : ShopThread Uid) : Bool :=
  decide (thread.category = category ∧ thread.side = side ∧ thread.statements < 3)

def Shop.running (shop : Shop Uid) (category : ℕ) (side : ShopSide) : ℕ :=
  shop.threads.countP (unfinished category side)

namespace State

variable [Field Number] [LinearOrder Number]

def Balanced (state : State Uid Name Number) : Prop :=
  ∀ uid session, state.session? uid = some session → 0 ≤ session.record.account.chickens

/-- The shop is as it was and no balance is negative. -/
structure SameShop (shop : Shop Uid) (state : State Uid Name Number) : Prop where
  shop : state.shop = shop
  balanced : state.Balanced

namespace SameShop

variable {shop : Shop Uid} {before after : State Uid Name Number}

theorem congr (kept : before.SameShop shop) (sameShop : after.shop = before.shop)
    (records : after.records = before.records) : after.SameShop shop where
  shop := sameShop.trans kept.shop
  balanced uid session found := by
    rw [session?, records] at found
    exact kept.balanced uid session found

theorem call (kept : before.SameShop shop) (made : ExtensionCall Uid Number) :
    (before.call made).SameShop shop :=
  kept.congr rfl rfl

variable [DecidableEq Uid]

/-- A record is written that is no session or has a balance that is not negative. -/
theorem write (kept : before.SameShop shop) {uid : Uid} {slot : Slot Uid Number}
    (sameShop : after.shop = before.shop)
    (records : after.records = Function.update before.records uid (some slot))
    (balance : ∀ session, slot = .session session → 0 ≤ session.record.account.chickens) :
    after.SameShop shop where
  shop := sameShop.trans kept.shop
  balanced other session found := by
    rw [session?_eq_some_iff, records, Function.update_apply] at found
    split at found
    case isTrue => exact balance session (Option.some.inj found)
    case isFalse => exact kept.balanced other session (session?_eq_some_iff.mpr found)

theorem setAccount (kept : before.SameShop shop) {uid : Uid} {session : Session Uid Number}
    {account : Account Number} (sameShop : after.shop = before.shop)
    (records : after.records =
      (before.setSlot uid (.session (session.withAccount account))).records)
    (balance : 0 ≤ account.chickens) : after.SameShop shop :=
  kept.write sameShop records fun other same => by
    cases same
    exact balance

theorem addPlayer (kept : before.SameShop shop) (uid : Uid) (name : Name) :
    (before.addPlayer uid name).state.SameShop shop := by
  unfold State.addPlayer
  split
  case isFalse => exact kept
  case isTrue =>
    split
    · exact kept.write rfl rfl fun session same => by cases same; exact le_rfl
    · exact kept.write rfl rfl fun session same => by cases same; exact le_rfl
    · exact kept.congr rfl rfl

theorem retireRecord (kept : before.SameShop shop) (uid : Uid) (session : Session Uid Number) :
    (before.retireRecord uid session).SameShop shop := by
  unfold State.retireRecord
  simp only
  split <;> exact kept.congr rfl rfl

theorem removePlayer [DecidableEq Name] (kept : before.SameShop shop)
    (settings : Settings Number) (uid : Uid) (name : Name) :
    (before.removePlayer settings uid name).state.SameShop shop := by
  unfold State.removePlayer
  split
  case isFalse => exact kept
  case isTrue =>
    split
    case h_1 => exact kept
    case h_2 session _ =>
      have closed {middle : State Uid Name Number} (keptMiddle : middle.SameShop shop) :
          (middle.closeRecord settings uid session).SameShop shop :=
        keptMiddle.write rfl rfl fun other same => by cases same
      have unlisted : (before.unlist uid).SameShop shop := kept.congr rfl rfl
      simp only [Outcome.state_finished]
      split
      · exact closed (unlisted.congr rfl rfl)
      · exact closed (unlisted.retireRecord uid session)

theorem setSession (kept : before.SameShop shop) {uid : Uid} {session : Session Uid Number}
    (balance : 0 ≤ session.record.account.chickens) :
    (before.setSlot uid (.session session)).SameShop shop :=
  kept.write rfl rfl fun other same => by
    cases same
    exact balance

theorem activateRecord (kept : before.SameShop shop) (uid : Uid) {account : Account Number}
    (handle : Handle) (balance : 0 ≤ account.chickens) :
    (before.activateRecord uid account handle).state.SameShop shop := by
  unfold State.activateRecord
  split
  · exact kept
  · exact kept.setSession balance

theorem receiveRecord (kept : before.SameShop shop) (index : ℕ) (entry : PendingRecord Uid Name)
    {answer : Answer Number} (balance : 0 ≤ answer.account.chickens) :
    (before.receiveRecord index entry answer).state.SameShop shop := by
  unfold State.receiveRecord
  simp only
  split
  · exact kept.congr rfl rfl
  · refine Outcome.andThen_invariant (SameShop shop) ?_ fun activated keptActivated => ?_
    · refine activateRecord ?_ _ _ balance
      exact kept.congr rfl rfl
    · split
      · exact keptActivated
      · split
        · unfold State.enlist
          split <;> exact keptActivated.congr rfl rfl
        · exact keptActivated

theorem checkPendings (kept : before.SameShop shop) {answers : Handle → Option (Answer Number)}
    (solvent : ∀ handle answer, answers handle = some answer → 0 ≤ answer.account.chickens) :
    (before.checkPendings answers).state.SameShop shop := by
  unfold State.checkPendings
  refine Outcome.andThen_invariant (SameShop shop) ?_ fun checked keptChecked =>
    keptChecked.congr rfl rfl
  refine forEach_invariant (SameShop shop) (fun element _ state keptState => ?_) kept
  unfold State.checkPending
  split
  · exact keptState
  · split
    case isFalse => exact keptState
    case isTrue =>
      simp only
      split
      · exact keptState.call _
      case h_2 answer answered =>
        exact (keptState.call _).receiveRecord _ _ (solvent _ answer answered)

theorem creditSide (kept : before.SameShop shop) (engine : Engine Number)
    (friends enemies : List Uid) :
    (before.creditSide engine friends enemies).state.SameShop shop := by
  unfold State.creditSide
  split
  · exact kept
  · refine forEach_invariant (SameShop shop) (fun uid _ state keptState => ?_) kept
    unfold State.credit
    split
    · exact keptState
    case h_2 session found => exact keptState.setSession (keptState.balanced uid session found)

theorem frame (kept : before.SameShop shop) (settings : Settings Number)
    {answers : Handle → Option (Answer Number)} (rankDue publishDue : Bool)
    (solvent : ∀ handle answer, answers handle = some answer → 0 ≤ answer.account.chickens) :
    (before.frame settings answers rankDue publishDue).state.SameShop shop := by
  unfold State.frame
  refine Outcome.andThen_invariant (SameShop shop) (kept.checkPendings solvent)
    fun checked keptChecked => ?_
  refine Outcome.andThen_invariant (SameShop shop) ?_ fun ranked keptRanked => ?_
  · split
    · unfold State.accumulateRank
      split
      · refine Outcome.andThen_invariant (SameShop shop) ?_ fun credited keptCredited =>
          keptCredited.creditSide _ _ _
        refine creditSide ?_ _ _ _
        exact keptChecked.congr rfl rfl
      · exact keptChecked
    · exact keptChecked
  · split
    · unfold State.publishRecords
      refine Outcome.andThen_invariant (SameShop shop) ?_ fun published keptPublished =>
        keptPublished.congr rfl rfl
      refine forEach_invariant (SameShop shop) (fun entry _ state keptState => ?_) keptRanked
      unfold State.publishEntry
      split
      · exact keptState
      · exact keptState.congr rfl rfl
    · exact keptRanked

omit [DecidableEq Uid] in
theorem chickens_afterMatch (account : Account Number) (points : Number) (winTeam : Side)
    (side : Option Side) :
    (account.afterMatch points winTeam side).chickens = account.chickens := by
  unfold Account.afterMatch
  split
  · rfl
  · split
    · rfl
    · split <;> rfl

theorem endGame (kept : before.SameShop shop) (settings : Settings Number) (winTeam : Side) :
    (before.endGame settings winTeam).state.SameShop shop := by
  unfold State.endGame
  refine Outcome.andThen_invariant (SameShop shop) ?_ fun finished keptFinished => ?_
  · refine forEach_invariant (SameShop shop) (fun uid _ state keptState => ?_)
      (kept.congr rfl rfl)
    unfold State.finishRecord
    refine Outcome.andThen_invariant (SameShop shop) ?_ fun rated keptRated => ?_
    · split
      · unfold State.rateRecord
        split
        · exact keptState
        case h_2 session found =>
          split
          · exact keptState
          · refine keptState.setSession ?_
            simp only [Session.withAccount, chickens_afterMatch]
            exact keptState.balanced uid session found
      · exact keptState
    · split
      · exact keptRated
      · exact keptRated.call _
  · unfold State.commitActive
    split
    · exact keptFinished
    · split
      · exact keptFinished
      · exact keptFinished.call _

theorem updatePlayerKills [IsStrictOrderedRing Number] (kept : before.SameShop shop)
    (settings : Settings Number) (uid : Uid) (id : ClientId) :
    (before.updatePlayerKills settings uid id).state.SameShop shop := by
  unfold State.updatePlayerKills
  split
  · exact kept
  case h_2 session found =>
    refine kept.setAccount rfl rfl ?_
    have reward : 0 ≤ killReward settings := by
      unfold killReward
      split
      · exact zero_le_one
      · exact Nat.ofNat_nonneg 5
    exact add_nonneg (kept.balanced uid session found) reward

end SameShop

/-! ## The shop -/

end State

namespace Shop

/-- The counters are those of the unfinished threads and within the limits, and of the
vehicles that a player bought for a side only the registered one can exist. -/
structure Accounted (limits : List ℤ) (shop : Shop Uid) : Prop where
  counted : ∀ category side, shop.count category side = shop.running category side
  limited : ∀ category limit, limits[category]? = some limit →
    ∀ side, shop.count category side ≤ limit
  registered : ∀ thread ∈ shop.threads, thread.object ∈ shop.objects →
    shop.registered thread.uid thread.side = some thread.object
  fresh : ∀ thread ∈ shop.threads, thread.object ≤ shop.lastObject

variable {limits : List ℤ} {shop : Shop Uid}

theorem accounted_initial (nonneg : ∀ limit ∈ limits, 0 ≤ limit) :
    (State.initial : State Uid Name Number).shop.Accounted limits where
  counted _ _ := rfl
  limited category limit found _ := nonneg limit (List.mem_of_getElem? found)
  registered thread member := by simp [State.initial] at member
  fresh thread member := by simp [State.initial] at member

theorem counted_change (accounted : shop.Accounted limits) {threads : List (ShopThread Uid)}
    {category : ℕ} {side : ShopSide} {change : ℤ}
    (counts : ∀ other otherSide, (threads.countP (unfinished other otherSide) : ℤ) =
      shop.running other otherSide + if other = category ∧ otherSide = side then change else 0)
    (other : ℕ) (otherSide : ShopSide) :
    Function.update shop.count category
        (Function.update (shop.count category) side (shop.count category side + change))
        other otherSide =
      threads.countP (unfinished other otherSide) := by
  rw [counts, ← accounted.counted]
  by_cases sameCategory : other = category
  · subst sameCategory
    by_cases sameSide : otherSide = side
    · subst sameSide
      simp
    · simp [sameSide]
  · simp [sameCategory]

theorem Accounted.lose (accounted : shop.Accounted limits) {objects : List ℕ}
    (fewer : ∀ object ∈ objects, object ∈ shop.objects) :
    Accounted limits { shop with objects := objects } where
  counted := accounted.counted
  limited := accounted.limited
  registered thread member exists_ := accounted.registered thread member (fewer _ exists_)
  fresh := accounted.fresh

/-- A sale: the thread counts, and its vehicle is the registered one. -/
theorem Accounted.sell [DecidableEq Uid] (accounted : shop.Accounted limits)
    {uid : Uid} {side : ShopSide}
    {category : ℕ} {limit : ℤ} (isLimit : limits[category]? = some limit)
    (room : shop.count category side < limit)
    (free : ∀ object, shop.registered uid side = some object → object ∉ shop.objects) :
    Accounted limits
      { count := Function.update shop.count category
          (Function.update (shop.count category) side (shop.count category side + 1))
        registered := Function.update shop.registered uid
          (Function.update (shop.registered uid) side (some (shop.lastObject + 1)))
        objects := (shop.lastObject + 1) :: shop.objects
        lastObject := shop.lastObject + 1
        threads := shop.threads ++ [⟨side, category, uid, shop.lastObject + 1, 0⟩] } where
  counted := by
    refine counted_change accounted fun other otherSide => ?_
    rw [List.countP_append, List.countP_singleton, Nat.cast_add]
    congr 1
    simp only [unfinished, decide_eq_true_eq]
    by_cases same : other = category ∧ otherSide = side
    · obtain ⟨rfl, rfl⟩ := same
      simp
    · rw [if_neg same, if_neg (fun here => same ⟨here.1.symm, here.2.1.symm⟩)]
      rfl
  limited other otherLimit found otherSide := by
    have before := accounted.limited other otherLimit found otherSide
    simp only [Function.update_apply]
    split
    case isFalse => exact before
    case isTrue sameCategory =>
      subst sameCategory
      rw [found, Option.some.injEq] at isLimit
      simp only [Function.update_apply]
      split
      case isFalse => exact before
      case isTrue sameSide => omega
  registered thread member exists_ := by
    rcases List.mem_append.mp member with old | new
    · have older := accounted.fresh thread old
      have existed : thread.object ∈ shop.objects := by
        refine (List.mem_cons.mp exists_).resolve_left fun same => ?_
        omega
      have here := accounted.registered thread old existed
      by_cases same : thread.uid = uid ∧ thread.side = side
      · rw [same.1, same.2] at here
        exact absurd existed (free _ here)
      · simp only [Function.update_apply]
        split
        case isFalse => exact here
        case isTrue sameUid =>
          simp only [Function.update_apply]
          rw [if_neg (fun sameSide => same ⟨sameUid, sameSide⟩), ← sameUid]
          exact here
    · rw [List.mem_singleton.mp new]
      simp
  fresh thread member := by
    rcases List.mem_append.mp member with old | new
    · exact (accounted.fresh thread old).trans (Nat.le_succ _)
    · rw [List.mem_singleton.mp new]

/-- A thread comes to its next statement; the last one stops it from counting. -/
theorem running_advance {index : ℕ} {thread : ShopThread Uid}
    (found : shop.threads[index]? = some thread) (category : ℕ) (side : ShopSide) :
    ((shop.threads.set index { thread with statements := thread.statements + 1 }).countP
        (unfinished category side) : ℤ) =
      shop.running category side + if category = thread.category ∧ side = thread.side then
        (if thread.statements = 2 then -1 else 0) else 0 := by
  obtain ⟨inside, here⟩ := List.getElem?_eq_some_iff.mp found
  have atLeast : unfinished category side thread = true → 0 < shop.running category side :=
    fun counts => List.countP_pos_iff.mpr ⟨thread, List.mem_of_getElem? found, counts⟩
  rw [List.countP_set inside, here, ← Shop.running]
  by_cases mine : category = thread.category ∧ side = thread.side
  · obtain ⟨rfl, rfl⟩ := mine
    simp only [unfinished, true_and, decide_eq_true_eq, and_self, if_true] at atLeast ⊢
    split_ifs <;> omega
  · have other : ¬ (thread.category = category ∧ thread.side = side) :=
      fun same => mine ⟨same.1.symm, same.2.symm⟩
    simp [unfinished, mine, ← and_assoc, other]

/-- A statement of a shop thread: the last one takes one off the counter, and no
vehicle that exists loses its registration. -/
theorem Accounted.advance (accounted : shop.Accounted limits) {after : Shop Uid} {index : ℕ}
    {thread : ShopThread Uid} (found : shop.threads[index]? = some thread)
    (threads : after.threads =
      shop.threads.set index { thread with statements := thread.statements + 1 })
    (count : after.count = Function.update shop.count thread.category
      (Function.update (shop.count thread.category) thread.side
        (shop.count thread.category thread.side + if thread.statements = 2 then -1 else 0)))
    (registered : ∀ other ∈ shop.threads, other.object ∈ after.objects →
      other.object ∈ shop.objects ∧
        after.registered other.uid other.side = shop.registered other.uid other.side)
    (lastObject : after.lastObject = shop.lastObject) : after.Accounted limits where
  counted category side := by
    rw [count, running, threads]
    exact counted_change accounted (running_advance found) category side
  limited category limit isLimit side := by
    have before := accounted.limited category limit isLimit side
    rw [count]
    simp only [Function.update_apply]
    split
    case isFalse => exact before
    case isTrue same =>
      subst same
      simp only [Function.update_apply]
      split
      case isFalse => exact before
      case isTrue sameSide =>
        subst sameSide
        split <;> omega
  registered other member exists_ := by
    rw [threads] at member
    have old : ∃ former ∈ shop.threads, former.uid = other.uid ∧ former.side = other.side ∧
        former.object = other.object := by
      rcases List.mem_or_eq_of_mem_set member with old | rfl
      · exact ⟨other, old, rfl, rfl, rfl⟩
      · exact ⟨thread, List.mem_of_getElem? found, rfl, rfl, rfl⟩
    obtain ⟨former, formerMember, sameUid, sameSide, sameObject⟩ := old
    rw [← sameObject] at exists_
    obtain ⟨existed, sameRegistered⟩ := registered former formerMember exists_
    rw [← sameUid, ← sameSide, ← sameObject, sameRegistered]
    exact accounted.registered former formerMember existed
  fresh other member := by
    rw [threads] at member
    rw [lastObject]
    rcases List.mem_or_eq_of_mem_set member with old | rfl
    · exact accounted.fresh other old
    · exact accounted.fresh thread (List.mem_of_getElem? found)

end Shop

namespace State

theorem hasVehicle_iff {state : State Uid Name Number} {uid : Uid} {side : ShopSide} :
    state.hasVehicle uid side = true ↔
      ∃ object, state.shop.registered uid side = some object ∧ object ∈ state.shop.objects := by
  unfold hasVehicle
  split
  case h_1 missing => simp [missing]
  case h_2 object registered => simp [registered]

variable [DecidableEq Uid]

theorem expire_accounted {limits : List ℤ} {state : State Uid Name Number}
    (accounted : state.shop.Accounted limits) {index : ℕ} {thread : ShopThread Uid}
    (found : state.shop.threads[index]? = some thread) :
    Shop.Accounted limits { (state.expire thread).shop with
      threads := (state.expire thread).shop.threads.set index
        { thread with statements := thread.statements + 1 } } := by
  have unchanged {change : ℤ} (zero : change = 0) : state.shop.count =
      Function.update state.shop.count thread.category
        (Function.update (state.shop.count thread.category) thread.side
          (state.shop.count thread.category thread.side + change)) := by
    rw [zero, add_zero, Function.update_eq_self, Function.update_eq_self]
  unfold expire
  split
  case h_1 statement =>
    refine accounted.advance found rfl (unchanged (by rw [statement]; rfl))
      (fun other _ exists_ => ⟨(mem_without.mp exists_).1, rfl⟩) rfl
  case h_2 statement =>
    split
    case isTrue =>
      exact accounted.advance found rfl (unchanged (by rw [statement]; rfl))
        (fun other _ exists_ => ⟨exists_, rfl⟩) rfl
    case isFalse gone =>
      refine accounted.advance found rfl (unchanged (by rw [statement]; rfl))
        (fun other member exists_ => ⟨exists_, ?_⟩) rfl
      -- an existing vehicle is registered, so it is not the one that is gone
      have here := accounted.registered other member exists_
      simp only [Function.update_apply]
      split
      case isFalse => rfl
      case isTrue sameUid =>
        simp only [Function.update_apply]
        split
        case isFalse => rw [sameUid]
        case isTrue sameSide =>
          rw [sameUid, sameSide] at here
          exact absurd (hasVehicle_iff.mpr ⟨other.object, here, exists_⟩) gone
  case h_3 statement =>
    refine accounted.advance found rfl ?_ (fun other _ exists_ => ⟨exists_, rfl⟩) rfl
    rw [statement]
    rfl
  case h_4 first second third =>
    exact accounted.advance found rfl (unchanged (if_neg third))
      (fun other _ exists_ => ⟨exists_, rfl⟩) rfl

variable [Field Number] [LinearOrder Number]

/-- A purchase does nothing, or the player had no vehicle, there was room in the
category, and the player could pay. -/
theorem purchase_cases (settings : Settings Number) (id : ClientId) (index : ℕ)
    (state : State Uid Name Number) :
    (state.purchase settings id index).state = state ∨
      ∃ (uid : Uid) (side : Side) (vehicle : ShopVehicle Number) (limit : ℤ)
          (session : Session Uid Number),
        state.uidOf id = some uid ∧ state.side uid = some side ∧
        settings.categoryLimits[vehicle.category]? = some limit ∧
        state.hasVehicle uid side.shopSide = false ∧
        state.shop.count vehicle.category side.shopSide < limit ∧
        vehicle.price ≤ session.record.account.chickens ∧
        (state.purchase settings id index).state =
          (((state.setSlot uid (.session (session.withAccount
            { session.record.account with
              chickens := session.record.account.chickens - vehicle.price }))).addToCount
            vehicle.category side.shopSide 1).pushPublish uid id).createVehicle uid
              side.shopSide vehicle.category := by
  unfold purchase
  split
  · exact .inl rfl
  case h_2 uid isUid =>
    split
    · exact .inl rfl
    case h_2 side isSide =>
      split
      · exact .inl rfl
      case h_2 vehicle _ =>
        split
        · exact .inl rfl
        case h_2 limit isLimit =>
          split
          case isFalse => exact .inl rfl
          case isTrue free =>
            rw [Bool.and_eq_true, Bool.not_eq_true', decide_eq_true_eq] at free
            split
            · exact .inl rfl
            case h_2 session _ =>
              split
              case isFalse => exact .inl rfl
              case isTrue enough =>
                exact .inr ⟨uid, side, vehicle, limit, session, isUid, isSide, isLimit, free.1,
                  free.2, enough, rfl⟩

structure Solvent (settings : Settings Number) (state : State Uid Name Number) : Prop where
  accounted : state.shop.Accounted settings.categoryLimits
  balanced : state.Balanced

omit [DecidableEq Uid] in
theorem Solvent.kept {settings : Settings Number} {before after : State Uid Name Number}
    (solvent : before.Solvent settings) (kept : after.SameShop before.shop) :
    after.Solvent settings where
  accounted := kept.shop ▸ solvent.accounted
  balanced := kept.balanced

variable [IsStrictOrderedRing Number] {settings : Settings Number}

theorem Solvent.purchase {state : State Uid Name Number} (solvent : state.Solvent settings)
    (id : ClientId) (index : ℕ) : (state.purchase settings id index).state.Solvent settings := by
  rcases purchase_cases settings id index state with nothing | bought
  · rw [nothing]
    exact solvent
  · obtain ⟨uid, side, vehicle, limit, session, -, -, isLimit, free, room, enough, result⟩ :=
      bought
    have paid : (state.setSlot uid (.session (session.withAccount
        { session.record.account with
          chickens := session.record.account.chickens - vehicle.price }))).SameShop state.shop :=
      SameShop.setSession ⟨rfl, solvent.balanced⟩ (sub_nonneg.mpr enough)
    rw [result]
    refine ⟨solvent.accounted.sell isLimit room fun object registered exists_ => ?_, paid.balanced⟩
    rw [Bool.eq_false_iff] at free
    exact free (hasVehicle_iff.mpr ⟨object, registered, exists_⟩)

end State

/-- The database never answers with a negative balance. -/
def Event.Solvent [Field Number] [LinearOrder Number] : Event Uid Name Number → Prop
  | .frame answers _ _ => ∀ handle answer, answers handle = some answer →
      0 ≤ answer.account.chickens
  | _ => True

namespace State

variable [DecidableEq Uid] [DecidableEq Name] [Field Number] [LinearOrder Number]
  [IsStrictOrderedRing Number] {settings : Settings Number}

theorem Solvent.step {before after : State Uid Name Number} (solvent : before.Solvent settings)
    {event : Event Uid Name Number} (answers : event.Solvent)
    (stepped : step settings before event = some after) : after.Solvent settings := by
  have same : before.SameShop before.shop := ⟨rfl, solvent.balanced⟩
  cases event with
  | connect uid name =>
      simp only [Rank.step] at stepped
      split at stepped
      case h_2 => cases stepped
      case h_1 =>
        obtain rfl := Option.some.inj stepped
        refine solvent.kept (SameShop.addPlayer ?_ uid name)
        exact same.congr rfl rfl
  | disconnect uid =>
      simp only [Rank.step] at stepped
      split at stepped
      case h_1 => cases stepped
      case h_2 client _ =>
        obtain rfl := Option.some.inj stepped
        exact solvent.kept ((same.removePlayer settings uid client.name).congr rfl rfl)
  | agree id =>
      simp only [Rank.step] at stepped
      split at stepped <;> obtain rfl := Option.some.inj stepped
      · exact solvent
      · exact solvent.kept (same.congr rfl rfl)
  | setSide uid side =>
      simp only [Rank.step] at stepped
      split at stepped <;> obtain rfl := Option.some.inj stepped
      · exact solvent
      · exact solvent.kept (same.congr rfl rfl)
  | startClock =>
      obtain rfl := Option.some.inj stepped
      exact solvent.kept (same.congr rfl rfl)
  | kill uid =>
      simp only [Rank.step] at stepped
      split at stepped
      case h_1 =>
        obtain rfl := Option.some.inj stepped
        exact solvent
      case h_2 =>
        split at stepped <;> obtain rfl := Option.some.inj stepped
        · exact solvent.kept (same.updatePlayerKills settings uid _)
        · exact solvent
  | purchase id index =>
      obtain rfl := Option.some.inj stepped
      exact solvent.purchase id index
  | deleteVehicle object =>
      obtain rfl := Option.some.inj stepped
      exact ⟨solvent.accounted.lose fun _ member => (mem_without.mp member).1, solvent.balanced⟩
  | expire index =>
      simp only [Rank.step] at stepped
      split at stepped <;> obtain rfl := Option.some.inj stepped
      · exact solvent
      case h_2 thread found =>
        refine ⟨expire_accounted solvent.accounted found, ?_⟩
        have records : (before.expire thread).records = before.records := by
          unfold State.expire
          split <;> try rfl
          split <;> rfl
        intro uid session isSession
        refine solvent.balanced uid session ?_
        rwa [session?_eq_some_iff, show (State.records _) = _ from records,
          ← session?_eq_some_iff] at isSession
  | frame answers' rankDue publishDue =>
      simp only [Rank.step] at stepped
      split at stepped <;> obtain rfl := Option.some.inj stepped
      · exact solvent.kept (same.frame settings rankDue publishDue answers)
      · exact solvent
  | endGame winTeam =>
      simp only [Rank.step] at stepped
      split at stepped
      case isFalse => cases stepped
      case isTrue =>
        obtain rfl := Option.some.inj stepped
        exact solvent.kept (same.endGame settings winTeam)

/-- What the shop guarantees after every event: exact counters within the limits, no
negative balance, no purchase by a player whose registered vehicle exists, and at most
one existing vehicle for a player and side, the registered one. -/
structure ShopStep (settings : Settings Number) (before : State Uid Name Number)
    (event : Event Uid Name Number) (after : State Uid Name Number) : Prop where
  counted : ∀ category side, after.shop.count category side = after.shop.running category side
  bounded : ∀ category limit, settings.categoryLimits[category]? = some limit → ∀ side,
    0 ≤ after.shop.count category side ∧ after.shop.count category side ≤ limit
  balanced : after.Balanced
  refused : ∀ id index uid side, event = .purchase id index → before.uidOf id = some uid →
    before.side uid = some side → before.hasVehicle uid side.shopSide = true → after = before
  single : ∀ thread ∈ after.shop.threads, thread.object ∈ after.shop.objects →
    after.shop.registered thread.uid thread.side = some thread.object

/-- In every run of the module with a database that never answers with a negative
balance, every event keeps the accounts of the shop. -/
theorem shop_accounts (limits : ∀ limit ∈ settings.categoryLimits, 0 ≤ limit)
    {events : List (Event Uid Name Number)} (answers : ∀ event ∈ events, event.Solvent) :
    Along (Rank.step settings) (ShopStep settings) State.initial events := by
  refine along_of_along (Solvent settings) ?_ ⟨Shop.accounted_initial limits, ?_⟩
    (@along_of_forall_mem _ _ _ (fun _ event _ => event.Solvent) events
      (fun event member _ _ _ => answers event member) State.initial)
  · intro before event after solvent answered stepped
    have kept := solvent.step answered stepped
    refine ⟨kept, kept.accounted.counted, fun category limit isLimit side => ⟨?_, ?_⟩,
      kept.balanced, ?_, kept.accounted.registered⟩
    · rw [kept.accounted.counted]
      exact Int.natCast_nonneg _
    · exact kept.accounted.limited category limit isLimit side
    · rintro id index uid side rfl isUid isSide has
      obtain rfl := Option.some.inj stepped
      rcases purchase_cases settings id index before with nothing | bought
      · exact nothing
      · obtain ⟨other, otherSide, _, _, _, sameUid, sameSide, -, free, -⟩ := bought
        rw [isUid, Option.some.injEq] at sameUid
        subst sameUid
        rw [isSide, Option.some.injEq] at sameSide
        subst sameSide
        rw [has] at free
        cases free
  · intro uid session found
    simp [State.initial, session?] at found

/-- The prices of `PCS_SHOP_VEHICLES_LIST_W` and `_E`, which are the same, by category. -/
def shopPrices : List (ℕ × ℚ) :=
  [(0, 50), (0, 80), (0, 50), (0, 80), (0, 20), (0, 30), (0, 80), (1, 80), (1, 100), (1, 900),
    (1, 900), (1, 1300), (2, 100), (2, 100), (3, 100), (3, 200), (3, 300), (3, 650), (3, 1000),
    (4, 20), (4, 300), (4, 800), (4, 1000), (5, 20)]

/-- A ranked match with the shop of `InitPublicCodeSystem.sqf`, on rational numbers. -/
def shopSettings : Settings ℚ where
  engine := .rational
  ranked := true
  vehicles _ := shopPrices.map fun entry => ⟨entry.1, entry.2⟩
  categoryLimits := [2, 3, 1, 1, 1, 1]

/-- A player buys a vehicle, is refused another and loses the first, whose thread then
finishes. -/
def shopVisit : List (Event ℕ ℕ ℚ) :=
  [.connect 7 0, .setSide 7 .west, .agree 1, .frame answerAll false false,
    .kill 7, .kill 7, .kill 7, .kill 7, .purchase 1 4, .purchase 1 4, .deleteVehicle 1,
    .expire 0, .expire 0, .expire 0]

theorem shop_accounts_visit :
    (run (Rank.step shopSettings) State.initial shopVisit).isSome = true ∧
      Along (Rank.step shopSettings) (ShopStep shopSettings) State.initial shopVisit := by
  refine ⟨by decide +kernel, shop_accounts (by decide) fun event member => ?_⟩
  simp only [shopVisit, List.mem_cons, List.not_mem_nil, or_false] at member
  rcases member with rfl | rfl | rfl | rfl | rfl | rfl | rfl | rfl | rfl | rfl | rfl | rfl |
    rfl | rfl
  case inr.inr.inr.inl =>
    rintro handle answer ⟨⟩
    norm_num
  all_goals exact trivial

end State

end OperationFrontLine.Rank
