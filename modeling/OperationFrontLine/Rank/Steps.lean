import OperationFrontLine.Rank.Consistent

/-!
# What the handlers do in a consistent state

One lemma for each handler that changes the roster says what state it leaves.
The loop over the pending records comes with a rule: what its body preserves
holds after it.
-/

namespace OperationFrontLine.Rank

open OperationFrontLine.Library

variable {Uid Name Number : Type}

namespace State

@[simp]
theorem handleOf_call (state : State Uid Name Number) (made : ExtensionCall Uid Number) :
    (state.call made).handleOf = state.handleOf := rfl

variable [DecidableEq Uid]

theorem handleOf_setSlot_session (state : State Uid Name Number) (uid : Uid)
    (session : Session Uid Number) :
    (state.setSlot uid (.session session)).handleOf =
      Function.update state.handleOf uid (some session.handle) := by
  funext other
  rw [Function.update_apply, handleOf, session?_setSlot_session]
  split_ifs <;> rfl

theorem handleOf_setSlot_points (state : State Uid Name Number) (uid : Uid) (value : Number) :
    (state.setSlot uid (.points value)).handleOf =
      Function.update state.handleOf uid none := by
  funext other
  rw [Function.update_apply, handleOf, session?_setSlot_points]
  split_ifs <;> rfl

section Enlist

variable {state : State Uid Name Number} {uid : Uid}

theorem enlist_west (isWest : state.side uid = some .west) :
    state.enlist uid = { state with west := pushBackUnique state.west uid } :=
  if_pos isWest

theorem enlist_east (notWest : state.side uid ≠ some .west) :
    state.enlist uid = { state with east := pushBackUnique state.east uid } :=
  if_neg notWest

theorem mem_enlist {other : Uid} :
    other ∈ (state.enlist uid).west ++ (state.enlist uid).east ↔
      other ∈ state.west ++ state.east ∨ other = uid := by
  by_cases isWest : state.side uid = some .west
  · simp only [enlist_west isWest, List.mem_append, mem_pushBackUnique]
    tauto
  · simp only [enlist_east isWest, List.mem_append, mem_pushBackUnique]
    tauto

theorem sides_nodup_enlist (distinct : (state.west ++ state.east).Nodup)
    (absent : uid ∉ state.west ++ state.east) :
    ((state.enlist uid).west ++ (state.enlist uid).east).Nodup := by
  obtain ⟨west, east, apart⟩ := List.nodup_append'.mp distinct
  rw [List.mem_append, not_or] at absent
  refine List.nodup_append'.mpr ?_
  by_cases isWest : state.side uid = some .west
  · rw [enlist_west isWest]
    refine ⟨nodup_pushBackUnique west uid, east, ?_⟩
    intro other inWest inEast
    rcases mem_pushBackUnique.mp inWest with old | rfl
    · exact apart old inEast
    · exact absent.2 inEast
  · rw [enlist_east isWest]
    refine ⟨west, nodup_pushBackUnique east uid, ?_⟩
    intro other inWest inEast
    rcases mem_pushBackUnique.mp inEast with old | rfl
    · exact apart inWest old
    · exact absent.1 inWest

theorem Consistent.enlist (consistent : Consistent state)
    (hasHandle : (state.handleOf uid).isSome)
    (notPending : ∀ entry, some entry ∈ state.pending → entry.uid ≠ uid)
    (absent : uid ∉ state.west ++ state.east) : Consistent (state.enlist uid) := by
  have others : (state.enlist uid).handleOf = state.handleOf ∧
      (state.enlist uid).clients = state.clients ∧
      (state.enlist uid).accountName = state.accountName ∧
      (state.enlist uid).lastThread = state.lastThread ∧
      (state.enlist uid).pending = state.pending ∧
      (state.enlist uid).active = state.active := by
    unfold State.enlist
    split <;> exact ⟨rfl, rfl, rfl, rfl, rfl, rfl⟩
  obtain ⟨handleOf, clients, accountName, lastThread, pending, active⟩ := others
  constructor
  · simpa only [handleOf, clients] using consistent.connected
  · simpa only [handleOf, accountName] using consistent.named
  · simpa only [accountName, lastThread] using consistent.issued
  · simpa only [pending, clients] using consistent.pending_name
  · simpa only [pending, handleOf] using consistent.pending_handle
  · simpa only [pending] using consistent.pending_distinct
  · simpa only [active] using consistent.active_nodup
  · simpa only [active, handleOf] using consistent.mem_active
  · exact sides_nodup_enlist consistent.sides_nodup absent
  · intro other member
    rw [handleOf, pending]
    rcases mem_enlist.mp member with old | rfl
    · exact consistent.enlisted other old
    · exact ⟨hasHandle, notPending⟩

end Enlist

section Pending

def activated (state : State Uid Name Number) (index : ℕ) (entry : PendingRecord Uid Name)
    (answer : Answer Number) (session : Session Uid Number) : State Uid Name Number :=
  { state with pending := state.pending.set index none }.setSlot entry.uid <|
    .session ⟨{ session.record with account := answer.account }, entry.handle, session.points⟩

variable [Field Number] [LinearOrder Number] {state : State Uid Name Number}

theorem receiveRecord_eq {index : ℕ} {entry : PendingRecord Uid Name} {answer : Answer Number}
    {session : Session Uid Number}
    (named : state.accountName entry.handle = some entry.uid)
    (found : state.session? entry.uid = some session) :
    state.receiveRecord index entry answer =
      .finished (if 0 < session.points ∨ answer.banned < 1 then
        (state.activated index entry answer session).enlist entry.uid
      else state.activated index entry answer session) := by
  have unmarked : ({ state with pending := state.pending.set index none } :
      State Uid Name Number).session? entry.uid = some session := found
  unfold receiveRecord
  simp only [named, activateRecord, unmarked, Outcome.finished_andThen,
    session?_setSlot_session, if_pos]
  split_ifs <;> rfl

inductive Checked (answers : Handle → Option (Answer Number)) (index : ℕ)
    (entry : PendingRecord Uid Name) (state : State Uid Name Number) :
    State Uid Name Number → Prop where
  | waiting : ¬ ((state.side entry.uid).isSome ∧ state.agreed entry.uid = true) →
      Checked answers index entry state state
  | asked : answers entry.handle = none →
      Checked answers index entry state (state.call (.getOutput entry.handle none))
  | kicked (answer : Answer Number) (session : Session Uid Number) :
      (state.side entry.uid).isSome →
      answers entry.handle = some answer → state.session? entry.uid = some session →
      Checked answers index entry state
        ((state.call (.getOutput entry.handle (some answer))).activated index entry answer
          session)
  | enlisted (answer : Answer Number) (session : Session Uid Number) :
      (state.side entry.uid).isSome →
      answers entry.handle = some answer → state.session? entry.uid = some session →
      Checked answers index entry state
        (((state.call (.getOutput entry.handle (some answer))).activated index entry answer
          session).enlist entry.uid)

theorem Consistent.checkPending (consistent : Consistent state)
    (answers : Handle → Option (Answer Number)) {index : ℕ} {entry : PendingRecord Uid Name}
    (here : state.pending[index]? = some (some entry)) :
    ∃ after, state.checkPending answers (some entry, index) = .finished after ∧
      Checked answers index entry state after := by
  have member := List.mem_of_getElem? here
  have hasHandle := consistent.pending_handle entry member
  have named := consistent.named entry.uid entry.handle hasHandle
  obtain ⟨session, found, -⟩ := handleOf_eq_some_iff.mp hasHandle
  unfold State.checkPending
  by_cases ready : (state.side entry.uid).isSome ∧ state.agreed entry.uid = true
  · simp only [if_pos ready]
    cases answered : answers entry.handle with
    | none => exact ⟨_, rfl, .asked answered⟩
    | some answer =>
        let asked := state.call (.getOutput entry.handle (some answer))
        have received : asked.receiveRecord index entry answer = _ :=
          @receiveRecord_eq _ _ _ _ _ _ _ _ _ _ session named found
        refine ⟨_, received, ?_⟩
        split_ifs
        · exact .enlisted answer session ready.1 answered found
        · exact .kicked answer session ready.1 answered found
  · simp only [if_neg ready]
    exact ⟨state, rfl, .waiting ready⟩

omit [Field Number] [LinearOrder Number] in
theorem Consistent.activated (consistent : Consistent state) {index : ℕ}
    {entry : PendingRecord Uid Name} (here : state.pending[index]? = some (some entry))
    (answer : Answer Number) (session : Session Uid Number) :
    Consistent (state.activated index entry answer session) := by
  refine consistent.mark here ?_ rfl rfl rfl rfl rfl rfl rfl
  have hasHandle := consistent.pending_handle entry (List.mem_of_getElem? here)
  unfold State.activated
  rw [handleOf_setSlot_session]
  exact Function.update_eq_self_iff.mpr hasHandle.symm

omit [Field Number] [LinearOrder Number] in
theorem Consistent.checked (consistent : Consistent state)
    {answers : Handle → Option (Answer Number)} {index : ℕ} {entry : PendingRecord Uid Name}
    (here : state.pending[index]? = some (some entry)) {after : State Uid Name Number}
    (checked : Checked answers index entry state after) : Consistent after := by
  have asked : ∀ answer, Consistent (state.call (.getOutput entry.handle answer)) := fun _ =>
    consistent.congr ⟨rfl, rfl, rfl, rfl, rfl, rfl, rfl, rfl, rfl⟩
  have member := List.mem_of_getElem? here
  cases checked with
  | waiting notReady => exact consistent
  | asked unanswered => exact asked none
  | kicked answer session hasSide answered found => exact (asked _).activated here answer session
  | enlisted answer session hasSide answered found =>
      refine ((asked _).activated here answer session).enlist ?_ ?_ ?_
      · simp [State.activated, handleOf_setSlot_session]
      · intro other stays
        exact ((consistent.pending_distinct.mem_set here).mp stays).2
      · intro listed
        exact (consistent.enlisted entry.uid listed).2 entry member rfl

/-- The database answers for a pending record in this frame. -/
def Answered (answers : Handle → Option (Answer Number)) (state : State Uid Name Number)
    (entry : PendingRecord Uid Name) : Prop :=
  ((state.side entry.uid).isSome ∧ state.agreed entry.uid = true) ∧
    (answers entry.handle).isSome

omit [Field Number] [LinearOrder Number] in
theorem Checked.pending {answers : Handle → Option (Answer Number)} {index : ℕ}
    {entry : PendingRecord Uid Name} {after : State Uid Name Number}
    (checked : Checked answers index entry state after) :
    after.pending = state.pending ∧ ¬ Answered answers state entry ∨
      after.pending = state.pending.set index none := by
  cases checked with
  | waiting notReady => exact Or.inl ⟨rfl, fun answered => notReady answered.1⟩
  | asked unanswered =>
      exact Or.inl ⟨rfl, fun answered => by simp [Answered, unanswered] at answered⟩
  | kicked answer session hasSide answered found => exact Or.inr rfl
  | enlisted answer session hasSide answered found =>
      right
      unfold State.enlist
      split <;> rfl

omit [Field Number] [LinearOrder Number] in
theorem Checked.side_agreed {answers : Handle → Option (Answer Number)} {index : ℕ}
    {entry : PendingRecord Uid Name} {after : State Uid Name Number}
    (checked : Checked answers index entry state after) :
    after.side = state.side ∧ after.agreed = state.agreed := by
  cases checked with
  | enlisted answer session hasSide answered found =>
      unfold State.enlist
      split <;> exact ⟨rfl, rfl⟩
  | _ => exact ⟨rfl, rfl⟩

omit [Field Number] [LinearOrder Number] in
theorem Checked.running {answers : Handle → Option (Answer Number)} {index : ℕ}
    {entry : PendingRecord Uid Name} {after : State Uid Name Number}
    (checked : Checked answers index entry state after) : after.running = state.running := by
  cases checked with
  | enlisted answer session hasSide answered found =>
      unfold State.enlist
      split <;> rfl
  | _ => rfl

omit [Field Number] [LinearOrder Number] in
theorem Checked.publish {answers : Handle → Option (Answer Number)} {index : ℕ}
    {entry : PendingRecord Uid Name} {after : State Uid Name Number}
    (checked : Checked answers index entry state after) : after.publish = state.publish := by
  cases checked with
  | enlisted answer session hasSide answered found =>
      unfold State.enlist
      split <;> rfl
  | _ => rfl

omit [Field Number] [LinearOrder Number] in
theorem Checked.lpi {answers : Handle → Option (Answer Number)} {index : ℕ}
    {entry : PendingRecord Uid Name} {after : State Uid Name Number}
    (checked : Checked answers index entry state after) : after.lpi = state.lpi := by
  cases checked with
  | enlisted answer session hasSide answered found =>
      unfold State.enlist
      split <;> rfl
  | _ => rfl

omit [Field Number] [LinearOrder Number] in
theorem Checked.handleOf {answers : Handle → Option (Answer Number)} {index : ℕ}
    {entry : PendingRecord Uid Name} {after : State Uid Name Number}
    (checked : Checked answers index entry state after) (consistent : Consistent state)
    (here : state.pending[index]? = some (some entry)) : after.handleOf = state.handleOf := by
  have hasHandle := consistent.pending_handle entry (List.mem_of_getElem? here)
  have activated : ∀ (middle : State Uid Name Number) (answer : Answer Number)
      (session : Session Uid Number), middle.handleOf = state.handleOf →
      (middle.activated index entry answer session).handleOf = state.handleOf := by
    intro middle answer session same
    unfold State.activated
    rw [handleOf_setSlot_session]
    refine (Function.update_eq_self_iff.mpr ?_).trans same
    exact ((congrFun same entry.uid).trans hasHandle).symm
  cases checked with
  | waiting notReady => rfl
  | asked unanswered => rfl
  | kicked answer session hasSide answered found => exact activated _ _ _ rfl
  | enlisted answer session hasSide answered found =>
      unfold State.enlist
      split <;> exact activated _ _ _ rfl

omit [Field Number] [LinearOrder Number] [DecidableEq Uid] in
theorem Consistent.sweep (consistent : Consistent state) :
    Consistent { state with pending := state.pending.filter Option.isSome } where
  connected := consistent.connected
  named := consistent.named
  issued := consistent.issued
  pending_name entry member := consistent.pending_name entry (List.mem_filter.mp member).1
  pending_handle entry member := consistent.pending_handle entry (List.mem_filter.mp member).1
  pending_distinct := consistent.pending_distinct.sublist List.filter_sublist
  active_nodup := consistent.active_nodup
  mem_active := consistent.mem_active
  sides_nodup := consistent.sides_nodup
  enlisted uid member :=
    ⟨(consistent.enlisted uid member).1, fun entry entered =>
      (consistent.enlisted uid member).2 entry (List.mem_filter.mp entered).1⟩

/-- The rule for the loop over the pending records.  It is not stopped, and the
entries that remain are those that the database did not answer. -/
theorem Consistent.checkPendings (consistent : Consistent state)
    (complete : none ∉ state.pending) (answers : Handle → Option (Answer Number))
    (Inv : State Uid Name Number → Prop)
    (keep : ∀ index entry before after, Consistent before → Inv before →
      before.pending[index]? = some (some entry) →
      Checked answers index entry before after → Inv after)
    (sweep : ∀ before, Inv before →
      Inv { before with pending := before.pending.filter Option.isSome })
    (initial : Inv state) :
    ∃ after, state.checkPendings answers = .finished after ∧ Consistent after ∧
      none ∉ after.pending ∧ Inv after ∧
      ∀ entry, some entry ∈ after.pending →
        some entry ∈ state.pending ∧ ¬ Answered answers state entry := by
  let LoopInv (done : ℕ) (middle : State Uid Name Number) : Prop :=
    Consistent middle ∧ Inv middle ∧
      (middle.side = state.side ∧ middle.agreed = state.agreed) ∧
      (∀ index, done ≤ index → middle.pending[index]? = state.pending[index]?) ∧
      ∀ index entry, index < done → middle.pending[index]? = some (some entry) →
        state.pending[index]? = some (some entry) ∧ ¬ Answered answers state entry
  have ran : ∃ checked,
      forEach (State.checkPending answers) state.pending.zipIdx state = .finished checked ∧
        LoopInv state.pending.length checked := by
    refine forEach_zipIdx_finished LoopInv ?_ ⟨consistent, initial, ⟨rfl, rfl⟩, by simp, by simp⟩
    rintro index slot here middle ⟨agrees, holds, same, ahead, behind⟩
    cases slot with
    | none => exact absurd (List.mem_of_getElem? here) complete
    | some entry =>
        have there : middle.pending[index]? = some (some entry) := (ahead index le_rfl).trans here
        obtain ⟨after, ended, checked⟩ := agrees.checkPending answers there
        refine ⟨after, ended, agrees.checked there checked,
          keep index entry middle after agrees holds there checked, ?_, ?_, ?_⟩
        · exact ⟨checked.side_agreed.1.trans same.1, checked.side_agreed.2.trans same.2⟩
        · intro later isLater
          rw [← ahead later (by omega)]
          rcases checked.pending with ⟨unchanged, -⟩ | marked
          · rw [unchanged]
          · rw [marked, List.getElem?_set_ne (by omega)]
        · intro earlier other isEarlier found
          rcases Nat.lt_succ_iff_lt_or_eq.mp isEarlier with before | rfl
          · refine behind earlier other before ?_
            rcases checked.pending with ⟨unchanged, -⟩ | marked
            · rwa [unchanged] at found
            · rwa [marked, List.getElem?_set_ne (by omega)] at found
          · rcases checked.pending with ⟨unchanged, unanswered⟩ | marked
            · rw [unchanged, there, Option.some.injEq, Option.some.injEq] at found
              subst found
              refine ⟨here, ?_⟩
              unfold Answered at unanswered ⊢
              rwa [same.1, same.2] at unanswered
            · rw [marked, List.getElem?_set_self' , there] at found
              cases found
  obtain ⟨checked, ended, agrees, holds, -, ahead, behind⟩ := ran
  refine ⟨_, by rw [State.checkPendings, ended, Outcome.finished_andThen], agrees.sweep, ?_,
    sweep checked holds, ?_⟩
  · simp
  · intro entry member
    obtain ⟨index, found⟩ := List.mem_iff_getElem?.mp (List.mem_filter.mp member).1
    rcases Nat.lt_or_ge index state.pending.length with inside | outside
    · obtain ⟨there, unanswered⟩ := behind index entry inside found
      exact ⟨List.mem_of_getElem? there, unanswered⟩
    · rw [ahead index outside, List.getElem?_eq_none outside] at found
      cases found

omit [Field Number] [LinearOrder Number] in
/-- The rule for the publishing loop, as long as it only comes to players whose
record is activated: an entry of a player without a session stops it. -/
theorem Consistent.publishEntries (consistent : Consistent state)
    (entries : List (Uid × ClientId)) (Inv : State Uid Name Number → Prop)
    (reached : ∀ entry ∈ entries.takeWhile fun entry => (state.handleOf entry.1).isSome,
      state.Activated entry.1)
    (published : ∀ middle uid session, Consistent middle → Inv middle →
      middle.session? uid = some session → middle.Activated uid →
      Inv (middle.publishSession uid session))
    (initial : Inv state) : Inv (forEach publishEntry entries state).state := by
  induction entries generalizing state with
  | nil => exact initial
  | cons entry rest inductionHypothesis =>
      rw [forEach_cons]
      cases found : state.session? entry.1 with
      | none =>
          rw [publishEntry_stopped found]
          exact initial
      | some session =>
          have same := sameRoster_publishEntry entry state
          have held : state.handleOf entry.1 = some session.handle :=
            handleOf_eq_some_iff.mpr ⟨session, found, rfl⟩
          rw [List.takeWhile_cons_of_pos (by simp [held])] at reached
          rw [publishEntry_finished found, Outcome.state_finished] at same
          rw [publishEntry_finished found, Outcome.finished_andThen]
          refine inductionHypothesis (consistent.congr same) ?_ ?_
          · intro other member
            rw [same.handleOf] at member
            exact reached other (by simp [member])
          · exact published state entry.1 session consistent initial found
              (reached entry (by simp))

/-- The publishing loop of a frame only comes to records that are activated: the
database answers in this frame for every pending player among the entries before
the first one whose player has no session. -/
def PublishesActivated (answers : Handle → Option (Answer Number))
    (state : State Uid Name Number) : Prop :=
  ∀ entry ∈ state.publish.takeWhile fun entry => (state.handleOf entry.1).isSome,
    ∀ slot ∈ state.pending, ∀ pending ∈ slot, pending.uid = entry.1 →
      Answered answers state pending

instance (answers : Handle → Option (Answer Number)) (state : State Uid Name Number) :
    Decidable (PublishesActivated answers state) :=
  inferInstanceAs <| Decidable <|
    ∀ entry ∈ state.publish.takeWhile fun entry => (state.handleOf entry.1).isSome,
      ∀ slot ∈ state.pending, ∀ pending ∈ slot, pending.uid = entry.1 →
        ((state.side pending.uid).isSome ∧ state.agreed pending.uid = true) ∧
          (answers pending.handle).isSome

theorem Consistent.frame (consistent : Consistent state) (complete : none ∉ state.pending)
    (settings : Settings Number) (answers : Handle → Option (Answer Number))
    (rankDue publishDue : Bool)
    (orderly : publishDue = true → PublishesActivated answers state)
    (Inv : State Uid Name Number → Prop)
    (checked : ∀ index entry before after, Consistent before → Inv before →
      some entry ∈ state.pending → before.pending[index]? = some (some entry) →
      Checked answers index entry before after → Inv after)
    (swept : ∀ before, Inv before →
      Inv { before with pending := before.pending.filter Option.isSome })
    (accumulated : ∀ before, Consistent before → Inv before →
      Inv (before.accumulateRank settings).state)
    (published : ∀ before uid session, Consistent before → Inv before →
      before.session? uid = some session → before.Activated uid →
      Inv (before.publishSession uid session))
    (cleared : ∀ before, Inv before → Inv { before with publish := [] })
    (initial : Inv state) : Inv (state.frame settings answers rankDue publishDue).state := by
  let CheckInv (middle : State Uid Name Number) : Prop :=
    Inv middle ∧ (∀ entry, some entry ∈ middle.pending → some entry ∈ state.pending) ∧
      middle.handleOf = state.handleOf ∧ middle.publish = state.publish
  obtain ⟨middle, ended, agrees, -, ⟨holds, -, sameHandles, samePublish⟩, remaining⟩ :=
    consistent.checkPendings complete answers CheckInv
      (by
        rintro index entry before after agrees ⟨holds, fewer, handles, publish⟩ here check
        have member := fewer entry (List.mem_of_getElem? here)
        refine ⟨checked index entry before after agrees holds member here check, ?_,
          (check.handleOf agrees here).trans handles, check.publish.trans publish⟩
        intro other stays
        refine fewer other ?_
        rcases check.pending with ⟨unchanged, -⟩ | marked
        · exact unchanged ▸ stays
        · rw [marked] at stays
          exact ((agrees.pending_distinct.mem_set here).mp stays).1)
      (fun before holds => ⟨swept before holds.1,
        fun entry stays => holds.2.1 entry (List.mem_filter.mp stays).1, holds.2.2⟩)
      ⟨initial, fun _ member => member, rfl, rfl⟩
  unfold State.frame
  rw [ended, Outcome.finished_andThen]
  let RankInv (ranked : State Uid Name Number) : Prop :=
    Inv ranked ∧ SameRoster middle ranked ∧ SamePublishing middle ranked
  have ranked : RankInv (if rankDue then middle.accumulateRank settings
      else .finished middle).state := by
    split
    · exact ⟨accumulated middle agrees holds, sameRoster_accumulateRank settings middle,
        samePublishing_accumulateRank settings middle⟩
    · exact ⟨holds, .refl middle, rfl, rfl, rfl⟩
  refine Outcome.andThen_of_state ranked (fun _ kept => kept.1) ?_
  rintro ranked ⟨kept, same, sameList⟩
  split
  · next due =>
      refine Outcome.andThen_invariant Inv ?_ cleared
      refine (agrees.congr same).publishEntries ranked.publish Inv ?_ published kept
      rintro entry member slot inPending pending rfl player
      rw [sameList.publish, samePublish, same.handleOf, sameHandles] at member
      rw [same.pending] at inPending
      obtain ⟨old, unanswered⟩ := remaining pending inPending
      exact unanswered (orderly due entry member _ old pending rfl player)
  · exact kept

end Pending

section Players

variable {state : State Uid Name Number} {uid : Uid}

theorem Consistent.connect [Field Number] (consistent : Consistent state)
    (absent : state.clients uid = none) (name : Name) (rejoin : Bool) (points : Number) :
    Consistent (State.connect
      { state.addConnection uid name with lastThread := state.lastThread + 2 }
      uid name rejoin points) := by
  refine consistent.join ⟨name, state.lastId + 1⟩ absent
    (Nat.lt_add_of_pos_right two_pos) ?_ rfl rfl rfl rfl rfl rfl rfl
  exact handleOf_setSlot_session _ _ _

/-- A new player gets a new handle, and the points he had when he left. -/
theorem Consistent.addPlayer [Field Number] [LinearOrder Number]
    (consistent : Consistent state) (absent : state.clients uid = none)
    (running : state.running = true) (name : Name) :
    ∃ rejoin points, (points = 0 ∨ state.records uid = some (.points points)) ∧
      ((state.addConnection uid name).addPlayer uid name).state =
        State.connect { state.addConnection uid name with lastThread := state.lastThread + 2 }
          uid name rejoin points := by
  have noSession : ∀ session, state.records uid ≠ some (.session session) := by
    intro session found
    have hasHandle : (state.handleOf uid).isSome := by
      simp [handleOf, session?, found]
    rw [consistent.connected, absent] at hasHandle
    cases hasHandle
  have stillRunning : (state.addConnection uid name).running = true := running
  have sameRecords : (state.addConnection uid name).records = state.records := rfl
  unfold State.addPlayer
  simp only [stillRunning, if_pos, sameRecords]
  cases found : state.records uid with
  | none => exact ⟨false, 0, Or.inl rfl, rfl⟩
  | some slot =>
      cases slot with
      | points value => exact ⟨decide (0 < value), value, Or.inr rfl, rfl⟩
      | session session => exact absurd found (noSession session)

variable [Field Number] [LinearOrder Number]

/-- What `RemovePlayer.sqf` leaves of a player whose record is still pending. -/
def leavePending [DecidableEq Name] (settings : Settings Number)
    (state : State Uid Name Number) (entry : PendingRecord Uid Name)
    (session : Session Uid Number) : State Uid Name Number :=
  closeRecord settings
    { state.unlist entry.uid with pending := state.pending.erase (some entry) }
    entry.uid session

/-- What `RemovePlayer.sqf` leaves of a player whose record is activated. -/
def leaveActivated (settings : Settings Number) (state : State Uid Name Number) (uid : Uid)
    (session : Session Uid Number) : State Uid Name Number :=
  closeRecord settings ((state.unlist uid).retireRecord uid session) uid session

/-- A connected player is removed on one of the two branches, by the presence of
a pending entry of his. -/
theorem Consistent.removePlayer [DecidableEq Name] (consistent : Consistent state)
    (settings : Settings Number) {client : Client Name}
    (present : state.clients uid = some client) (running : state.running = true) :
    ∃ session, state.session? uid = some session ∧
      ((∃ entry, some entry ∈ state.pending ∧ entry.uid = uid ∧
          entry.handle = session.handle ∧
          state.removePlayer settings uid client.name =
            .finished (state.leavePending settings entry session)) ∨
        (∀ entry, some entry ∈ state.pending → entry.uid ≠ uid) ∧
          state.removePlayer settings uid client.name =
            .finished (state.leaveActivated settings uid session)) := by
  have hasSession : (state.session? uid).isSome := by
    rw [← handleOf_isSome, consistent.connected, present]
    rfl
  obtain ⟨session, found⟩ := Option.isSome_iff_exists.mp hasSession
  refine ⟨session, found, ?_⟩
  unfold State.removePlayer
  simp only [running, if_pos, found]
  by_cases listed : some ⟨uid, client.name, session.handle⟩ ∈ state.pending
  · left
    refine ⟨_, listed, rfl, rfl, ?_⟩
    rw [if_pos listed]
    rfl
  · right
    refine ⟨?_, ?_⟩
    · rintro ⟨other, name, handle⟩ member rfl
      obtain ⟨known, knows, sameName⟩ := consistent.pending_name _ member
      have sameHandle := consistent.pending_handle _ member
      rw [handleOf_eq_some_iff] at sameHandle
      obtain ⟨holder, held, isHandle⟩ := sameHandle
      rw [found, Option.some.injEq] at held
      rw [present, Option.some.injEq] at knows
      subst held knows
      exact listed (sameName ▸ isHandle ▸ member)
    · rw [if_neg listed]
      rfl

theorem Consistent.disconnect_pending [DecidableEq Name] (consistent : Consistent state)
    (settings : Settings Number) {entry : PendingRecord Uid Name}
    (member : some entry ∈ state.pending) (session : Session Uid Number)
    (client : Client Name) :
    Consistent ((state.leavePending settings entry session).removeConnection
      entry.uid client) := by
  refine consistent.leave (handleOf_setSlot_points _ _ _) rfl rfl rfl List.erase_sublist ?_
    rfl rfl rfl
  intro other stays
  exact ((consistent.pending_distinct.mem_erase member).mp stays).2

theorem Consistent.disconnect_activated (consistent : Consistent state)
    (settings : Settings Number)
    (notPending : ∀ entry, some entry ∈ state.pending → entry.uid ≠ uid)
    (session : Session Uid Number) (client : Client Name) :
    Consistent ((state.leaveActivated settings uid session).removeConnection uid client) := by
  have same := sameRoster_retireRecord (state.unlist uid) uid session
  have handles : (state.leaveActivated settings uid session).handleOf =
      Function.update state.handleOf uid none := by
    unfold leaveActivated closeRecord
    rw [handleOf_call, handleOf_setSlot_points]
    exact congrArg (Function.update · uid none) same.handleOf
  have pending : (state.leaveActivated settings uid session).pending = state.pending :=
    same.pending
  refine consistent.leave handles ?_ same.accountName same.lastThread ?_ ?_
    same.active same.west same.east
  · exact congrArg (Function.update · uid none) same.clients
  · exact pending ▸ List.Sublist.refl _
  · intro entry member
    exact notPending entry (pending ▸ member)

end Players

/-- An event that makes no call of the extension and leaves the roster as it is. -/
theorem quiet_step [DecidableEq Name] [Field Number] [LinearOrder Number]
    (settings : Settings Number) {event : Event Uid Name Number}
    {before after : State Uid Name Number} (quiet : event.Quiet)
    (stepped : step settings before event = some after) :
    SameRoster before after ∧ after.calls = before.calls := by
  cases event with
  | agree id =>
      simp only [step] at stepped
      split at stepped <;> cases stepped
      · exact ⟨.refl _, rfl⟩
      · exact ⟨⟨rfl, rfl, rfl, rfl, rfl, rfl, rfl, rfl, rfl⟩, rfl⟩
  | setSide uid side =>
      simp only [step] at stepped
      split at stepped <;> cases stepped
      · exact ⟨.refl _, rfl⟩
      · exact ⟨⟨rfl, rfl, rfl, rfl, rfl, rfl, rfl, rfl, rfl⟩, rfl⟩
  | startClock =>
      cases stepped
      exact ⟨⟨rfl, rfl, rfl, rfl, rfl, rfl, rfl, rfl, rfl⟩, rfl⟩
  | kill uid =>
      simp only [step] at stepped
      split at stepped
      · cases stepped
        exact ⟨.refl _, rfl⟩
      · split at stepped <;> cases stepped
        · exact ⟨sameRoster_updatePlayerKills settings uid _ before,
            calls_updatePlayerKills settings uid _ before⟩
        · exact ⟨.refl _, rfl⟩
  | purchase id index =>
      cases stepped
      exact ⟨sameRoster_purchase settings id index before,
        calls_purchase settings id index before⟩
  | deleteVehicle object =>
      cases stepped
      exact ⟨⟨rfl, rfl, rfl, rfl, rfl, rfl, rfl, rfl, rfl⟩, rfl⟩
  | expire index =>
      simp only [step] at stepped
      split at stepped
      · cases stepped
        exact ⟨.refl _, rfl⟩
      · next thread _ =>
          have same := sameRoster_expire before thread
          have calls := calls_expire before thread
          cases stepped
          exact ⟨⟨same.handleOf, same.accountName, same.lastThread, same.clients,
            same.pending, same.active, same.west, same.east, same.running⟩, calls⟩
  | connect uid name => cases quiet
  | disconnect uid => cases quiet
  | frame answers rankDue publishDue => cases quiet
  | endGame winTeam => cases quiet

section Sound

def Sound (state : State Uid Name Number) : Prop :=
  state.running = true → Consistent state ∧ none ∉ state.pending

omit [DecidableEq Uid] in
theorem sound_initial : Sound (State.initial : State Uid Name Number) := fun _ =>
  ⟨Consistent.initial, List.not_mem_nil⟩

omit [DecidableEq Uid] in
theorem SameRoster.sound {before after : State Uid Name Number}
    (same : SameRoster before after) (sound : Sound before) : Sound after := by
  intro running
  obtain ⟨consistent, complete⟩ := sound (same.running ▸ running)
  exact ⟨consistent.congr same, same.pending ▸ complete⟩

variable [Field Number] [LinearOrder Number] {before after : State Uid Name Number}

theorem Sound.frame (sound : Sound before) (running : before.running = true)
    (settings : Settings Number) (answers : Handle → Option (Answer Number))
    (rankDue publishDue : Bool) :
    Sound (before.frame settings answers rankDue publishDue).state := by
  obtain ⟨consistent, complete⟩ := sound running
  obtain ⟨checked, ended, agrees, empty, -, -⟩ :=
    consistent.checkPendings complete answers (fun _ => True) (fun _ _ _ _ _ _ _ _ => trivial)
      (fun _ _ => trivial) trivial
  have checkedSound : Sound checked := fun _ => ⟨agrees, empty⟩
  unfold State.frame
  rw [ended, Outcome.finished_andThen]
  refine Outcome.andThen_invariant Sound ?_ ?_
  · split
    · exact (sameRoster_accumulateRank settings checked).sound checkedSound
    · exact checkedSound
  · intro ranked rankedSound
    split
    · exact (sameRoster_publishRecords ranked).sound rankedSound
    · exact rankedSound

theorem Sound.connect (sound : Sound before) {uid : Uid} (absent : before.clients uid = none)
    (name : Name) :
    Sound ((before.addConnection uid name).addPlayer uid name).state := by
  cases running : before.running with
  | true =>
      obtain ⟨consistent, complete⟩ := sound running
      obtain ⟨rejoin, points, -, same⟩ := consistent.addPlayer absent running name
      rw [same]
      refine fun _ => ⟨consistent.connect absent name rejoin points, ?_⟩
      intro member
      rcases List.mem_append.mp member with old | new
      · exact complete old
      · simp at new
  | false =>
      have idle : (before.addConnection uid name).running = false := running
      unfold State.addPlayer
      simp only [idle, Bool.false_eq_true, if_false]
      exact fun stillRunning => absurd stillRunning (by simp [idle])

theorem Sound.disconnect [DecidableEq Name] (sound : Sound before) (settings : Settings Number)
    {uid : Uid} {client : Client Name} (present : before.clients uid = some client) :
    Sound ((before.removePlayer settings uid client.name).state.removeConnection uid client) := by
  cases running : before.running with
  | true =>
      obtain ⟨consistent, complete⟩ := sound running
      obtain ⟨session, -, ⟨entry, member, rfl, -, ended⟩ | ⟨notPending, ended⟩⟩ :=
        consistent.removePlayer settings present running
      · rw [ended]
        exact fun _ => ⟨consistent.disconnect_pending settings member session client,
          fun stays => complete (List.erase_subset stays)⟩
      · rw [ended]
        refine fun _ =>
          ⟨consistent.disconnect_activated settings notPending session client, ?_⟩
        have same := sameRoster_retireRecord (before.unlist uid) uid session
        exact same.pending ▸ complete
  | false =>
      unfold State.removePlayer
      simp only [running, Bool.false_eq_true, if_false]
      exact fun stillRunning => absurd (running.symm.trans stillRunning) Bool.false_ne_true

theorem running_step [DecidableEq Name] (settings : Settings Number)
    {event : Event Uid Name Number} (sound : Sound before)
    (notEnd : ∀ winTeam, event ≠ .endGame winTeam)
    (stepped : step settings before event = some after) : after.running = before.running := by
  cases event with
  | connect uid name =>
      simp only [step] at stepped
      split at stepped <;> cases stepped
      unfold State.addPlayer
      split
      · simp only
        split <;> rfl
      · rfl
  | disconnect uid =>
      simp only [step] at stepped
      split at stepped <;> cases stepped
      next client present =>
        cases running : before.running with
        | true =>
            obtain ⟨session, -, ⟨entry, -, -, -, ended⟩ | ⟨-, ended⟩⟩ :=
              (sound running).1.removePlayer settings present running
            · rw [ended]
              exact running
            · rw [ended]
              have same := sameRoster_retireRecord (before.unlist uid) uid session
              exact same.running.trans running
        | false =>
            unfold State.removePlayer
            simp only [running, Bool.false_eq_true, if_false]
            exact running
  | frame answers rankDue publishDue =>
      simp only [step] at stepped
      split at stepped <;> cases stepped
      · next running =>
          obtain ⟨consistent, complete⟩ := sound running
          let Inv (state : State Uid Name Number) : Prop := state.running = before.running
          obtain ⟨checked, ended, -, -, same, -⟩ :=
            consistent.checkPendings complete answers Inv
              (fun _ _ _ _ _ holds _ checked => checked.running.trans holds)
              (fun _ holds => holds) rfl
          unfold State.frame
          rw [ended, Outcome.finished_andThen]
          refine Outcome.andThen_invariant Inv ?_ ?_
          · split
            · exact (sameRoster_accumulateRank settings checked).running.trans same
            · exact same
          · intro ranked holds
            split
            · exact (sameRoster_publishRecords ranked).running.trans holds
            · exact holds
      · rfl
  | endGame winTeam => exact absurd rfl (notEnd winTeam)
  | _ => exact (quiet_step settings (by trivial) stepped).1.running

theorem running_endGame (settings : Settings Number) (winTeam : Side) :
    (before.endGame settings winTeam).state.running = false := by
  unfold State.endGame
  let Stopped (state : State Uid Name Number) : Prop := state.running = false
  refine Outcome.andThen_invariant Stopped ?_ ?_
  · refine forEach_invariant Stopped ?_ rfl
    intro uid _ state stopped
    exact (sameRoster_finishRecord settings winTeam uid state).running.trans stopped
  · intro state stopped
    unfold State.commitActive
    split
    · exact stopped
    · split <;> exact stopped

theorem sound_step [DecidableEq Name] (settings : Settings Number) (event : Event Uid Name Number)
    (sound : Sound before) (stepped : step settings before event = some after) :
    Sound after := by
  cases event with
  | connect uid name =>
      simp only [step] at stepped
      split at stepped
      · next absent =>
          cases stepped
          exact sound.connect absent name
      · cases stepped
  | disconnect uid =>
      simp only [step] at stepped
      split at stepped
      · cases stepped
      · next client present =>
          cases stepped
          exact sound.disconnect settings present
  | frame answers rankDue publishDue =>
      simp only [step] at stepped
      split at stepped <;> cases stepped
      · next running => exact sound.frame running settings answers rankDue publishDue
      · exact sound
  | endGame winTeam =>
      simp only [step] at stepped
      split at stepped <;> cases stepped
      exact fun running => absurd running (by simp [running_endGame])
  | _ => exact (quiet_step settings (by trivial) stepped).1.sound sound

end Sound

end State

end OperationFrontLine.Rank
