import OperationFrontLine.Library.IndexedList
import OperationFrontLine.Rank.Steps

/-!
# The publish list and the indices into it

`PCS_RNK_PUBLISH` with the `_LPI` variables is a list with stored indices.  A
player who is credited twice before the list is published, or who leaves while
a later entry is indexed, breaks it; nothing else does.
-/

namespace OperationFrontLine.Rank

open OperationFrontLine.Library

variable {Uid Name Number : Type}

namespace State

/-- What the removal of a player does to the list: his entries are gone and those
of the others stay. -/
def RemovedCleanly [DecidableEq Uid] (before : State Uid Name Number) (uid : Uid)
    (after : State Uid Name Number) : Prop :=
  after.publish = before.publish.filter fun entry => entry.1 ≠ uid

def PublishIntact [DecidableEq Uid] (before : State Uid Name Number)
    (event : Event Uid Name Number) (after : State Uid Name Number) : Prop :=
  Indexes after.publish after.lpi ∧
    ∀ uid, event = .disconnect uid → before.running = true → before.Activated uid →
      RemovedCleanly before uid after

def OnlyOwnEntry (state : State Uid Name Number) (uid : Uid) : Prop :=
  ∀ (position : ℕ) id, state.publish[position]? = some (uid, id) →
    state.lpi uid = some (position : ℤ)

/-- No `_LPI` variable of another player is larger than that of the player. -/
def IndexedLast (state : State Uid Name Number) (uid : Uid) : Prop :=
  ∀ own, state.lpi uid = some own →
    ∀ other place, other ≠ uid → state.lpi other = some place → place ≤ own

def Buys [Field Number] [LinearOrder Number] (settings : Settings Number)
    (state : State Uid Name Number) (id : ClientId) (index : ℕ) (uid : Uid) : Prop :=
  ∃ side vehicle limit session, state.uidOf id = some uid ∧ state.side uid = some side ∧
    (settings.vehicles side.shopSide)[index]? = some vehicle ∧
    settings.categoryLimits[vehicle.category]? = some limit ∧
    (!state.hasVehicle uid side.shopSide &&
      decide (state.shop.count vehicle.category side.shopSide < limit)) = true ∧
    state.session? uid = some session ∧ vehicle.price ≤ session.record.account.chickens

/-- The condition on a step under which the list stays intact. -/
def PublishesOnce [Field Number] [LinearOrder Number] (settings : Settings Number)
    (state : State Uid Name Number) : Event Uid Name Number → Prop
  | .kill uid =>
      state.running = true → ∀ client, state.clients uid = some client →
        (uid, client.id) ∉ state.publish
  | .purchase id index =>
      ∀ uid, Buys settings state id index uid → (uid, id) ∉ state.publish
  | .disconnect uid =>
      state.running = true → state.Activated uid →
        state.OnlyOwnEntry uid ∧ state.IndexedLast uid
  | _ => True

structure Listed (state : State Uid Name Number) : Prop where
  indexes : Indexes state.publish state.lpi
  last : IndexesLast state.publish state.lpi

namespace Listed

variable {before after : State Uid Name Number}

theorem initial : Listed (State.initial : State Uid Name Number) where
  indexes key place stored := by simp [State.initial] at stored
  last key place stored := by simp [State.initial] at stored

theorem congr (listed : Listed before) (publish : after.publish = before.publish)
    (lpi : after.lpi = before.lpi) : Listed after where
  indexes := by simpa only [publish, lpi] using listed.indexes
  last := by simpa only [publish, lpi] using listed.last

end Listed

variable [DecidableEq Uid]

/-- The loop only clears indices, and when it comes to its end it has cleared the
index of every entry. -/
theorem lpi_publishEntries (entries : List (Uid × ClientId)) (state : State Uid Name Number) :
    (∀ uid place, (forEach publishEntry entries state).state.lpi uid = some place →
      state.lpi uid = some place) ∧
    (forEach publishEntry entries state).state.publish = state.publish ∧
    ∀ after, forEach publishEntry entries state = .finished after →
      ∀ entry ∈ entries, after.lpi entry.1 = none := by
  induction entries generalizing state with
  | nil =>
      refine ⟨fun uid place stored => stored, rfl, ?_⟩
      intro after _ entry member
      cases member
  | cons entry rest inductionHypothesis =>
      rw [forEach_cons]
      cases found : state.session? entry.1 with
      | none =>
          rw [publishEntry_stopped found]
          refine ⟨fun uid place stored => stored, rfl, ?_⟩
          rintro after ⟨⟩
      | some session =>
          rw [publishEntry_finished found, Outcome.finished_andThen]
          obtain ⟨fewer, same, cleared⟩ :=
            inductionHypothesis (state.publishSession entry.1 session)
          have fewerHere : ∀ uid place,
              (state.publishSession entry.1 session).lpi uid = some place →
                uid ≠ entry.1 ∧ state.lpi uid = some place := by
            intro uid place stored
            simp only [publishSession, Function.update_apply] at stored
            split_ifs at stored with own
            exact ⟨own, stored⟩
          refine ⟨fun uid place stored => (fewerHere uid place (fewer uid place stored)).2,
            same, ?_⟩
          intro after ended other member
          rcases List.mem_cons.mp member with rfl | later
          · rw [Option.eq_none_iff_forall_ne_some]
            intro place stored
            rw [ended] at fewer
            exact (fewerHere other.1 place (fewer other.1 place stored)).1 rfl
          · exact cleared after ended other later

theorem Listed.publishRecords {state : State Uid Name Number} (listed : Listed state) :
    Listed state.publishRecords.state := by
  obtain ⟨fewer, same, cleared⟩ := lpi_publishEntries state.publish state
  unfold State.publishRecords
  cases ended : forEach publishEntry state.publish state with
  | stopped after =>
      rw [ended] at fewer same
      rw [Outcome.stopped_andThen, Outcome.state_stopped]
      rw [Outcome.state_stopped] at fewer same
      exact ⟨same ▸ listed.indexes.anti fewer, same ▸ listed.last.anti fewer⟩
  | finished after =>
      rw [ended] at fewer
      rw [Outcome.finished_andThen, Outcome.state_finished]
      have none_left : ∀ uid, after.lpi uid = none := by
        intro uid
        rw [Option.eq_none_iff_forall_ne_some]
        intro place stored
        obtain ⟨position, -, id, held⟩ := listed.indexes uid place (fewer uid place stored)
        have gone := cleared after ended (uid, id) (List.mem_of_getElem? held)
        rw [stored] at gone
        cases gone
      refine ⟨fun uid place stored => ?_, fun uid place stored => ?_⟩
      · exact absurd (stored.symm.trans (none_left uid)) (by simp)
      · exact absurd (stored.symm.trans (none_left uid)) (by simp)

variable [Field Number] [LinearOrder Number]

theorem Listed.frame {state : State Uid Name Number} (listed : Listed state)
    (consistent : Consistent state) (complete : none ∉ state.pending)
    (settings : Settings Number) (answers : Handle → Option (Answer Number))
    (rankDue publishDue : Bool) :
    Listed (state.frame settings answers rankDue publishDue).state := by
  obtain ⟨checked, ended, -, -, kept, -⟩ :=
    consistent.checkPendings complete answers Listed
      (fun _ _ _ _ _ holds _ checked => holds.congr checked.publish checked.lpi)
      (fun _ holds => holds.congr rfl rfl) listed
  unfold State.frame
  rw [ended, Outcome.finished_andThen]
  refine Outcome.andThen_invariant Listed ?_ ?_
  · split
    · have same := samePublishing_accumulateRank settings checked
      exact kept.congr same.publish same.lpi
    · exact kept
  · intro ranked holds
    split
    · exact holds.publishRecords
    · exact holds

theorem publish_endGame (settings : Settings Number) (winTeam : Side)
    (state : State Uid Name Number) :
    (state.endGame settings winTeam).state.publish = state.publish ∧
      (state.endGame settings winTeam).state.lpi = state.lpi := by
  let Same (later : State Uid Name Number) : Prop :=
    later.publish = state.publish ∧ later.lpi = state.lpi
  unfold State.endGame
  refine Outcome.andThen_invariant Same ?_ ?_
  · refine forEach_invariant Same ?_ ⟨rfl, rfl⟩
    intro uid _ middle kept
    unfold State.finishRecord
    refine Outcome.andThen_invariant Same ?_ ?_
    · unfold State.rateRecord
      split
      · split
        · exact kept
        · split <;> exact kept
      · exact kept
    · intro rated holds
      split <;> exact holds
  · intro middle kept
    unfold State.commitActive
    split
    · exact kept
    · split <;> exact kept

theorem leaveActivated_unindexed (settings : Settings Number) {state : State Uid Name Number}
    {uid : Uid} (unindexed : state.lpi uid = none) (session : Session Uid Number) :
    (state.leaveActivated settings uid session).publish = state.publish ∧
      (state.leaveActivated settings uid session).lpi = state.lpi := by
  have missing : (state.unlist uid).lpi uid = none := unindexed
  unfold leaveActivated retireRecord
  simp only [missing]
  exact ⟨rfl, rfl⟩

theorem leaveActivated_indexed (settings : Settings Number) {state : State Uid Name Number}
    {uid : Uid} {place : ℤ} (indexed : state.lpi uid = some place)
    (session : Session Uid Number) :
    (state.leaveActivated settings uid session).publish = deleteAt state.publish place ∧
      (state.leaveActivated settings uid session).lpi =
        Function.update state.lpi uid none := by
  have stored : (state.unlist uid).lpi uid = some place := indexed
  unfold leaveActivated retireRecord
  simp only [stored]
  exact ⟨rfl, rfl⟩

/-- The removal of an activated player is clean, and the indices stay right,
exactly when his own entry is his only one and the last that is indexed. -/
theorem Listed.leaveActivated_iff {state : State Uid Name Number} (listed : Listed state)
    (settings : Settings Number) (uid : Uid) (session : Session Uid Number) :
    Indexes (state.leaveActivated settings uid session).publish
        (state.leaveActivated settings uid session).lpi ∧
      RemovedCleanly state uid (state.leaveActivated settings uid session) ↔
      state.OnlyOwnEntry uid ∧ state.IndexedLast uid := by
  unfold RemovedCleanly
  cases stored : state.lpi uid with
  | none =>
      obtain ⟨publish, lpi⟩ := leaveActivated_unindexed settings stored session
      rw [publish, lpi, eq_comm, List.filter_eq_self]
      constructor
      · rintro ⟨-, others⟩
        refine ⟨fun position id held => ?_, fun own isOwn => ?_⟩
        · have different := others (uid, id) (List.mem_of_getElem? held)
          simp at different
        · rw [stored] at isOwn
          cases isOwn
      · rintro ⟨only, -⟩
        refine ⟨listed.indexes, ?_⟩
        rintro ⟨other, id⟩ member
        obtain ⟨position, held⟩ := List.mem_iff_getElem?.mp member
        rw [decide_eq_true_eq]
        rintro rfl
        have indexed := only position id held
        rw [stored] at indexed
        cases indexed
  | some place =>
      obtain ⟨publish, lpi⟩ := leaveActivated_indexed settings stored session
      obtain ⟨position, rfl, id, held⟩ := listed.indexes uid place stored
      rw [publish, lpi, deleteAt_natCast,
        indexes_delete_iff listed.indexes listed.last stored, eraseIdx_eq_filter_iff held,
        and_comm]
      refine and_congr ?_ ?_
      · refine forall₃_congr fun other id held => ?_
        rw [stored, Option.some.injEq, Nat.cast_inj, eq_comm]
      · constructor
        · intro before own isOwn
          rw [stored, Option.some.injEq] at isOwn
          exact isOwn ▸ before
        · exact fun before => before position stored

theorem Listed.leaveActivated {state : State Uid Name Number} (listed : Listed state)
    (settings : Settings Number) {uid : Uid} (session : Session Uid Number)
    (before : state.IndexedLast uid) :
    IndexesLast (state.leaveActivated settings uid session).publish
      (state.leaveActivated settings uid session).lpi := by
  cases stored : state.lpi uid with
  | none =>
      obtain ⟨publish, lpi⟩ := leaveActivated_unindexed settings stored session
      rw [publish, lpi]
      exact listed.last
  | some place =>
      obtain ⟨publish, lpi⟩ := leaveActivated_indexed settings stored session
      obtain ⟨position, rfl, -⟩ := listed.indexes uid place stored
      rw [publish, lpi, deleteAt_natCast]
      exact listed.last.delete (before position stored)

/-- A purchase either goes through and pushes the buyer's entry, or leaves the list. -/
theorem purchase_publish (settings : Settings Number) (id : ClientId) (index : ℕ)
    (state : State Uid Name Number) :
    (∃ uid, Buys settings state id index uid ∧
      (state.purchase settings id index).state.publish =
        (state.pushPublish uid id).publish ∧
      (state.purchase settings id index).state.lpi = (state.pushPublish uid id).lpi) ∨
    (∀ uid, ¬ Buys settings state id index uid) ∧
      (state.purchase settings id index).state.publish = state.publish ∧
      (state.purchase settings id index).state.lpi = state.lpi := by
  fun_cases purchase settings id index state with
  | case6 uid found side hasSide vehicle listed limit limited inStock session has afford =>
      exact Or.inl ⟨uid, ⟨side, vehicle, limit, session, found, hasSide, listed, limited,
        inStock, has, afford⟩, rfl, rfl⟩
  | _ =>
      refine Or.inr ⟨?_, rfl, rfl⟩
      rintro uid ⟨side, vehicle, limit, session, found, hasSide, listed, limited, inStock,
        has, afford⟩
      grind

omit [DecidableEq Uid] in
theorem Buys.unique {settings : Settings Number} {state : State Uid Name Number}
    {id : ClientId} {index : ℕ} {first second : Uid}
    (isFirst : Buys settings state id index first)
    (isSecond : Buys settings state id index second) : first = second := by
  obtain ⟨_, _, _, _, found, -⟩ := isFirst
  obtain ⟨_, _, _, _, other, -⟩ := isSecond
  exact Option.some.inj (found.symm.trans other)

/-- The list is the same after every event but a kill, a purchase, the removal of
an activated player and a frame. -/
theorem publish_step [DecidableEq Name] (settings : Settings Number)
    {event : Event Uid Name Number} {before after : State Uid Name Number}
    (stepped : step settings before event = some after)
    (other : match event with
      | .kill _ | .purchase _ _ | .disconnect _ | .frame _ _ _ => False
      | _ => True) :
    after.publish = before.publish ∧ after.lpi = before.lpi := by
  cases event with
  | connect uid name =>
      simp only [step] at stepped
      split at stepped <;> cases stepped
      unfold addPlayer
      split
      · simp only
        split <;> exact ⟨rfl, rfl⟩
      · exact ⟨rfl, rfl⟩
  | agree id =>
      simp only [step] at stepped
      split at stepped <;> cases stepped <;> exact ⟨rfl, rfl⟩
  | setSide uid side =>
      simp only [step] at stepped
      split at stepped <;> cases stepped <;> exact ⟨rfl, rfl⟩
  | startClock =>
      cases stepped
      exact ⟨rfl, rfl⟩
  | deleteVehicle object =>
      cases stepped
      exact ⟨rfl, rfl⟩
  | expire index =>
      simp only [step] at stepped
      split at stepped <;> cases stepped
      · exact ⟨rfl, rfl⟩
      · unfold expire
        split
        · exact ⟨rfl, rfl⟩
        · split <;> exact ⟨rfl, rfl⟩
        · exact ⟨rfl, rfl⟩
        · exact ⟨rfl, rfl⟩
  | endGame winTeam =>
      simp only [step] at stepped
      split at stepped <;> cases stepped
      exact publish_endGame settings winTeam before
  | kill uid => exact other.elim
  | purchase id index => exact other.elim
  | disconnect uid => exact other.elim
  | frame answers rankDue publishDue => exact other.elim

omit [Field Number] [LinearOrder Number] in
theorem Listed.push_iff {before after : State Uid Name Number} (listed : Listed before)
    {uid : Uid} {id : ClientId} (publish : after.publish = (before.pushPublish uid id).publish)
    (lpi : after.lpi = (before.pushPublish uid id).lpi) :
    (Indexes after.publish after.lpi ↔ (uid, id) ∉ before.publish) ∧
      ((uid, id) ∉ before.publish → IndexesLast after.publish after.lpi) := by
  rw [publish, lpi]
  exact ⟨indexes_push_iff listed.indexes, listed.last.push⟩

theorem Listed.step [DecidableEq Name] (settings : Settings Number)
    {event : Event Uid Name Number} {before after : State Uid Name Number}
    (listed : Listed before) (sound : Sound before)
    (stepped : step settings before event = some after) :
    (PublishIntact before event after ↔ PublishesOnce settings before event) ∧
      (PublishesOnce settings before event → IndexesLast after.publish after.lpi) := by
  have intact_iff : (∀ uid, event ≠ .disconnect uid) →
      (PublishIntact before event after ↔ Indexes after.publish after.lpi) := by
    intro stays
    refine and_iff_left ?_
    intro uid leaves
    exact absurd leaves (stays uid)
  have unchanged : (∀ uid, event ≠ .disconnect uid) → PublishesOnce settings before event →
      Listed after → (PublishIntact before event after ↔ PublishesOnce settings before event) ∧
        (PublishesOnce settings before event → IndexesLast after.publish after.lpi) := by
    intro stays once kept
    rw [intact_iff stays]
    exact ⟨iff_of_true kept.indexes once, fun _ => kept.last⟩
  cases event with
  | kill uid =>
      rw [intact_iff (by simp)]
      simp only [Rank.step] at stepped
      cases present : before.clients uid with
      | none =>
          rw [present, Option.some.injEq] at stepped
          subst stepped
          have once : PublishesOnce settings before (.kill uid) := by
            intro _ client found
            rw [present] at found
            cases found
          exact ⟨iff_of_true listed.indexes once, fun _ => listed.last⟩
      | some client =>
          rw [present] at stepped
          cases running : before.running with
          | false =>
              simp only [running, Bool.false_eq_true, if_false, Option.some.injEq] at stepped
              subst stepped
              have once : PublishesOnce settings before (.kill uid) := by
                intro started
                rw [running] at started
                cases started
              exact ⟨iff_of_true listed.indexes once, fun _ => listed.last⟩
          | true =>
              simp only [running, if_pos, Option.some.injEq] at stepped
              have hasSession : (before.session? uid).isSome := by
                rw [← handleOf_isSome, (sound running).1.connected, present]
                rfl
              obtain ⟨session, found⟩ := Option.isSome_iff_exists.mp hasSession
              unfold updatePlayerKills at stepped
              rw [found] at stepped
              subst stepped
              have once_iff : PublishesOnce settings before (.kill uid) ↔
                  (uid, client.id) ∉ before.publish := by
                constructor
                · exact fun once => once running client present
                · intro fresh _ other isOther
                  rw [present, Option.some.injEq] at isOther
                  exact isOther ▸ fresh
              rw [once_iff]
              exact listed.push_iff rfl rfl
  | purchase id index =>
      rw [intact_iff (by simp)]
      cases stepped
      rcases purchase_publish settings id index before with
        ⟨uid, buys, publish, lpi⟩ | ⟨nobody, publish, lpi⟩
      · have once_iff : PublishesOnce settings before (.purchase id index) ↔
            (uid, id) ∉ before.publish := by
          constructor
          · exact fun once => once uid buys
          · intro fresh other isOther
            exact isOther.unique buys ▸ fresh
        rw [once_iff]
        exact listed.push_iff publish lpi
      · have kept := listed.congr publish lpi
        exact ⟨iff_of_true kept.indexes fun uid buys => absurd buys (nobody uid),
          fun _ => kept.last⟩
  | disconnect uid =>
      simp only [Rank.step] at stepped
      split at stepped <;> cases stepped
      next client present =>
        cases running : before.running with
        | false =>
            have once : PublishesOnce settings before (.disconnect uid) := by
              intro started
              rw [running] at started
              cases started
            unfold removePlayer
            simp only [running, Bool.false_eq_true, if_false]
            refine ⟨iff_of_true ⟨listed.indexes, ?_⟩ once, fun _ => listed.last⟩
            intro other _ started
            rw [running] at started
            cases started
        | true =>
            obtain ⟨session, -, ⟨entry, member, rfl, -, ended⟩ | ⟨notPending, ended⟩⟩ :=
              (sound running).1.removePlayer settings present running
            · rw [ended, Outcome.state_finished]
              have pending : ¬ before.Activated entry.uid := fun activated =>
                activated _ member entry rfl rfl
              refine ⟨iff_of_true ⟨listed.indexes, ?_⟩ ?_, fun _ => listed.last⟩
              · rintro other ⟨⟩ _ activated
                exact absurd activated pending
              · intro _ activated
                exact absurd activated pending
            · rw [ended, Outcome.state_finished]
              have activated : before.Activated uid := by
                rintro slot member entry rfl
                exact notPending entry member
              have once_iff : PublishesOnce settings before (.disconnect uid) ↔
                  before.OnlyOwnEntry uid ∧ before.IndexedLast uid :=
                ⟨fun once => once running activated, fun once _ _ => once⟩
              have intact : PublishIntact before (.disconnect uid)
                    ((before.leaveActivated settings uid session).removeConnection uid client) ↔
                  before.OnlyOwnEntry uid ∧ before.IndexedLast uid := by
                rw [← listed.leaveActivated_iff settings uid session]
                refine and_congr Iff.rfl ⟨fun holds => holds uid rfl running activated, ?_⟩
                rintro clean other ⟨⟩ _ _
                exact clean
              rw [once_iff]
              exact ⟨intact, fun once => listed.leaveActivated settings session once.2⟩
  | frame answers rankDue publishDue =>
      refine unchanged (by simp) trivial ?_
      simp only [Rank.step] at stepped
      split at stepped <;> cases stepped
      · next running =>
          obtain ⟨consistent, complete⟩ := sound running
          exact listed.frame consistent complete settings answers rankDue publishDue
      · exact listed
  | _ =>
      obtain ⟨publish, lpi⟩ := publish_step settings stepped trivial
      exact unchanged (by simp) trivial (listed.congr publish lpi)

end State

open State

/-- In every run the publish list stays intact all along exactly when every step
meets the condition: a player is credited only when he has no entry, and an
activated player leaves only when the entry that his index points to is his only
one and the last that is indexed. -/
theorem publish_intact_iff [DecidableEq Uid] [DecidableEq Name] [Field Number]
    [LinearOrder Number] (settings : Settings Number)
    (events : List (Event Uid Name Number)) :
    Along (step settings) PublishIntact State.initial events ↔
      Along (step settings) (fun before event _ => PublishesOnce settings before event)
        State.initial events := by
  let Inv (state : State Uid Name Number) : Prop := Sound state ∧ Listed state
  refine along_iff_of_invariant Inv ?_ ?_ ⟨sound_initial, Listed.initial⟩ events
  · rintro before event after ⟨sound, listed⟩ once stepped
    obtain ⟨intact, last⟩ := listed.step settings sound stepped
    exact ⟨sound_step settings event sound stepped, (intact.mpr once).1, last once⟩
  · rintro before event after ⟨sound, listed⟩ stepped
    exact (listed.step settings sound stepped).1

/-- A player is activated and credited twice before the list is published. -/
def creditedTwice : List (Event ℕ ℕ ℚ) :=
  [.connect 7 0, .agree 1, .setSide 7 .west, .frame answerAll false false, .kill 7, .kill 7]

theorem publish_stale :
    ∃ before after, run (step plainSettings) State.initial creditedTwice = some before ∧
      step plainSettings before (.disconnect 7) = some after ∧
      ¬ Indexes before.publish before.lpi ∧
      before.running = true ∧ before.Activated 7 ∧ ¬ RemovedCleanly before 7 after := by
  have reached : ((run (step plainSettings) State.initial creditedTwice).map fun before =>
      (before.running, before.pending, before.publish)) = some (true, [], [(7, 1)]) := by
    decide +kernel
  have later : ((run (step plainSettings) State.initial creditedTwice).map fun before =>
      (before.lpi 7, (step plainSettings before (.disconnect 7)).map State.publish)) =
        some (some (-1), some [(7, 1)]) := by
    decide +kernel
  obtain ⟨before, ran, holds⟩ := Option.map_eq_some_iff.mp reached
  rw [ran, Option.map_some, Option.some.injEq] at later
  simp only [Prod.mk.injEq, Option.map_eq_some_iff] at holds later
  obtain ⟨running, pending, publish⟩ := holds
  obtain ⟨lpi, after, stepped, left⟩ := later
  refine ⟨before, after, ran, stepped, ?_, running, ?_, ?_⟩
  · intro indexes
    obtain ⟨position, isPosition, -⟩ := indexes 7 (-1) lpi
    omega
  · intro slot member
    rw [pending] at member
    cases member
  · unfold RemovedCleanly
    rw [left, publish]
    decide

end OperationFrontLine.Rank
