import OperationFrontLine.Rank.Journal

/-!
# The session protocol of the extension

The protocol of a handle is followed in every run in which the publishing loop
never comes to an entry whose player is still pending, and `EndGame` never
divides by a game length of zero.
-/

namespace OperationFrontLine.Rank

open OperationFrontLine.Library

variable {Uid Name Number : Type} [DecidableEq Uid]

namespace State

theorem Journalled.checked {before after : State Uid Name Number}
    (journalled : Journalled before) (consistent : Consistent before)
    {answers : Handle → Option (Answer Number)} {index : ℕ} {entry : PendingRecord Uid Name}
    (here : before.pending[index]? = some (some entry))
    (checked : Checked answers index entry before after) : Journalled after := by
  have member := List.mem_of_getElem? here
  have asked := journalled.getOutput consistent member
  have marked : ∀ {middle : State Uid Name Number}, Journalled middle →
      middle.handleOf = before.handleOf → middle.pending = before.pending →
      ∀ answer session, Journalled (middle.activated index entry answer session) := by
    intro middle journal sameHandles samePending answer session
    have handles : (middle.activated index entry answer session).handleOf =
        middle.handleOf := by
      unfold State.activated
      rw [handleOf_setSlot_session]
      refine Function.update_eq_self_iff.mpr ?_
      exact ((congrFun sameHandles entry.uid).trans
        (consistent.pending_handle entry member)).symm
    have fewer : ∀ other, some other ∈ middle.pending.set index none →
        some other ∈ middle.pending := by
      intro other stays
      rw [samePending] at stays ⊢
      exact ((consistent.pending_distinct.mem_set here).mp stays).1
    exact ⟨fun other stays => journal.asking other (fewer other stays),
      handles ▸ journal.opened, handles ▸ journal.committed, journal.unused, journal.returned⟩
  cases checked with
  | waiting notReady => exact journalled
  | asked unanswered => exact asked none
  | kicked answer session hasSide answered found =>
      exact marked (asked _) rfl rfl answer session
  | enlisted answer session hasSide answered found =>
      have activated := marked (asked (some answer)) rfl rfl answer session
      unfold State.enlist
      split <;> exact ⟨activated.asking, activated.opened, activated.committed,
        activated.unused, activated.returned⟩

variable [Field Number] [LinearOrder Number]

theorem Journalled.frame [DecidableEq Name] {state : State Uid Name Number}
    (journalled : Journalled state) (consistent : Consistent state)
    (complete : none ∉ state.pending) (settings : Settings Number)
    (answers : Handle → Option (Answer Number)) (rankDue publishDue : Bool)
    (orderly : publishDue = true → PublishesActivated answers state) :
    Journalled (state.frame settings answers rankDue publishDue).state := by
  refine consistent.frame complete settings answers rankDue publishDue orderly Journalled
    ?checked ?swept ?accumulated ?published ?cleared journalled
  case checked =>
    intro index entry before after agrees journal _ here checked
    exact journal.checked agrees here checked
  case swept =>
    intro before journal
    exact ⟨fun entry stays => journal.asking entry (List.mem_filter.mp stays).1,
      journal.opened, journal.committed, journal.unused, journal.returned⟩
  case accumulated =>
    intro before _ journal
    exact journal.congr (sameRoster_accumulateRank settings before)
      (samePublishing_accumulateRank settings before).calls
  case published =>
    intro before uid session agrees journal found activated
    have held : before.handleOf uid = some session.handle :=
      handleOf_eq_some_iff.mpr ⟨session, found, rfl⟩
    have called := journal.publishAccount agrees held
      (fun pending stays => activated _ stays pending rfl) session.record
    exact ⟨called.asking, called.opened, called.committed, called.unused, called.returned⟩
  case cleared =>
    intro before journal
    exact ⟨journal.asking, journal.opened, journal.committed, journal.unused,
      journal.returned⟩

theorem Journalled.finishRecord {state : State Uid Name Number} (journalled : Journalled state)
    (consistent : Consistent state) (settings : Settings Number) (winTeam : Side) {uid : Uid}
    (listed : uid ∈ state.west ++ state.east)
    (lengthKnown : settings.ranked = true → state.realGameLength ≠ 0) :
    ∃ after, state.finishRecord settings winTeam uid = .finished after ∧
      Journalled after ∧ after.realGameLength = state.realGameLength := by
  obtain ⟨hasHandle, notPending⟩ := consistent.enlisted uid listed
  obtain ⟨session, found⟩ := Option.isSome_iff_exists.mp (handleOf_isSome.mp hasHandle)
  have published : ∀ rated : State Uid Name Number, SameRoster state rated →
      Journalled rated → rated.session? uid = some session ∨
        (∃ account, rated.session? uid = some (session.withAccount account)) →
      ∃ current, rated.session? uid = some current ∧
        Journalled (rated.call (.publishAccount current.handle current.record)) := by
    intro rated same journal kept
    have held : rated.handleOf uid = some session.handle := by
      rw [same.handleOf]
      exact handleOf_eq_some_iff.mpr ⟨session, found, rfl⟩
    have called := journal.publishAccount (consistent.congr same) held
      (same.pending ▸ notPending)
    rcases kept with kept | ⟨account, kept⟩
    · exact ⟨session, kept, called _⟩
    · exact ⟨session.withAccount account, kept, called _⟩
  unfold State.finishRecord
  cases ranked : settings.ranked with
  | false =>
      simp only [Bool.false_eq_true, if_false, Outcome.finished_andThen]
      obtain ⟨current, present, journal⟩ := published state (.refl state) journalled (Or.inl found)
      exact ⟨_, by rw [present], journal, rfl⟩
  | true =>
      simp only [if_true]
      unfold State.rateRecord
      simp only [found, if_neg (lengthKnown ranked), Outcome.finished_andThen]
      have same := sameRoster_withAccount found
        (session.record.account.afterMatch
          (matchPoints settings.engine session.points state.realGameLength) winTeam
          (state.side uid))
      obtain ⟨current, present, journal⟩ := published _ same (journalled.congr same rfl)
        (Or.inr ⟨_, by rw [session?_setSlot_session, if_pos rfl]⟩)
      exact ⟨_, by rw [present], journal, rfl⟩

omit [DecidableEq Uid] [Field Number] [LinearOrder Number] in
theorem Consistent.mapM_active {state : State Uid Name Number} (consistent : Consistent state) :
    ∃ sessions, state.active.mapM state.session? = some sessions ∧
      sessions.map Session.handle = state.active.filterMap state.handleOf := by
  have all : ∀ uid ∈ state.active, (state.session? uid).isSome := by
    intro uid member
    exact handleOf_isSome.mp ((consistent.mem_active uid).mp member)
  generalize state.active = active at all
  induction active with
  | nil => exact ⟨[], rfl, rfl⟩
  | cons uid rest inductionHypothesis =>
      obtain ⟨session, found⟩ := Option.isSome_iff_exists.mp (all uid (by simp))
      obtain ⟨sessions, others, handles⟩ :=
        inductionHypothesis fun other member => all other (by simp [member])
      refine ⟨session :: sessions, by simp [found, others], ?_⟩
      have held : state.handleOf uid = some session.handle :=
        handleOf_eq_some_iff.mpr ⟨session, found, rfl⟩
      rw [List.filterMap_cons_some held, List.map_cons, handles]

omit [DecidableEq Uid] [Field Number] [LinearOrder Number] in
theorem Consistent.count_active {state : State Uid Name Number} (consistent : Consistent state)
    {uid : Uid} {handle : Handle} (held : state.handleOf uid = some handle) :
    (state.active.filterMap state.handleOf).count handle = 1 := by
  have distinct : (state.active.filterMap state.handleOf).Nodup := by
    refine consistent.active_nodup.filterMap ?_
    intro first second shared isFirst isSecond
    exact consistent.uid_eq isFirst isSecond
  have member : handle ∈ state.active.filterMap state.handleOf :=
    List.mem_filterMap.mpr ⟨uid, (consistent.mem_active uid).mpr (by simp [held]), held⟩
  exact List.count_eq_one_of_mem distinct member

omit [DecidableEq Uid] [Field Number] [LinearOrder Number] in
/-- The one `Commit` of `EndGame` commits every handle that is still open. -/
theorem Journalled.commitActive {state : State Uid Name Number} (journalled : Journalled state)
    (consistent : Consistent state) : Closed state.commitActive.state := by
  obtain ⟨sessions, found, handles⟩ := consistent.mapM_active
  unfold State.commitActive
  split
  · next nobody =>
      have empty : state.active = [] := List.length_eq_zero_iff.mp (by omega)
      refine ⟨fun handle uid known => journalled.committed handle uid known ?_,
        journalled.unused, journalled.returned⟩
      intro held
      have member := (consistent.mem_active uid).mpr (by simp [held])
      simp [empty] at member
  · rw [found, Outcome.state_finished]
    have uses : ∀ handle, (ExtensionCall.commit
        (sessions.map fun session => (session.handle, false)) :
          ExtensionCall Uid Number).uses handle =
        List.replicate ((state.active.filterMap state.handleOf).count handle) .commit := by
      intro handle
      rw [← handles, ExtensionCall.uses, List.map_const', List.count, List.countP_map,
        List.filter_map, List.length_map, ← List.countP_eq_length_filter]
      congr 1
    have traced : ∀ handle, trace (state.call (.commit
        (sessions.map fun session => (session.handle, false)))).calls handle =
        trace state.calls handle ++
          List.replicate ((state.active.filterMap state.handleOf).count handle) .commit := by
      intro handle
      rw [← uses handle]
      simp [State.call]
    refine ⟨?_, ?_, ?_⟩
    · intro handle uid known
      rw [traced]
      by_cases held : state.handleOf uid = some handle
      · rw [consistent.count_active held]
        exact (journalled.opened uid handle held).commit
      · have absent : handle ∉ state.active.filterMap state.handleOf := by
          intro member
          obtain ⟨other, -, holds⟩ := List.mem_filterMap.mp member
          have named := consistent.named other handle holds
          exact held (Option.some.inj (named.symm.trans known) ▸ holds)
        rw [List.count_eq_zero.mpr absent, List.replicate_zero, List.append_nil]
        exact journalled.committed handle uid known held
    · intro handle unknown
      have absent : handle ∉ state.active.filterMap state.handleOf := by
        intro member
        obtain ⟨other, -, holds⟩ := List.mem_filterMap.mp member
        exact Option.some_ne_none other ((consistent.named other handle holds).symm.trans unknown)
      rw [traced, List.count_eq_zero.mpr absent, List.replicate_zero, List.append_nil]
      exact journalled.unused handle unknown
    · intro handle uid rejoin member
      rcases List.mem_append.mp member with old | new
      · exact journalled.returned handle uid rejoin old
      · cases List.mem_singleton.mp new

theorem Journalled.endGame {state : State Uid Name Number} (journalled : Journalled state)
    (consistent : Consistent state) (settings : Settings Number) (winTeam : Side)
    (lengthKnown : settings.ranked = true → state.west ++ state.east ≠ [] →
      state.realGameLength ≠ 0) :
    Closed (state.endGame settings winTeam).state := by
  let start := { state with running := false }
  let Inv (middle : State Uid Name Number) : Prop :=
    SameRoster start middle ∧ Journalled middle ∧
      middle.realGameLength = state.realGameLength
  have started : Consistent start := consistent.stop
  have rated : ∃ after,
      forEach (State.finishRecord settings winTeam) (state.west ++ state.east) start =
        .finished after ∧ Inv after := by
    refine forEach_finished Inv ?_ ⟨.refl start, ⟨journalled.asking, journalled.opened,
      journalled.committed, journalled.unused, journalled.returned⟩, rfl⟩
    rintro uid listed middle ⟨same, journal, sameLength⟩
    have listedHere : uid ∈ middle.west ++ middle.east := by
      rw [same.west, same.east]
      exact listed
    obtain ⟨after, ended, kept, length⟩ :=
      journal.finishRecord (started.congr same) settings winTeam listedHere fun ranked => by
        rw [sameLength]
        exact lengthKnown ranked (List.ne_nil_of_mem listed)
    have keptRoster := sameRoster_finishRecord settings winTeam uid middle
    rw [ended] at keptRoster
    exact ⟨after, ended, same.trans keptRoster, kept, length.trans sameLength⟩
  obtain ⟨after, ended, same, journal, -⟩ := rated
  unfold State.endGame
  rw [ended, Outcome.finished_andThen]
  exact journal.commitActive (started.congr same)

theorem Journalled.connect {state : State Uid Name Number} (journalled : Journalled state)
    (consistent : Consistent state) {uid : Uid} (absent : state.clients uid = none)
    (running : state.running = true) (name : Name) :
    Journalled ((state.addConnection uid name).addPlayer uid name).state := by
  obtain ⟨rejoin, points, -, same⟩ := consistent.addPlayer absent running name
  rw [same]
  have fresh : state.accountName (state.lastThread + 2) = none := by
    cases known : state.accountName (state.lastThread + 2) with
    | none => rfl
    | some other =>
        have bound := consistent.issued (state.lastThread + 2) other known
        exact absurd bound (Nat.not_le.mpr (Nat.lt_add_of_pos_right two_pos))
  have noHandle : state.handleOf uid = none := by
    have missing := (consistent.connected uid).not
    simpa [absent] using missing
  exact journalled.join fresh (handleOf_setSlot_session _ _ _) noHandle rfl rfl rfl

theorem calls_leaveActivated (settings : Settings Number) (state : State Uid Name Number)
    (uid : Uid) (session : Session Uid Number) :
    (state.leaveActivated settings uid session).calls =
      (state.call (.publishAccount session.handle session.record)).calls ++
        [.commit [(session.handle, decide (0 < session.points) && settings.ranked)]] := by
  have retired : ((state.unlist uid).retireRecord uid session).calls =
      (state.call (.publishAccount session.handle session.record)).calls := by
    unfold retireRecord
    simp only
    split <;> rfl
  exact congrArg (· ++ _) retired

theorem Journalled.disconnect [DecidableEq Name] {state : State Uid Name Number}
    (journalled : Journalled state) (consistent : Consistent state)
    (settings : Settings Number) {uid : Uid} {client : Client Name}
    (present : state.clients uid = some client) (running : state.running = true) :
    Journalled
      ((state.removePlayer settings uid client.name).state.removeConnection uid client) := by
  obtain ⟨session, found, ⟨entry, member, rfl, sameHandle, ended⟩ | ⟨notPending, ended⟩⟩ :=
    consistent.removePlayer settings present running
  all_goals rw [ended, Outcome.state_finished]
  · have held := handleOf_eq_some_iff.mpr ⟨session, found, rfl⟩
    refine journalled.leave consistent held (handleOf_setSlot_points _ _ _) rfl ?_ rfl
    intro other stays
    exact (consistent.pending_distinct.mem_erase member).mp stays
  · have held := handleOf_eq_some_iff.mpr ⟨session, found, rfl⟩
    have published := journalled.publishAccount consistent held notPending session.record
    have agrees : Consistent (state.call (.publishAccount session.handle session.record)) :=
      consistent.congr ⟨rfl, rfl, rfl, rfl, rfl, rfl, rfl, rfl, rfl⟩
    have same := sameRoster_retireRecord (state.unlist uid) uid session
    refine published.leave agrees held ?_ same.accountName ?_
      (calls_leaveActivated settings state uid session)
    · have handles : (state.leaveActivated settings uid session).handleOf =
          Function.update ((state.unlist uid).retireRecord uid session).handleOf uid none :=
        handleOf_setSlot_points _ _ _
      exact handles.trans (congrArg (Function.update · uid none) same.handleOf)
    · intro entry stays
      have old : some entry ∈ state.pending := same.pending ▸ stays
      exact ⟨old, notPending entry old⟩

def Kept (state : State Uid Name Number) : Prop :=
  (state.running = true → Journalled state) ∧ (state.running = false → Closed state)

omit [DecidableEq Uid] [Field Number] [LinearOrder Number] in
theorem kept_initial : Kept (State.initial : State Uid Name Number) :=
  ⟨fun _ => Journalled.initial, fun stopped => absurd stopped (by simp [State.initial])⟩

omit [DecidableEq Uid] [Field Number] [LinearOrder Number] in
theorem Closed.congr {before after : State Uid Name Number} (closed : Closed before)
    (same : SameRoster before after) (calls : after.calls = before.calls) : Closed after where
  committed := by simpa only [same.accountName, calls] using closed.committed
  unused := by simpa only [same.accountName, calls] using closed.unused
  returned := by simpa only [same.accountName, calls] using closed.returned

/-- The condition on a step under which the protocol is followed: a publishing
frame only comes to activated records, and a ranked game that ends with players
on a side has a length. -/
def Orderly [DecidableEq Name] (settings : Settings Number) (state : State Uid Name Number) :
    Event Uid Name Number → Prop
  | .frame answers _ publishDue => publishDue = true → PublishesActivated answers state
  | .endGame _ =>
      settings.ranked = true → state.west ++ state.east ≠ [] → state.realGameLength ≠ 0
  | _ => True

theorem Journalled.step [DecidableEq Name] (settings : Settings Number)
    {event : Event Uid Name Number} {before after : State Uid Name Number}
    (journalled : Journalled before) (sound : Sound before) (running : before.running = true)
    (notEnd : ∀ winTeam, event ≠ .endGame winTeam) (orderly : Orderly settings before event)
    (stepped : step settings before event = some after) : Journalled after := by
  obtain ⟨consistent, complete⟩ := sound running
  cases event with
  | connect uid name =>
      simp only [Rank.step] at stepped
      split at stepped <;> cases stepped
      next absent => exact journalled.connect consistent absent running name
  | disconnect uid =>
      simp only [Rank.step] at stepped
      split at stepped <;> cases stepped
      next client present => exact journalled.disconnect consistent settings present running
  | frame answers rankDue publishDue =>
      simp only [Rank.step, running, if_pos, Option.some.injEq] at stepped
      subst stepped
      exact journalled.frame consistent complete settings answers rankDue publishDue orderly
  | endGame winTeam => exact absurd rfl (notEnd winTeam)
  | _ =>
      obtain ⟨same, calls⟩ := quiet_step settings (by trivial) stepped
      exact journalled.congr same calls

theorem Closed.step [DecidableEq Name] (settings : Settings Number)
    {event : Event Uid Name Number} {before after : State Uid Name Number}
    (closed : Closed before) (stopped : before.running = false)
    (stepped : step settings before event = some after) :
    Closed after ∧ after.running = false := by
  cases event with
  | connect uid name =>
      simp only [Rank.step] at stepped
      split at stepped <;> cases stepped
      have idle : (before.addConnection uid name).running = false := stopped
      unfold State.addPlayer
      simp only [idle, Bool.false_eq_true, if_false]
      exact ⟨⟨closed.committed, closed.unused, closed.returned⟩, stopped⟩
  | disconnect uid =>
      simp only [Rank.step] at stepped
      split at stepped <;> cases stepped
      unfold State.removePlayer
      simp only [stopped, Bool.false_eq_true, if_false]
      exact ⟨⟨closed.committed, closed.unused, closed.returned⟩, stopped⟩
  | frame answers rankDue publishDue =>
      simp only [Rank.step, stopped, Bool.false_eq_true, if_false] at stepped
      cases stepped
      exact ⟨closed, stopped⟩
  | endGame winTeam =>
      simp [Rank.step, stopped] at stepped
  | _ =>
      obtain ⟨same, calls⟩ := quiet_step settings (by trivial) stepped
      exact ⟨closed.congr same calls, same.running.trans stopped⟩

instance [DecidableEq Name] (settings : Settings Number) (state : State Uid Name Number)
    (event : Event Uid Name Number) : Decidable (Orderly settings state event) :=
  match event with
  | .frame answers _ publishDue =>
      inferInstanceAs (Decidable (publishDue = true → PublishesActivated answers state))
  | .endGame _ =>
      inferInstanceAs (Decidable (settings.ranked = true → state.west ++ state.east ≠ [] →
        state.realGameLength ≠ 0))
  | .connect _ _ | .disconnect _ | .agree _ | .setSide _ _ | .startClock | .kill _
  | .purchase _ _ | .deleteVehicle _ | .expire _ => .isTrue trivial

theorem kept_step [DecidableEq Name] (settings : Settings Number)
    {event : Event Uid Name Number} {before after : State Uid Name Number}
    (sound : Sound before) (kept : Kept before) (orderly : Orderly settings before event)
    (stepped : step settings before event = some after) : Kept after := by
  cases running : before.running with
  | false =>
      obtain ⟨closed, stopped⟩ := (kept.2 running).step settings running stepped
      exact ⟨fun started => absurd (stopped.symm.trans started) Bool.false_ne_true,
        fun _ => closed⟩
  | true =>
      by_cases ends : ∃ winTeam, event = .endGame winTeam
      · obtain ⟨winTeam, rfl⟩ := ends
        simp only [step, running, if_pos, Option.some.injEq] at stepped
        subst stepped
        refine ⟨fun started => ?_, fun _ =>
          (kept.1 running).endGame (sound running).1 settings winTeam orderly⟩
        rw [running_endGame] at started
        cases started
      · have notEnd : ∀ winTeam, event ≠ .endGame winTeam := by
          rintro winTeam rfl
          exact ends ⟨winTeam, rfl⟩
        have stillRunning := (running_step settings sound notEnd stepped).trans running
        refine ⟨fun _ => (kept.1 running).step settings sound running notEnd orderly stepped,
          fun stopped => ?_⟩
        rw [stillRunning] at stopped
        cases stopped

omit [Field Number] [LinearOrder Number] in
theorem Checked.calls_prefix {before after : State Uid Name Number}
    {answers : Handle → Option (Answer Number)} {index : ℕ} {entry : PendingRecord Uid Name}
    (checked : Checked answers index entry before after) : before.calls <+: after.calls := by
  cases checked with
  | waiting notReady => exact List.prefix_rfl
  | asked unanswered => exact List.prefix_append _ _
  | kicked answer session hasSide answered found => exact List.prefix_append _ _
  | enlisted answer session hasSide answered found =>
      unfold State.enlist
      split <;> exact List.prefix_append _ _

theorem calls_prefix_finishRecord (settings : Settings Number) (winTeam : Side) (uid : Uid)
    (state : State Uid Name Number) :
    state.calls <+: (state.finishRecord settings winTeam uid).state.calls := by
  let Longer (later : State Uid Name Number) : Prop := state.calls <+: later.calls
  unfold State.finishRecord
  refine Outcome.andThen_invariant Longer ?_ ?_
  · split
    · unfold State.rateRecord
      split
      · exact List.prefix_rfl
      · split <;> exact List.prefix_rfl
    · exact List.prefix_rfl
  · intro rated kept
    split
    · exact kept
    · exact kept.trans (List.prefix_append _ _)

theorem calls_prefix_endGame (settings : Settings Number) (winTeam : Side)
    (state : State Uid Name Number) :
    state.calls <+: (state.endGame settings winTeam).state.calls := by
  let Longer (later : State Uid Name Number) : Prop := state.calls <+: later.calls
  unfold State.endGame
  refine Outcome.andThen_invariant Longer ?_ ?_
  · refine forEach_invariant Longer ?_ List.prefix_rfl
    intro uid _ middle kept
    exact kept.trans (calls_prefix_finishRecord settings winTeam uid middle)
  · intro middle kept
    unfold State.commitActive
    split
    · exact kept
    · split
      · exact kept
      · exact kept.trans (List.prefix_append _ _)

theorem calls_prefix_frame {state : State Uid Name Number} (consistent : Consistent state)
    (complete : none ∉ state.pending) (settings : Settings Number)
    (answers : Handle → Option (Answer Number)) (rankDue publishDue : Bool) :
    state.calls <+: (state.frame settings answers rankDue publishDue).state.calls := by
  let Longer (later : State Uid Name Number) : Prop := state.calls <+: later.calls
  obtain ⟨checked, ended, -, -, longer, -⟩ :=
    consistent.checkPendings complete answers Longer
      (fun _ _ _ _ _ holds _ checked => holds.trans checked.calls_prefix)
      (fun _ holds => holds) List.prefix_rfl
  unfold State.frame
  rw [ended, Outcome.finished_andThen]
  refine Outcome.andThen_invariant Longer ?_ ?_
  · split
    · have same := samePublishing_accumulateRank settings checked
      exact longer.trans (same.calls ▸ List.prefix_rfl)
    · exact longer
  · intro ranked kept
    split
    · unfold publishRecords
      refine Outcome.andThen_invariant Longer ?_ fun _ holds => holds
      refine forEach_invariant Longer ?_ kept
      intro entry _ middle holds
      unfold publishEntry
      split
      · exact holds
      · exact holds.trans (List.prefix_append _ _)
    · exact kept

theorem calls_prefix_step [DecidableEq Name] (settings : Settings Number)
    {event : Event Uid Name Number} {before after : State Uid Name Number}
    (sound : Sound before) (stepped : step settings before event = some after) :
    before.calls <+: after.calls := by
  cases event with
  | connect uid name =>
      simp only [step] at stepped
      split at stepped <;> cases stepped
      unfold State.addPlayer
      split
      · simp only
        split
        · exact List.prefix_append _ _
        · exact List.prefix_append _ _
        · exact List.prefix_rfl
      · exact List.prefix_rfl
  | disconnect uid =>
      simp only [step] at stepped
      split at stepped <;> cases stepped
      next client present =>
        cases running : before.running with
        | true =>
            obtain ⟨session, -, ⟨entry, -, -, -, ended⟩ | ⟨-, ended⟩⟩ :=
              (sound running).1.removePlayer settings present running
            · rw [ended]
              exact List.prefix_append _ _
            · rw [ended]
              change before.calls <+: (before.leaveActivated settings uid session).calls
              rw [calls_leaveActivated]
              exact (List.prefix_append _ _).trans (List.prefix_append _ _)
        | false =>
            unfold State.removePlayer
            simp only [running, Bool.false_eq_true, if_false]
            exact List.prefix_rfl
  | frame answers rankDue publishDue =>
      simp only [step] at stepped
      split at stepped <;> cases stepped
      · next running =>
          obtain ⟨consistent, complete⟩ := sound running
          exact calls_prefix_frame consistent complete settings answers rankDue publishDue
      · exact List.prefix_rfl
  | endGame winTeam =>
      simp only [step] at stepped
      split at stepped <;> cases stepped
      exact calls_prefix_endGame settings winTeam before
  | _ => exact (quiet_step settings (by trivial) stepped).2 ▸ List.prefix_rfl

omit [DecidableEq Uid] [Field Number] [LinearOrder Number] in
theorem Kept.inOrder {state : State Uid Name Number} (kept : Kept state) (handle : Handle) :
    InOrder (trace state.calls handle) := by
  cases running : state.running with
  | true =>
      have journalled := kept.1 running
      cases known : state.accountName handle with
      | none => exact (journalled.unused handle known) ▸ asking_nil.opened.inOrder
      | some uid =>
          by_cases held : state.handleOf uid = some handle
          · exact (journalled.opened uid handle held).inOrder
          · exact (journalled.committed handle uid known held).inOrder
  | false =>
      have closed := kept.2 running
      cases known : state.accountName handle with
      | none => exact (closed.unused handle known) ▸ asking_nil.opened.inOrder
      | some uid => exact (closed.committed handle uid known).inOrder

/-- The player of a handle disconnects, or the game ends: the handle is committed. -/
theorem committed_step [DecidableEq Name] (settings : Settings Number)
    {event : Event Uid Name Number} {before after : State Uid Name Number}
    (soundBefore : Sound before) (sound : Sound after) (kept : Kept after)
    (running : before.running = true)
    (stepped : step settings before event = some after) {handle : Handle} {uid : Uid}
    {rejoin : Bool} (returned : .connect handle uid rejoin ∈ before.calls)
    (ends : event = .disconnect uid ∨ ∃ winTeam, event = .endGame winTeam) :
    Committed (trace after.calls handle) := by
  have stays : .connect handle uid rejoin ∈ after.calls :=
    (calls_prefix_step settings soundBefore stepped).subset returned
  rcases ends with rfl | ⟨winTeam, rfl⟩
  · have stillRunning := (running_step settings soundBefore (by simp) stepped).trans running
    have journalled := kept.1 stillRunning
    refine journalled.committed handle uid (journalled.returned handle uid rejoin stays) ?_
    have gone : after.clients uid = none := by
      simp only [step] at stepped
      split at stepped <;> cases stepped
      exact Function.update_self _ _ _
    intro held
    have connected := ((sound stillRunning).1.connected uid).mp (by simp [held])
    rw [gone] at connected
    cases connected
  · simp only [step, running, if_pos, Option.some.injEq] at stepped
    subst stepped
    have closed := kept.2 (running_endGame settings winTeam)
    exact closed.committed handle uid (closed.returned handle uid rejoin stays)

end State

open State

/-- In every run whose steps are orderly, the calls made with each handle follow
the protocol, and every handle whose player has disconnected while the match was
running, or that was returned before the game ended, has one `Commit`. -/
theorem session_protocol [DecidableEq Name] [Field Number] [LinearOrder Number]
    (settings : Settings Number)
    {events : List (Event Uid Name Number)} {finish : State Uid Name Number}
    (ran : run (step settings) State.initial events = some finish)
    (orderly : Along (step settings) (fun before event _ => Orderly settings before event)
      State.initial events) :
    (∀ handle, InOrder (trace finish.calls handle)) ∧
      ∀ first event last before, events = first ++ event :: last →
        run (step settings) State.initial first = some before → before.running = true →
        ∀ handle uid rejoin, .connect handle uid rejoin ∈ before.calls →
          (event = .disconnect uid ∨ ∃ winTeam, event = .endGame winTeam) →
          (trace finish.calls handle).count .commit = 1 := by
  let Inv (state : State Uid Name Number) : Prop := Sound state ∧ Kept state
  have keep : ∀ before event after, Inv before → Orderly settings before event →
      step settings before event = some after → Inv after := by
    rintro before event after ⟨sound, kept⟩ met stepped
    exact ⟨sound_step settings event sound stepped, kept_step settings sound kept met stepped⟩
  have initial : Inv State.initial := ⟨sound_initial, kept_initial⟩
  have inOrder : ∀ handle, InOrder (trace finish.calls handle) :=
    (run_invariant_of_along Inv keep initial orderly ran).2.inOrder
  refine ⟨inOrder, ?_⟩
  rintro first event last before rfl reached running handle uid rejoin returned ends
  obtain ⟨metFirst, metRest⟩ := along_append.mp orderly
  have invBefore := run_invariant_of_along Inv keep initial metFirst reached
  rw [run_append, reached, Option.bind_some, run_cons] at ran
  obtain ⟨after, stepped, rest⟩ := Option.bind_eq_some_iff.mp ran
  have met := metRest before reached after stepped
  have invAfter := keep before event after invBefore met.1 stepped
  have committed := committed_step settings invBefore.1 invAfter.1 invAfter.2 running stepped
    returned ends
  have longer : Sound finish ∧ after.calls <+: finish.calls := by
    let Longer (state : State Uid Name Number) : Prop :=
      Sound state ∧ after.calls <+: state.calls
    refine run_invariant Longer ?_ ⟨invAfter.1, List.prefix_rfl⟩ rest
    rintro state other next ⟨sound, kept⟩ nextStep
    exact ⟨sound_step settings other sound nextStep,
      kept.trans (calls_prefix_step settings sound nextStep)⟩
  obtain ⟨later, extended⟩ := longer.2
  have atMost := (inOrder handle).count_commit_le
  rw [← extended, trace_append, List.count_append, committed.count_commit] at atMost ⊢
  omega

section Runs

/-- Two players connect; one is activated, gets points and a kill, and is rated at
the end, the other leaves while his record is pending. -/
def wonMatch : List (Event ℕ ℕ ℚ) :=
  [.connect 7 0, .connect 8 1, .agree 1, .setSide 7 .west, .frame answerAll false false,
    .startClock, .frame answerAll true false, .kill 7, .frame answerAll false true,
    .disconnect 8, .endGame .west]

theorem session_protocol_wonMatch :
    ∃ finish, run (step plainSettings) State.initial wonMatch = some finish ∧
      (∀ handle, InOrder (trace finish.calls handle)) ∧
      trace finish.calls 2 = [.getOutput, .publishAccount, .publishAccount, .commit] ∧
      (trace finish.calls 4).count .commit = 1 := by
  have traced : (run (step plainSettings) State.initial wonMatch).map
      (fun finish => trace finish.calls 2) =
        some [.getOutput, .publishAccount, .publishAccount, .commit] := by
    decide +kernel
  obtain ⟨finish, ran, calls⟩ := Option.map_eq_some_iff.mp traced
  have orderly : Along (step plainSettings)
      (fun before event _ => Orderly plainSettings before event) State.initial wonMatch := by
    decide +kernel
  obtain ⟨inOrder, committed⟩ := session_protocol plainSettings ran orderly
  have reached : ((run (step plainSettings) State.initial (wonMatch.take 9)).map
      fun before => (before.running, decide (.connect 4 8 false ∈ before.calls))) =
        some (true, true) := by
    decide +kernel
  obtain ⟨before, ranFirst, holds⟩ := Option.map_eq_some_iff.mp reached
  obtain ⟨running, returned⟩ := Prod.mk.inj holds
  exact ⟨finish, ran, inOrder, calls,
    committed (wonMatch.take 9) (.disconnect 8) [.endGame .west] before rfl ranFirst running
      4 8 false (of_decide_eq_true returned) (Or.inl rfl)⟩

/-- A player is activated, is credited with two kills before the list is published,
leaves and comes back; the list is published before his record is activated again. -/
def staleEntry : List (Event ℕ ℕ ℚ) :=
  [.connect 7 0, .agree 1, .setSide 7 .west, .frame answerAll false false, .kill 7, .kill 7,
    .disconnect 7, .connect 7 0, .frame answerAll false true, .agree 2, .setSide 7 .west,
    .frame answerAll false false]

theorem session_protocol_stale :
    ∃ finish, run (step plainSettings) State.initial staleEntry = some finish ∧
      ¬ InOrder (trace finish.calls 4) := by
  have traced : (run (step plainSettings) State.initial staleEntry).map
      (fun finish => trace finish.calls 4) = some [.publishAccount, .getOutput] := by
    decide +kernel
  obtain ⟨finish, ran, calls⟩ := Option.map_eq_some_iff.mp traced
  refine ⟨finish, ran, fun inOrder => ?_⟩
  rw [calls] at inOrder
  exact absurd inOrder.pairwise (by decide)

end Runs

end OperationFrontLine.Rank
