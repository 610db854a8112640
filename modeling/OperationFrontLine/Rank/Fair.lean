import OperationFrontLine.Rank.Points

/-!
# Fair matches

The invariant that bounds points, ranks and levels during a match: points are at
most √2 times the length of the game, every activated record is in range, and so
is everything that was published.  It holds as long as the publishing loop never
comes to a record that is not activated.
-/

namespace OperationFrontLine.Rank

open OperationFrontLine.Library

variable {Uid Name : Type}

namespace State

structure Fair (state : State Uid Name ℝ) : Prop where
  bounded : ∀ uid points, state.pointsOf uid = some points →
    0 ≤ points ∧ points ≤ √2 * state.realGameLength
  inRange : ∀ uid session, state.session? uid = some session → state.Activated uid →
    session.record.account.InRange
  published : ∀ handle record, .publishAccount handle record ∈ state.calls →
    record.account.InRange

namespace Fair

variable {before after : State Uid Name ℝ}

theorem initial : Fair (State.initial : State Uid Name ℝ) where
  bounded uid points found := by simp [State.initial, pointsOf] at found
  inRange uid session found := by simp [State.initial, session?] at found
  published handle record member := by simp [State.initial] at member

theorem congr (fair : Fair before) (records : after.records = before.records)
    (pending : after.pending = before.pending) (calls : after.calls = before.calls)
    (length : after.realGameLength = before.realGameLength) : Fair after where
  bounded uid points found := by
    rw [pointsOf, records] at found
    rw [length]
    exact fair.bounded uid points found
  inRange uid session found activated := by
    rw [session?, records] at found
    rw [Activated, pending] at activated
    exact fair.inRange uid session found activated
  published := by simpa only [calls] using fair.published

theorem call (fair : Fair before) {made : ExtensionCall Uid ℝ}
    (inRange : ∀ handle record, made = .publishAccount handle record →
      record.account.InRange) : Fair (before.call made) where
  bounded := fair.bounded
  inRange := fair.inRange
  published handle record member := by
    rcases List.mem_append.mp member with old | new
    · exact fair.published handle record old
    · exact inRange handle record (List.mem_singleton.mp new).symm

theorem publishAccount (fair : Fair before) {uid : Uid} {session : Session Uid ℝ}
    (found : before.session? uid = some session) (activated : before.Activated uid) :
    Fair (before.call (.publishAccount session.handle session.record)) := by
  refine fair.call ?_
  rintro _ _ ⟨⟩
  exact fair.inRange uid session found activated

variable [DecidableEq Uid]

/-- A record is changed in place, and stays in range if it is activated. -/
theorem setAccount (fair : Fair before) {uid : Uid} {session : Session Uid ℝ}
    (found : before.session? uid = some session) {account : Account ℝ}
    (inRange : before.Activated uid → account.InRange) :
    Fair (before.setSlot uid (.session (session.withAccount account))) where
  bounded other points isPoints := by
    rw [pointsOf_setSlot_session] at isPoints
    split_ifs at isPoints with same
    · cases isPoints
      exact fair.bounded uid session.points (pointsOf_session found)
    · exact fair.bounded other points isPoints
  inRange other holder isHolder activated := by
    rw [session?_setSlot_session] at isHolder
    split_ifs at isHolder with same
    · cases isHolder
      exact inRange (same ▸ activated)
    · exact fair.inRange other holder isHolder activated
  published := fair.published

/-- A player joins with a new handle, and with points he had before if any. -/
theorem connect (fair : Fair before) {uid : Uid} {name : Name} {rejoin : Bool} {points : ℝ}
    (had : points = 0 ∨ before.records uid = some (.points points)) :
    Fair (State.connect
      { before.addConnection uid name with lastThread := before.lastThread + 2 }
      uid name rejoin points) := by
  have hasBound : 0 ≤ points ∧ points ≤ √2 * before.realGameLength := by
    rcases had with rfl | left
    · exact ⟨le_rfl, mul_nonneg (Real.sqrt_nonneg 2) (Nat.cast_nonneg _)⟩
    · exact fair.bounded uid points (by rw [pointsOf, left]; rfl)
  have records : (State.connect
      { before.addConnection uid name with lastThread := before.lastThread + 2 }
      uid name rejoin points).records = (before.setSlot uid
        (.session ⟨⟨uid, emptyAccount⟩, before.lastThread + 2, points⟩)).records := rfl
  constructor
  · intro other value isValue
    rw [pointsOf_congr records, pointsOf_setSlot_session] at isValue
    split_ifs at isValue with same
    · cases isValue
      exact hasBound
    · exact fair.bounded other value isValue
  · intro other session found activated
    have different : other ≠ uid := by
      rintro rfl
      exact activated _ (List.mem_append_right _ (List.mem_singleton.mpr rfl)) _ rfl rfl
    refine fair.inRange other session ?_ fun slot member =>
      activated slot (List.mem_append_left _ member)
    rwa [session?_congr records, session?_setSlot_session, if_neg different] at found
  · intro handle record member
    rcases List.mem_append.mp member with old | new
    · exact fair.published handle record old
    · cases List.mem_singleton.mp new

theorem leave (fair : Fair before) {uid : Uid} {session : Session Uid ℝ} {punished : Bool}
    (found : before.session? uid = some session)
    (records : after.records = (before.setSlot uid (.points session.points)).records)
    (others : ∀ other, other ≠ uid → after.Activated other → before.Activated other)
    (calls : after.calls = before.calls ++ [.commit [(session.handle, punished)]])
    (length : after.realGameLength = before.realGameLength) : Fair after where
  bounded other points isPoints := by
    rw [pointsOf_congr records, pointsOf_setSlot_points] at isPoints
    rw [length]
    split_ifs at isPoints with same
    · cases isPoints
      exact fair.bounded uid session.points (pointsOf_session found)
    · exact fair.bounded other points isPoints
  inRange other holder isHolder activated := by
    rw [session?_congr records, session?_setSlot_points] at isHolder
    split_ifs at isHolder with same
    exact fair.inRange other holder isHolder (others other same activated)
  published handle record member := by
    rw [calls] at member
    rcases List.mem_append.mp member with old | new
    · exact fair.published handle record old
    · cases List.mem_singleton.mp new

theorem disconnect [DecidableEq Name] (fair : Fair before) (consistent : Consistent before)
    (settings : Settings ℝ) {uid : Uid} {client : Client Name}
    (present : before.clients uid = some client) (running : before.running = true) :
    Fair ((before.removePlayer settings uid client.name).state.removeConnection uid client) := by
  obtain ⟨session, found, ⟨entry, member, rfl, -, ended⟩ | ⟨notPending, ended⟩⟩ :=
    consistent.removePlayer settings present running
  · rw [ended, Outcome.state_finished]
    refine fair.leave found rfl ?_ rfl rfl
    rintro other different activated slot inPending other rfl sameUid
    refine activated _ ?_ other rfl sameUid
    refine (consistent.pending_distinct.mem_erase member).mpr ⟨inPending, ?_⟩
    exact fun same => different (sameUid.symm.trans same)
  · rw [ended, Outcome.state_finished]
    have published := fair.publishAccount found (by
      rintro slot inPending entry rfl
      exact notPending entry inPending)
    have same := sameRoster_retireRecord (before.unlist uid) uid session
    have records : ((before.unlist uid).retireRecord uid session).records = before.records ∧
        ((before.unlist uid).retireRecord uid session).realGameLength =
          before.realGameLength ∧
        ((before.unlist uid).retireRecord uid session).calls =
          (before.call (.publishAccount session.handle session.record)).calls := by
      unfold retireRecord
      simp only
      split <;> exact ⟨rfl, rfl, rfl⟩
    obtain ⟨sameRecords, sameLength, sameCalls⟩ := records
    refine published.leave found ?_ ?_ (congrArg (· ++ _) sameCalls) sameLength
    · exact congrArg (Function.update · uid (some (.points session.points))) sameRecords
    · intro other _ activated slot inPending
      exact activated slot (same.pending.symm ▸ inPending)

theorem activated (fair : Fair before) (consistent : Consistent before) {index : ℕ}
    {entry : PendingRecord Uid Name} (here : before.pending[index]? = some (some entry))
    {answer : Answer ℝ} (answerInRange : answer.account.InRange) {session : Session Uid ℝ}
    (found : before.session? entry.uid = some session) :
    Fair ((before.call (.getOutput entry.handle (some answer))).activated index entry answer
      session) := by
  have remaining : ∀ other, some other ∈ before.pending.set index none ↔
      some other ∈ before.pending ∧ other.uid ≠ entry.uid := fun other =>
    consistent.pending_distinct.mem_set here
  constructor
  · intro other points isPoints
    rw [State.activated, pointsOf_setSlot_session] at isPoints
    split_ifs at isPoints with same
    · cases isPoints
      exact fair.bounded entry.uid session.points (pointsOf_session found)
    · exact fair.bounded other points isPoints
  · intro other holder isHolder activated
    rw [State.activated, session?_setSlot_session] at isHolder
    split_ifs at isHolder with same
    · cases isHolder
      exact answerInRange
    · refine fair.inRange other holder isHolder ?_
      rintro slot inPending stays rfl sameUid
      refine activated _ ((remaining stays).mpr ⟨inPending, ?_⟩) stays rfl sameUid
      rw [sameUid]
      exact same
  · intro handle record member
    rcases List.mem_append.mp member with old | new
    · exact fair.published handle record old
    · cases List.mem_singleton.mp new

theorem checked (fair : Fair before) (consistent : Consistent before)
    {answers : Handle → Option (Answer ℝ)} {index : ℕ} {entry : PendingRecord Uid Name}
    (here : before.pending[index]? = some (some entry))
    (inRange : ∀ answer, answers entry.handle = some answer → answer.account.InRange)
    (checked : Checked answers index entry before after) : Fair after := by
  cases checked with
  | waiting notReady => exact fair
  | asked unanswered =>
      refine fair.call ?_
      rintro _ _ ⟨⟩
  | kicked answer session hasSide answered found =>
      exact fair.activated consistent here (inRange answer answered) found
  | enlisted answer session hasSide answered found =>
      have activated := fair.activated consistent here (inRange answer answered) found
      unfold State.enlist
      split <;> exact activated.congr rfl rfl rfl rfl

omit [DecidableEq Uid] in
theorem sides_inRange (fair : Fair before) (consistent : Consistent before) :
    ∀ uid ∈ before.west ++ before.east, ∃ session, before.session? uid = some session ∧
      session.record.account.InRange := by
  intro uid member
  obtain ⟨hasHandle, notPending⟩ := consistent.enlisted uid member
  obtain ⟨session, found⟩ := Option.isSome_iff_exists.mp (handleOf_isSome.mp hasHandle)
  refine ⟨session, found, fair.inRange uid session found ?_⟩
  rintro slot inPending entry rfl
  exact notPending entry inPending

/-- A second of the clock: every player of a side is credited once, with at most √2. -/
theorem accumulateRank (fair : Fair before) (consistent : Consistent before)
    {settings : Settings ℝ} (exact_engine : settings.engine = realEngine) :
    Fair (before.accumulateRank settings).state := by
  unfold State.accumulateRank
  split
  · let ticked := { before with realGameLength := before.realGameLength + 1 }
    obtain ⟨westDistinct, eastDistinct, apart⟩ := List.nodup_append'.mp consistent.sides_nodup
    have inRange := fair.sides_inRange consistent
    obtain ⟨westPoints, middle, westLow, westHigh, westEnded, westCredited⟩ :=
      @creditSide_spec Uid Name _ ticked _ _ westDistinct inRange
    have sameLists : middle.west = before.west ∧ middle.east = before.east := by
      rw [westCredited.rebuilt]
      exact ⟨rfl, rfl⟩
    have eastInRange : ∀ uid ∈ middle.east ++ middle.west, ∃ session,
        middle.session? uid = some session ∧ session.record.account.InRange := by
      intro uid member
      rw [sameLists.1, sameLists.2, List.mem_append, or_comm, ← List.mem_append] at member
      obtain ⟨session, found, here⟩ := inRange uid member
      refine ⟨_, by rw [westCredited.session? uid,
        show ticked.session? uid = some session from found, Option.map_some], ?_⟩
      split <;> exact here
    obtain ⟨eastPoints, after, eastLow, eastHigh, eastEnded, eastCredited⟩ :=
      creditSide_spec (sameLists.2 ▸ eastDistinct) eastInRange
    have rebuilt : after = { ticked with records := after.records } := by
      rw [eastCredited.rebuilt, westCredited.rebuilt]
    rw [exact_engine]
    change Fair (((ticked.creditSide realEngine ticked.west ticked.east).andThen
      fun credited => credited.creditSide realEngine credited.east credited.west).state)
    rw [show ticked.creditSide realEngine ticked.west ticked.east = _ from westEnded,
      Outcome.finished_andThen, eastEnded, Outcome.state_finished]
    constructor
    · intro uid points isPoints
      obtain ⟨second, hadSecond, rfl⟩ := eastCredited.pointsOf isPoints
      obtain ⟨first, hadFirst, rfl⟩ := westCredited.pointsOf hadSecond
      obtain ⟨low, high⟩ := fair.bounded uid first hadFirst
      have length : after.realGameLength = before.realGameLength + 1 := by rw [rebuilt]
      rw [length, Nat.cast_add, Nat.cast_one, mul_add, mul_one]
      have root := Real.sqrt_nonneg 2
      split_ifs with inEast inWest inWest
      · exact absurd (sameLists.2 ▸ inEast) (fun listed => apart inWest listed)
      · constructor <;> linarith
      · constructor <;> linarith
      · constructor <;> linarith
    · intro uid session found activated
      rw [eastCredited.session? uid, westCredited.session? uid, Option.map_map,
        Option.map_eq_some_iff] at found
      obtain ⟨first, had, rfl⟩ := found
      have here := fair.inRange uid first had (by
        rw [rebuilt] at activated
        exact activated)
      simp only [Function.comp_apply]
      split_ifs <;> exact here
    · rw [rebuilt]
      exact fair.published
  · exact fair

theorem frame (fair : Fair before) (consistent : Consistent before)
    (complete : none ∉ before.pending) {settings : Settings ℝ}
    (exact_engine : settings.engine = realEngine) {answers : Handle → Option (Answer ℝ)}
    (inRange : ∀ entry, some entry ∈ before.pending → ∀ answer,
      answers entry.handle = some answer → answer.account.InRange)
    {rankDue publishDue : Bool}
    (orderly : publishDue = true → PublishesActivated answers before) :
    Fair (before.frame settings answers rankDue publishDue).state := by
  refine consistent.frame complete settings answers rankDue publishDue orderly Fair
    ?checked ?swept ?accumulated ?published ?cleared fair
  case checked =>
    intro index entry middle after agrees holds member here checked
    exact holds.checked agrees here (inRange entry member) checked
  case swept =>
    intro middle holds
    refine ⟨holds.bounded, ?_, holds.published⟩
    intro uid session found activated
    refine holds.inRange uid session found ?_
    rintro slot member entry rfl
    exact activated _ (List.mem_filter.mpr ⟨member, rfl⟩) entry rfl
  case accumulated =>
    intro middle agrees holds
    exact holds.accumulateRank agrees exact_engine
  case published =>
    intro middle uid session _ holds found activated
    exact (holds.publishAccount found activated).congr rfl rfl rfl rfl
  case cleared =>
    intro middle holds
    exact holds.congr rfl rfl rfl rfl

end Fair

end State

end OperationFrontLine.Rank
