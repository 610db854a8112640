import Mathlib
import OperationFrontLine.Rank.Steps

/-!
# Points, ranks and levels in exact arithmetic

Over the reals a second on a side is worth between 1 and √2 points, because the
average rank of the side is between 1 and 8.  So a player's points never exceed
√2 times the length of the game, what `EndGame` computes from them is between 0
and 100, and the update keeps rank and level in range and moves the standing the
right way.
-/

namespace OperationFrontLine.Rank

open OperationFrontLine.Library

/-- The functions of the engine in exact arithmetic. -/
noncomputable def realEngine : Engine ℝ where
  sqrt := Real.sqrt
  exp := Real.exp
  round x := (round x : ℤ)

namespace Account

/-- The numeral of the levels that a rank takes. -/
instance atLeastTwo_thousand : Nat.AtLeastTwo 1000 := ⟨by decide⟩

def InRange (account : Account ℝ) : Prop :=
  (∃ rank : ℕ, (1 ≤ rank ∧ rank ≤ 8) ∧ account.rank = rank) ∧
    0 ≤ account.level ∧ account.level ≤ 1000

def standing (account : Account ℝ) : ℝ :=
  1000 * account.rank + account.level

variable {account : Account ℝ} {points : ℝ}

theorem InRange.rank_bounds (inRange : account.InRange) :
    1 ≤ account.rank ∧ account.rank ≤ 8 := by
  obtain ⟨⟨rank, ⟨low, high⟩, isRank⟩, -⟩ := inRange
  rw [isRank]
  exact ⟨by exact_mod_cast low, by exact_mod_cast high⟩

theorem InRange.congr {other : Account ℝ} (inRange : account.InRange)
    (rank : other.rank = account.rank) (level : other.level = account.level) :
    other.InRange := by
  unfold InRange at inRange ⊢
  rwa [rank, level]

theorem win_inRange (inRange : account.InRange) (low : 0 ≤ points) :
    (account.win points).InRange := by
  obtain ⟨⟨rank, ⟨lowRank, highRank⟩, isRank⟩, lowLevel, highLevel⟩ := inRange
  by_cases below : account.level + points < 1000
  · refine ⟨⟨rank, ⟨lowRank, highRank⟩, ?_⟩, ?_, ?_⟩ <;> simp only [win, if_pos below]
    · simp [below, isRank]
    · linarith
    · exact below.le
  · by_cases top : account.rank = 8
    · refine ⟨⟨rank, ⟨lowRank, highRank⟩, ?_⟩, ?_, ?_⟩ <;>
        simp only [win, if_neg below, if_pos top]
      · simp [top, ← isRank]
      · norm_num
      · exact le_rfl
    · have different : rank ≠ 8 := by
        rintro rfl
        exact top (by rw [isRank]; norm_num)
      refine ⟨⟨rank + 1, ⟨by omega, by omega⟩, ?_⟩, ?_, ?_⟩ <;>
        simp only [win, if_neg below, if_neg top]
      · simp only [below, top, or_self, if_false]
        rw [isRank, Nat.cast_add, Nat.cast_one]
      · exact le_rfl
      · norm_num

theorem standing_le_win (inRange : account.InRange) (low : 0 ≤ points) :
    account.standing ≤ (account.win points).standing := by
  obtain ⟨-, lowLevel, highLevel⟩ := inRange
  unfold standing
  by_cases below : account.level + points < 1000
  · simp only [win, below, true_or, if_true]
    linarith
  · by_cases top : account.rank = 8
    · simp only [win, below, top, or_true, if_true, if_false]
      linarith
    · simp only [win, below, top, or_self, if_false]
      linarith

theorem lose_inRange (inRange : account.InRange) (high : points ≤ 200) :
    (account.lose points).InRange := by
  obtain ⟨⟨rank, ⟨lowRank, highRank⟩, isRank⟩, lowLevel, highLevel⟩ := inRange
  by_cases above : 0 < account.level - (200 - points)
  · refine ⟨⟨rank, ⟨lowRank, highRank⟩, ?_⟩, ?_, ?_⟩ <;> simp only [lose, if_pos above]
    · simp only [above, true_or, if_true, isRank]
    · exact above.le
    · linarith
  · by_cases bottom : account.rank < 2
    · refine ⟨⟨rank, ⟨lowRank, highRank⟩, ?_⟩, ?_, ?_⟩ <;>
        simp only [lose, if_neg above, if_pos bottom]
      · simp only [bottom, or_true, if_true]
        exact isRank
      · exact le_rfl
      · norm_num
    · have large : 2 ≤ rank := by
        rw [isRank, not_lt] at bottom
        exact_mod_cast bottom
      refine ⟨⟨rank - 1, ⟨by omega, by omega⟩, ?_⟩, ?_, ?_⟩ <;>
        simp only [lose, if_neg above, if_neg bottom]
      · simp only [above, bottom, or_self, if_false]
        rw [isRank, Nat.cast_sub (by omega), Nat.cast_one]
      · norm_num
      · exact le_rfl

theorem lose_standing_le (inRange : account.InRange) (high : points ≤ 200) :
    (account.lose points).standing ≤ account.standing := by
  obtain ⟨-, lowLevel, highLevel⟩ := inRange
  unfold standing
  by_cases above : 0 < account.level - (200 - points)
  · simp only [lose, above, true_or, if_true]
    linarith
  · by_cases bottom : account.rank < 2
    · simp only [lose, above, bottom, or_true, if_true, if_false]
      linarith
    · simp only [lose, above, bottom, or_self, if_false]
      linarith

theorem afterMatch_fair (inRange : account.InRange) (low : 0 ≤ points) (high : points ≤ 100)
    (winTeam : Side) (side : Option Side) :
    (account.afterMatch points winTeam side).InRange ∧
      (winTeam = .independent ∨ side = some winTeam →
        account.standing ≤ (account.afterMatch points winTeam side).standing) ∧
      (winTeam ≠ .independent → side ≠ some winTeam →
        (account.afterMatch points winTeam side).standing ≤ account.standing) := by
  unfold afterMatch
  by_cases noWinner : winTeam = .independent
  · rw [if_pos noWinner]
    refine ⟨(win_inRange inRange low).congr rfl rfl, fun _ => standing_le_win inRange low, ?_⟩
    exact fun winner => absurd noWinner winner
  · rw [if_neg noWinner]
    cases side with
    | none =>
        refine ⟨inRange, ?_, fun _ _ => le_rfl⟩
        rintro (same | same)
        · exact absurd same noWinner
        · cases same
    | some side =>
        by_cases won : side = winTeam
        · simp only [if_pos won]
          refine ⟨win_inRange inRange low, fun _ => standing_le_win inRange low, ?_⟩
          exact fun _ lost => absurd (congrArg some won) lost
        · simp only [if_neg won]
          refine ⟨lose_inRange inRange (by linarith), ?_, ?_⟩
          · rintro (same | same)
            · exact absurd same noWinner
            · exact absurd (Option.some.inj same) won
          · exact fun _ _ => lose_standing_le inRange (by linarith)

end Account

/-- Points up to √2 for each second make at most 100 at the end of the game. -/
theorem matchPoints_bounds {points : ℝ} {length : ℕ} (low : 0 ≤ points)
    (high : points ≤ √2 * length) (positive : length ≠ 0) :
    0 ≤ matchPoints realEngine points length ∧ matchPoints realEngine points length ≤ 100 := by
  have lengthPos : (0 : ℝ) < length := Nat.cast_pos.mpr (Nat.pos_of_ne_zero positive)
  have rootPos : (0 : ℝ) < √2 := Real.sqrt_pos.mpr two_pos
  have divisorPos : 0 < √2 * length := mul_pos rootPos lengthPos
  have ratioLow : 0 ≤ points * 100 / (√2 * length) :=
    div_nonneg (mul_nonneg low (by norm_num)) divisorPos.le
  have ratioHigh : points * 100 / (√2 * length) ≤ 100 := by
    rw [div_le_iff₀ divisorPos]
    linarith
  unfold matchPoints realEngine
  simp only
  rw [round_eq]
  constructor
  · exact_mod_cast Int.floor_nonneg.mpr (by linarith)
  · have floored : ⌊points * 100 / (√2 * length) + 1 / 2⌋ ≤ 100 :=
      Int.floor_le_iff.mpr (by push_cast; linarith)
    exact_mod_cast floored

/-- A second on a side of average rank between 1 and 8 is worth 1 to √2 points:
with the enemy's numbers overwritten by 1, a side of at least one player is never
outnumbered. -/
theorem accumulatedPoints_bounds {friendRank friendPlayers : ℝ} (low : 1 ≤ friendRank)
    (high : friendRank ≤ 8) (players : 1 ≤ friendPlayers) :
    1 ≤ accumulatedPoints realEngine friendRank (1 / 1) friendPlayers 1 ∧
      accumulatedPoints realEngine friendRank (1 / 1) friendPlayers 1 ≤ √2 := by
  have notOutnumbered : ¬ 0 < 1 - friendPlayers := by linarith
  unfold accumulatedPoints realEngine
  simp only [notOutnumbered, if_false]
  constructor
  · rw [Real.one_le_sqrt]
    have square := sq_nonneg (1 / 1 - friendRank + 7)
    linarith
  · refine Real.sqrt_le_sqrt ?_
    have square : (1 / 1 - friendRank + 7) ^ 2 ≤ 7 ^ 2 := by
      refine pow_le_pow_left₀ ?_ ?_ 2 <;> linarith
    linarith

namespace State

variable {Uid Name : Type}

def pointsOf (state : State Uid Name ℝ) (uid : Uid) : Option ℝ :=
  (state.records uid).map fun slot =>
    match slot with
    | .session session => session.points
    | .points value => value

theorem pointsOf_session {state : State Uid Name ℝ} {uid : Uid} {session : Session Uid ℝ}
    (found : state.session? uid = some session) : state.pointsOf uid = some session.points := by
  rw [pointsOf, session?_eq_some_iff.mp found]
  rfl

theorem pointsOf_congr {before after : State Uid Name ℝ}
    (records : after.records = before.records) : after.pointsOf = before.pointsOf := by
  funext uid
  rw [pointsOf, pointsOf, records]

theorem rankTotal_bounds {state : State Uid Name ℝ} {uids : List Uid}
    (inRange : ∀ uid ∈ uids, ∃ session, state.session? uid = some session ∧
      session.record.account.InRange) :
    ∃ total, state.rankTotal uids = some total ∧
      (uids.length : ℝ) ≤ total ∧ total ≤ 8 * uids.length := by
  induction uids with
  | nil => exact ⟨0, rfl, by simp, by simp⟩
  | cons uid rest inductionHypothesis =>
      obtain ⟨session, found, here⟩ := inRange uid (by simp)
      obtain ⟨total, summed, low, high⟩ :=
        inductionHypothesis fun other member => inRange other (by simp [member])
      obtain ⟨sessions, collected, isTotal⟩ := Option.map_eq_some_iff.mp summed
      obtain ⟨lowRank, highRank⟩ := here.rank_bounds
      refine ⟨session.record.account.rank + total, ?_, ?_, ?_⟩
      · rw [rankTotal, List.mapM_cons, found, collected, ← isTotal]
        rfl
      · push_cast [List.length_cons]
        linarith
      · push_cast [List.length_cons]
        linarith

theorem pointAccumulator_bounds {state : State Uid Name ℝ} {friendRecords enemyRecords : List Uid}
    (inRange : ∀ uid ∈ friendRecords ++ enemyRecords, ∃ session,
      state.session? uid = some session ∧ session.record.account.InRange)
    (players : friendRecords ≠ []) :
    ∃ points, state.pointAccumulator realEngine friendRecords enemyRecords = some points ∧
      1 ≤ points ∧ points ≤ √2 := by
  obtain ⟨friendTotal, friends, low, high⟩ := rankTotal_bounds fun uid member =>
    inRange uid (List.mem_append_left _ member)
  obtain ⟨enemyTotal, enemies, -, -⟩ := rankTotal_bounds fun uid member =>
    inRange uid (List.mem_append_right _ member)
  have atLeastOne : 1 ≤ friendRecords.length := List.length_pos_iff.mpr players
  have atLeastOneReal : (1 : ℝ) ≤ friendRecords.length := by exact_mod_cast atLeastOne
  have positive : (0 : ℝ) < friendRecords.length := by linarith
  refine ⟨accumulatedPoints realEngine (friendTotal / friendRecords.length) (1 / 1)
    friendRecords.length 1, ?_, accumulatedPoints_bounds ?_ ?_ atLeastOneReal⟩
  · have notEmpty : ¬ friendRecords.length < 1 := by omega
    simp only [pointAccumulator, friends, enemies, if_neg notEmpty]
  · rw [le_div_iff₀ positive]
    linarith
  · rw [div_le_iff₀ positive]
    linarith

variable [DecidableEq Uid]

theorem pointsOf_setSlot_session (state : State Uid Name ℝ) (uid other : Uid)
    (session : Session Uid ℝ) :
    (state.setSlot uid (.session session)).pointsOf other =
      if other = uid then some session.points else state.pointsOf other := by
  rw [pointsOf, pointsOf, setSlot]
  simp only [Function.update_apply]
  split_ifs <;> rfl

theorem pointsOf_setSlot_points (state : State Uid Name ℝ) (uid other : Uid) (value : ℝ) :
    (state.setSlot uid (.points value)).pointsOf other =
      if other = uid then some value else state.pointsOf other := by
  rw [pointsOf, pointsOf, setSlot]
  simp only [Function.update_apply]
  split_ifs <;> rfl

/-- Every player of a list is credited once, and nothing else is changed. -/
structure Credited (points : ℝ) (uids : List Uid) (before after : State Uid Name ℝ) : Prop where
  records : ∀ uid, after.records uid = if uid ∈ uids then
      (before.session? uid).map fun session =>
        .session { session with points := session.points + points }
    else before.records uid
  rebuilt : after = { before with records := after.records }

theorem Credited.session? {points : ℝ} {uids : List Uid} {before after : State Uid Name ℝ}
    (credited : Credited points uids before after) (uid : Uid) :
    after.session? uid = (before.session? uid).map fun session =>
      if uid ∈ uids then { session with points := session.points + points } else session := by
  have here := credited.records uid
  split_ifs at here with listed
  · rw [State.session?, here]
    cases before.session? uid <;> simp [listed]
  · rw [State.session?, here, ← State.session?]
    simp [listed]

theorem Credited.pointsOf {points : ℝ} {uids : List Uid} {before after : State Uid Name ℝ}
    (credited : Credited points uids before after) {uid : Uid} {value : ℝ}
    (isValue : after.pointsOf uid = some value) :
    ∃ had, before.pointsOf uid = some had ∧
      value = if uid ∈ uids then had + points else had := by
  rw [State.pointsOf, credited.records uid] at isValue
  split_ifs at isValue with listed
  · rw [Option.map_map, Option.map_eq_some_iff] at isValue
    obtain ⟨session, found, rfl⟩ := isValue
    exact ⟨session.points, pointsOf_session found, (if_pos listed).symm⟩
  · exact ⟨value, isValue, (if_neg listed).symm⟩

theorem forEach_credit (points : ℝ) {uids : List Uid} (distinct : uids.Nodup)
    {state : State Uid Name ℝ} (have_session : ∀ uid ∈ uids, (state.session? uid).isSome) :
    ∃ after, forEach (credit points) uids state = .finished after ∧
      Credited points uids state after := by
  induction uids generalizing state with
  | nil => exact ⟨state, rfl, by simp, rfl⟩
  | cons uid rest inductionHypothesis =>
      obtain ⟨notInRest, restDistinct⟩ := List.nodup_cons.mp distinct
      obtain ⟨session, found⟩ := Option.isSome_iff_exists.mp (have_session uid (by simp))
      let credited := state.setSlot uid
        (.session { session with points := session.points + points })
      have ended : state.credit points uid = .finished credited := by
        simp only [credit, found]
        rfl
      have elsewhere : ∀ other, other ≠ uid → credited.records other = state.records other := by
        intro other different
        exact Function.update_of_ne different _ _
      have sameSession : ∀ other, other ≠ uid →
          credited.session? other = state.session? other := by
        intro other different
        rw [session?, session?, elsewhere other different]
      have restSessions : ∀ other ∈ rest, (credited.session? other).isSome := by
        intro other member
        have different : other ≠ uid := fun same => notInRest (same ▸ member)
        rw [sameSession other different]
        exact have_session other (by simp [member])
      obtain ⟨after, ran, records, rebuilt⟩ := inductionHypothesis restDistinct restSessions
      refine ⟨after, ?_, ⟨?_, rebuilt⟩⟩
      · rw [forEach_cons, ended, Outcome.finished_andThen, ran]
      · intro other
        rw [records other]
        by_cases same : other = uid
        · subst same
          rw [if_neg notInRest, if_pos (by simp), found]
          exact Function.update_self _ _ _
        · rw [elsewhere other same, sameSession other same]
          simp [same]

theorem creditSide_spec {state : State Uid Name ℝ} {friendRecords enemyRecords : List Uid}
    (distinct : friendRecords.Nodup)
    (inRange : ∀ uid ∈ friendRecords ++ enemyRecords, ∃ session,
      state.session? uid = some session ∧ session.record.account.InRange) :
    ∃ points after, 0 ≤ points ∧ points ≤ √2 ∧
      state.creditSide realEngine friendRecords enemyRecords = .finished after ∧
      Credited points friendRecords state after := by
  have sessions : ∀ uid ∈ friendRecords, (state.session? uid).isSome := by
    intro uid member
    obtain ⟨session, found, -⟩ := inRange uid (List.mem_append_left _ member)
    simp [found]
  unfold creditSide
  by_cases nobody : friendRecords = []
  · subst nobody
    exact ⟨0, state, le_rfl, Real.sqrt_nonneg 2, rfl, ⟨by simp, rfl⟩⟩
  · obtain ⟨points, accumulated, low, high⟩ := pointAccumulator_bounds inRange nobody
    obtain ⟨after, ran, credited⟩ := forEach_credit points distinct sessions
    refine ⟨points, after, by linarith, high, ?_, credited⟩
    rw [accumulated]
    exact ran

end State

end OperationFrontLine.Rank
