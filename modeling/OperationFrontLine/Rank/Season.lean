import OperationFrontLine.Rank.Fair

/-!
# Seasons

A season is a list of matches.  What the database gives out is what it had before
the season or what the module published in this or an earlier match.  As long as
only activated records are published, ranks and levels stay in range over any
number of matches, and every match moves the standings the right way.
-/

namespace OperationFrontLine.Rank

open OperationFrontLine.Library

variable {Uid Name : Type}

namespace State

def Rated (settings : Settings ℝ) (winTeam : Side) (start : State Uid Name ℝ) (uid : Uid)
    (old new : Session Uid ℝ) : Prop :=
  new = old ∨ start.realGameLength ≠ 0 ∧
    new = old.withAccount (old.record.account.afterMatch
      (matchPoints settings.engine old.points start.realGameLength) winTeam (start.side uid))

variable [DecidableEq Uid]

theorem rateRecord_cases (settings : Settings ℝ) (winTeam : Side) (uid : Uid)
    (state : State Uid Name ℝ) :
    (state.rateRecord settings winTeam uid).state = state ∨
      ∃ session, state.session? uid = some session ∧ state.realGameLength ≠ 0 ∧
        (state.rateRecord settings winTeam uid).state = state.setSlot uid (.session
          (session.withAccount (session.record.account.afterMatch
            (matchPoints settings.engine session.points state.realGameLength) winTeam
            (state.side uid)))) := by
  unfold rateRecord
  split
  · exact Or.inl rfl
  · next session found =>
      split
      · exact Or.inl rfl
      · next positive => exact Or.inr ⟨session, found, positive, rfl⟩

/-- The loop of `EndGame` rates every record at most once, by the points, the side
and the length of the game that it finds at the start. -/
theorem finishRecords_rated (settings : Settings ℝ) (winTeam : Side)
    (start : State Uid Name ℝ) {uids : List Uid} (distinct : uids.Nodup)
    (state : State Uid Name ℝ) (side : state.side = start.side)
    (length : state.realGameLength = start.realGameLength)
    (untouched : ∀ uid ∈ uids, state.session? uid = start.session? uid)
    (rated : ∀ uid old, start.session? uid = some old →
      ∃ new, state.session? uid = some new ∧ Rated settings winTeam start uid old new) :
    ∀ uid old, start.session? uid = some old →
      ∃ new, (forEach (finishRecord settings winTeam) uids state).state.session? uid =
        some new ∧ Rated settings winTeam start uid old new := by
  induction uids generalizing state with
  | nil => exact rated
  | cons uid rest inductionHypothesis =>
      obtain ⟨notInRest, restDistinct⟩ := List.nodup_cons.mp distinct
      have one : let after := (state.finishRecord settings winTeam uid).state
          after.side = start.side ∧ after.realGameLength = start.realGameLength ∧
          (∀ other, other ≠ uid → after.session? other = state.session? other) ∧
          ∀ other old, start.session? other = some old →
            ∃ new, after.session? other = some new ∧
              Rated settings winTeam start other old new := by
        let Inv (after : State Uid Name ℝ) : Prop :=
          after.side = start.side ∧ after.realGameLength = start.realGameLength ∧
          (∀ other, other ≠ uid → after.session? other = state.session? other) ∧
          ∀ other old, start.session? other = some old →
            ∃ new, after.session? other = some new ∧
              Rated settings winTeam start other old new
        have unrated : Inv state := ⟨side, length, fun _ _ => rfl, rated⟩
        change Inv _
        unfold finishRecord
        refine Outcome.andThen_invariant Inv ?_ ?_
        · split
          · rcases rateRecord_cases settings winTeam uid state with
              same | ⟨session, found, positive, same⟩
            · rw [same]
              exact unrated
            · rw [same]
              refine ⟨side, length, fun other different => ?_, fun other old had => ?_⟩
              · rw [session?_setSlot_session, if_neg different]
              · rw [session?_setSlot_session]
                split_ifs with own
                · subst own
                  have isOld : some session = some old :=
                    found.symm.trans ((untouched other (by simp)).trans had)
                  cases isOld
                  refine ⟨_, rfl, Or.inr ⟨length ▸ positive, ?_⟩⟩
                  rw [length, side]
                · exact rated other old had
          · exact unrated
        · intro middle holds
          split <;> exact holds
      obtain ⟨afterSide, afterLength, elsewhere, afterRated⟩ := one
      rw [forEach_cons]
      cases ended : state.finishRecord settings winTeam uid with
      | stopped after =>
          rw [ended] at afterRated
          exact afterRated
      | finished after =>
          rw [ended, Outcome.state_finished] at afterSide afterLength elsewhere afterRated
          refine inductionHypothesis restDistinct after afterSide afterLength ?_ afterRated
          intro other member
          have different : other ≠ uid := fun same => notInRest (same ▸ member)
          rw [elsewhere other different]
          exact untouched other (by simp [member])

omit [DecidableEq Uid] in
theorem session?_commitActive (state : State Uid Name ℝ) :
    state.commitActive.state.session? = state.session? := by
  unfold commitActive
  split
  · rfl
  · split <;> rfl

theorem Consistent.endGame_rated {state : State Uid Name ℝ} (consistent : Consistent state)
    (settings : Settings ℝ) (winTeam : Side) {uid : Uid} {old : Session Uid ℝ}
    (had : state.session? uid = some old) :
    ∃ new, (state.endGame settings winTeam).state.session? uid = some new ∧
      Rated settings winTeam state uid old new := by
  have looped := finishRecords_rated settings winTeam state consistent.sides_nodup
    { state with running := false } rfl rfl (fun _ _ => rfl)
    (fun other session found => ⟨session, found, Or.inl rfl⟩) uid old had
  unfold State.endGame
  cases ended : forEach (finishRecord settings winTeam) (state.west ++ state.east)
      { state with running := false } with
  | stopped after =>
      rw [ended] at looped
      exact looped
  | finished after =>
      rw [ended, Outcome.state_finished] at looped
      rw [Outcome.finished_andThen, session?_commitActive]
      exact looped

namespace Fair

variable {before after : State Uid Name ℝ} {settings : Settings ℝ}

/-- What `EndGame` makes of one record is in range, and so is what it publishes. -/
theorem finishRecord (fair : Fair before) (consistent : Consistent before)
    (exact_engine : settings.engine = realEngine) (winTeam : Side) {uid : Uid}
    (listed : uid ∈ before.west ++ before.east) :
    Fair (before.finishRecord settings winTeam uid).state := by
  have activated : before.Activated uid := by
    rintro slot inPending entry rfl
    exact (consistent.enlisted uid listed).2 entry inPending
  let RateInv (rated : State Uid Name ℝ) : Prop := Fair rated ∧ rated.pending = before.pending
  have rated : RateInv (if settings.ranked then before.rateRecord settings winTeam uid
      else .finished before).state := by
    split
    · refine ⟨?_, (sameRoster_rateRecord settings winTeam uid before).pending⟩
      rcases rateRecord_cases settings winTeam uid before with
        same | ⟨session, found, positive, same⟩
      · rw [same]
        exact fair
      · rw [same, exact_engine]
        refine fair.setAccount found fun _ => ?_
        obtain ⟨low, high⟩ := fair.bounded uid session.points (pointsOf_session found)
        obtain ⟨lowMatch, highMatch⟩ := matchPoints_bounds low high positive
        exact (Account.afterMatch_fair (fair.inRange uid session found activated) lowMatch
          highMatch winTeam (before.side uid)).1
    · exact ⟨fair, rfl⟩
  unfold State.finishRecord
  refine Outcome.andThen_of_state rated (fun _ kept => kept.1) ?_
  rintro middle ⟨kept, same⟩
  split
  · exact kept
  · next session found =>
      exact kept.publishAccount found fun slot inPending => activated slot (same ▸ inPending)

theorem endGame (fair : Fair before) (consistent : Consistent before)
    (exact_engine : settings.engine = realEngine) (winTeam : Side) :
    Fair (before.endGame settings winTeam).state := by
  let start := { before with running := false }
  let Inv (middle : State Uid Name ℝ) : Prop := Fair middle ∧ SameRoster start middle
  have looped : Inv (forEach (State.finishRecord settings winTeam)
      (before.west ++ before.east) start).state := by
    refine forEach_invariant Inv ?_ ⟨fair.congr rfl rfl rfl rfl, .refl start⟩
    rintro uid listed middle ⟨kept, same⟩
    have agrees : Consistent middle := consistent.stop.congr same
    have listedHere : uid ∈ middle.west ++ middle.east := by
      rw [same.west, same.east]
      exact listed
    exact ⟨kept.finishRecord agrees exact_engine winTeam listedHere,
      same.trans (sameRoster_finishRecord settings winTeam uid middle)⟩
  unfold State.endGame
  refine Outcome.andThen_of_state looped (fun _ kept => kept.1) ?_
  rintro middle ⟨kept, -⟩
  unfold State.commitActive
  split
  · exact kept
  · split
    · exact kept
    · refine kept.call ?_
      rintro _ _ ⟨⟩

theorem recount (fair : Fair before) {uid : Uid} {session : Session Uid ℝ}
    (found : before.session? uid = some session) (account : Account ℝ)
    (rank : account.rank = session.record.account.rank)
    (level : account.level = session.record.account.level) :
    Fair (before.setSlot uid (.session (session.withAccount account))) :=
  fair.setAccount found fun activated =>
    (fair.inRange uid session found activated).congr rank level

theorem updatePlayerKills (fair : Fair before) (uid : Uid) (id : ClientId) :
    Fair (before.updatePlayerKills settings uid id).state := by
  unfold State.updatePlayerKills
  split
  · exact fair
  · next session found =>
      have counted := fair.recount found { session.record.account with
        kills := session.record.account.kills + 1
        chickens := session.record.account.chickens + killReward settings } rfl rfl
      exact counted.congr rfl rfl rfl rfl

theorem purchase (fair : Fair before) (id : ClientId) (index : ℕ) :
    Fair (before.purchase settings id index).state := by
  fun_cases State.purchase settings id index before with
  | case6 uid found side hasSide vehicle listed limit limited inStock session has afford =>
      have paid := fair.recount has { session.record.account with
        chickens := session.record.account.chickens - vehicle.price } rfl rfl
      exact paid.congr rfl rfl rfl rfl
  | _ => exact fair

theorem expire (fair : Fair before) (thread : ShopThread Uid) :
    Fair (before.expire thread) := by
  unfold State.expire
  split
  · exact fair.congr rfl rfl rfl rfl
  · split
    · exact fair
    · exact fair.congr rfl rfl rfl rfl
  · exact fair.congr rfl rfl rfl rfl
  · exact fair

theorem quiet (fair : Fair before) {event : Event Uid Name ℝ} (quiet : event.Quiet)
    [DecidableEq Name] (stepped : step settings before event = some after) : Fair after := by
  cases event with
  | agree id =>
      simp only [step] at stepped
      split at stepped <;> cases stepped
      · exact fair
      · exact fair.congr rfl rfl rfl rfl
  | setSide uid side =>
      simp only [step] at stepped
      split at stepped <;> cases stepped
      · exact fair
      · exact fair.congr rfl rfl rfl rfl
  | startClock =>
      cases stepped
      exact fair.congr rfl rfl rfl rfl
  | kill uid =>
      simp only [step] at stepped
      split at stepped
      · cases stepped
        exact fair
      · split at stepped <;> cases stepped
        · exact fair.updatePlayerKills uid _
        · exact fair
  | purchase id index =>
      cases stepped
      exact fair.purchase id index
  | deleteVehicle object =>
      cases stepped
      exact fair.congr rfl rfl rfl rfl
  | expire index =>
      simp only [step] at stepped
      split at stepped <;> cases stepped
      · exact fair
      · next thread _ => exact (fair.expire thread).congr rfl rfl rfl rfl
  | connect uid name => cases quiet
  | disconnect uid => cases quiet
  | frame answers rankDue publishDue => cases quiet
  | endGame winTeam => cases quiet

end Fair

def OnlyActivated (state : State Uid Name ℝ) : Event Uid Name ℝ → Prop
  | .frame answers _ publishDue =>
      state.running = true → publishDue = true → PublishesActivated answers state
  | _ => True

def AnswersInRange (state : State Uid Name ℝ) : Event Uid Name ℝ → Prop
  | .frame answers _ _ => ∀ entry, some entry ∈ state.pending → ∀ answer,
      answers entry.handle = some answer → answer.account.InRange
  | _ => True

theorem Fair.step [DecidableEq Name] {settings : Settings ℝ}
    (exact_engine : settings.engine = realEngine) {before after : State Uid Name ℝ}
    {event : Event Uid Name ℝ} (sound : Sound before) (fair : Fair before)
    (orderly : OnlyActivated before event) (inRange : AnswersInRange before event)
    (stepped : Rank.step settings before event = some after) : Fair after := by
  cases event with
  | connect uid name =>
      simp only [Rank.step] at stepped
      split at stepped <;> cases stepped
      next absent =>
        cases running : before.running with
        | true =>
            obtain ⟨rejoin, points, had, same⟩ :=
              (sound running).1.addPlayer absent running name
            rw [same]
            exact fair.connect had
        | false =>
            have idle : (before.addConnection uid name).running = false := running
            simp only [State.addPlayer, idle, Bool.false_eq_true, if_false]
            exact fair.congr rfl rfl rfl rfl
  | disconnect uid =>
      simp only [Rank.step] at stepped
      split at stepped <;> cases stepped
      next client present =>
        cases running : before.running with
        | true => exact fair.disconnect (sound running).1 settings present running
        | false =>
            simp only [State.removePlayer, running, Bool.false_eq_true, if_false]
            exact fair.congr rfl rfl rfl rfl
  | frame answers rankDue publishDue =>
      simp only [Rank.step] at stepped
      split at stepped <;> cases stepped
      · next running =>
          obtain ⟨consistent, complete⟩ := sound running
          exact fair.frame consistent complete exact_engine inRange (orderly running)
      · exact fair
  | endGame winTeam =>
      simp only [Rank.step] at stepped
      split at stepped <;> cases stepped
      next running => exact fair.endGame (sound running).1 exact_engine winTeam
  | _ => exact fair.quiet (by trivial) stepped

/-- A step of a fair match: records and points are in range, a second on a side is
worth between 1 and √2 points, and the end of the game moves each standing the right
way. -/
structure FairStep (settings : Settings ℝ) (before : State Uid Name ℝ)
    (event : Event Uid Name ℝ) (after : State Uid Name ℝ) : Prop where
  inRange : ∀ uid session, after.session? uid = some session → after.Activated uid →
    session.record.account.InRange
  bounded : ∀ uid points, after.pointsOf uid = some points →
    0 ≤ points ∧ points ≤ √2 * after.realGameLength
  /-- At the state in which a frame reaches the accumulation of points. -/
  perSecond : ∀ answers rankDue publishDue, event = .frame answers rankDue publishDue →
    before.running = true → ∀ checked, before.checkPendings answers = .finished checked →
      ∀ friends enemies, (friends, enemies) = (checked.west, checked.east) ∨
          (friends, enemies) = (checked.east, checked.west) → friends ≠ [] →
        ∃ points, checked.pointAccumulator settings.engine friends enemies = some points ∧
          1 ≤ points ∧ points ≤ √2
  ended : ∀ winTeam, event = .endGame winTeam → ∀ uid session,
    before.session? uid = some session → before.Activated uid →
      (before.realGameLength ≠ 0 →
        0 ≤ matchPoints settings.engine session.points before.realGameLength ∧
          matchPoints settings.engine session.points before.realGameLength ≤ 100) ∧
      ∃ rated, after.session? uid = some rated ∧ rated.record.account.InRange ∧
        (winTeam = .independent ∨ before.side uid = some winTeam →
          session.record.account.standing ≤ rated.record.account.standing) ∧
        (winTeam ≠ .independent → before.side uid ≠ some winTeam →
          rated.record.account.standing ≤ session.record.account.standing)

variable {settings : Settings ℝ} {before after : State Uid Name ℝ}

/-- Before the points of a second are computed, the records of both sides are in
range. -/
theorem Fair.perSecond (fair : Fair before) (sound : Sound before)
    (running : before.running = true) (exact_engine : settings.engine = realEngine)
    {answers : Handle → Option (Answer ℝ)}
    (inRange : ∀ entry, some entry ∈ before.pending → ∀ answer,
      answers entry.handle = some answer → answer.account.InRange)
    {checked : State Uid Name ℝ} (ended : before.checkPendings answers = .finished checked)
    {friends enemies : List Uid}
    (sides : (friends, enemies) = (checked.west, checked.east) ∨
      (friends, enemies) = (checked.east, checked.west)) (players : friends ≠ []) :
    ∃ points, checked.pointAccumulator settings.engine friends enemies = some points ∧
      1 ≤ points ∧ points ≤ √2 := by
  obtain ⟨consistent, complete⟩ := sound running
  -- A frame in which nothing is due does nothing but check the pending records.
  have isFrame : (before.frame settings answers false false).state = checked := by
    simp only [State.frame, ended, Outcome.finished_andThen, Bool.false_eq_true, if_false,
      Outcome.state_finished]
  have kept : Fair checked := by
    rw [← isFrame]
    exact fair.frame consistent complete exact_engine inRange (by simp)
  have agrees : Consistent checked := by
    obtain ⟨_, sameEnd, agrees, -⟩ := consistent.checkPendings complete answers
      (fun _ => True) (fun _ _ _ _ _ _ _ _ => trivial) (fun _ _ => trivial) trivial
    rw [ended] at sameEnd
    cases sameEnd
    exact agrees
  have inRangeSides := kept.sides_inRange agrees
  rw [exact_engine]
  refine pointAccumulator_bounds ?_ players
  intro uid member
  refine inRangeSides uid ?_
  rcases sides with same | same <;> cases same
  · exact member
  · exact List.mem_append.mpr (List.mem_append.mp member).symm

theorem Fair.ended (fair : Fair before) (consistent : Consistent before)
    (exact_engine : settings.engine = realEngine) (winTeam : Side) {uid : Uid}
    {session : Session Uid ℝ} (found : before.session? uid = some session)
    (activated : before.Activated uid) :
    (before.realGameLength ≠ 0 →
      0 ≤ matchPoints settings.engine session.points before.realGameLength ∧
        matchPoints settings.engine session.points before.realGameLength ≤ 100) ∧
    ∃ rated, (before.endGame settings winTeam).state.session? uid = some rated ∧
      rated.record.account.InRange ∧
      (winTeam = .independent ∨ before.side uid = some winTeam →
        session.record.account.standing ≤ rated.record.account.standing) ∧
      (winTeam ≠ .independent → before.side uid ≠ some winTeam →
        rated.record.account.standing ≤ session.record.account.standing) := by
  obtain ⟨low, high⟩ := fair.bounded uid session.points (pointsOf_session found)
  have inRange := fair.inRange uid session found activated
  have points : before.realGameLength ≠ 0 →
      0 ≤ matchPoints settings.engine session.points before.realGameLength ∧
        matchPoints settings.engine session.points before.realGameLength ≤ 100 := by
    rw [exact_engine]
    exact matchPoints_bounds low high
  refine ⟨points, ?_⟩
  obtain ⟨rated, isRated, rfl | ⟨positive, rfl⟩⟩ :=
    consistent.endGame_rated settings winTeam found
  · exact ⟨rated, isRated, inRange, fun _ => le_rfl, fun _ _ => le_rfl⟩
  · obtain ⟨lowMatch, highMatch⟩ := points positive
    exact ⟨_, isRated, Account.afterMatch_fair inRange lowMatch highMatch winTeam
      (before.side uid)⟩

theorem Fair.fairStep [DecidableEq Name] (exact_engine : settings.engine = realEngine)
    {event : Event Uid Name ℝ} (sound : Sound before) (fair : Fair before)
    (orderly : OnlyActivated before event) (inRange : AnswersInRange before event)
    (stepped : Rank.step settings before event = some after) :
    Fair after ∧ FairStep settings before event after := by
  have kept := fair.step exact_engine sound orderly inRange stepped
  refine ⟨kept, kept.inRange, kept.bounded, ?_, ?_⟩
  · rintro answers rankDue publishDue rfl running checked ended friends enemies sides players
    exact fair.perSecond sound running exact_engine inRange ended sides players
  · rintro winTeam rfl uid session found activated
    simp only [Rank.step] at stepped
    split at stepped <;> cases stepped
    next running => exact fair.ended (sound running).1 exact_engine winTeam found activated

end State

/-- A match of a season: what is set for it, and what happens in it. -/
structure Match (Uid Name : Type) where
  ranked : Bool
  vehicles : ShopSide → List (ShopVehicle ℝ)
  categoryLimits : List ℤ
  events : List (Event Uid Name ℝ)

noncomputable def Match.settings (played : Match Uid Name) : Settings ℝ where
  engine := realEngine
  ranked := played.ranked
  vehicles := played.vehicles
  categoryLimits := played.categoryLimits

variable [DecidableEq Uid] [DecidableEq Name]

/-- A condition on the steps of all matches; each match starts from the variables as
they are initialised, and the condition sees the calls of the matches before it. -/
def AlongSeason
    (Good : Settings ℝ → List (ExtensionCall Uid ℝ) → State Uid Name ℝ → Event Uid Name ℝ →
      State Uid Name ℝ → Prop) :
    List (ExtensionCall Uid ℝ) → List (Match Uid Name) → Prop
  | _, [] => True
  | history, played :: later =>
      Along (step played.settings) (Good played.settings history) State.initial
          played.events ∧
        ∀ finish, run (step played.settings) State.initial played.events = some finish →
          AlongSeason Good (history ++ finish.calls) later

/-- The row of a player holds the account it had before the season, or one that was
published of him. -/
def Stored (database : Uid → Account ℝ) (calls : List (ExtensionCall Uid ℝ)) (uid : Uid)
    (account : Account ℝ) : Prop :=
  account = database uid ∨ ∃ handle, .publishAccount handle ⟨uid, account⟩ ∈ calls

/-- Rank and level of every answer for a pending record are those of the player's row. -/
def FromDatabase (database : Uid → Account ℝ) (history : List (ExtensionCall Uid ℝ))
    (before : State Uid Name ℝ) : Event Uid Name ℝ → Prop
  | .frame answers _ _ => ∀ entry, some entry ∈ before.pending → ∀ answer,
      answers entry.handle = some answer →
        ∃ row, Stored database (history ++ before.calls) entry.uid row ∧
          answer.account.rank = row.rank ∧ answer.account.level = row.level
  | _ => True

open State

/-- If every record starts in range and only activated records are published, then
every step of every match of a season is fair. -/
theorem season_fair (database : Uid → Account ℝ) (starts : ∀ uid, (database uid).InRange)
    (matches' : List (Match Uid Name))
    (stored : AlongSeason (fun _ history before event _ =>
      FromDatabase database history before event) [] matches')
    (orderly : AlongSeason (fun _ _ before event _ => OnlyActivated before event) []
      matches') :
    AlongSeason (fun settings _ before event after => FairStep settings before event after) []
      matches' := by
  suffices general : ∀ history : List (ExtensionCall Uid ℝ),
      (∀ handle record, .publishAccount handle record ∈ history → record.account.InRange) →
      AlongSeason (fun _ history before event _ =>
        FromDatabase database history before event) history matches' →
      AlongSeason (fun _ _ before event _ => OnlyActivated before event) history matches' →
      AlongSeason (fun settings _ before event after =>
        FairStep settings before event after) history matches' from
    general [] (by simp) stored orderly
  clear stored orderly
  induction matches' with
  | nil => exact fun _ _ _ _ => trivial
  | cons played later inductionHypothesis =>
      rintro history published ⟨storedHere, storedLater⟩ ⟨orderlyHere, orderlyLater⟩
      let Inv (state : State Uid Name ℝ) : Prop := Sound state ∧ Fair state
      have initial : Inv State.initial := ⟨sound_initial, Fair.initial⟩
      have met := orderlyHere.and storedHere
      have keep : ∀ before event after, Inv before →
          OnlyActivated before event ∧ FromDatabase database history before event →
          step played.settings before event = some after →
          Inv after ∧ FairStep played.settings before event after := by
        rintro before event after ⟨sound, fair⟩ ⟨onlyActivated, fromDatabase⟩ stepped
        have inRange : AnswersInRange before event := by
          cases event with
          | frame answers rankDue publishDue =>
              intro entry member answer answered
              obtain ⟨row, isRow, rank, level⟩ := fromDatabase entry member answer answered
              refine Account.InRange.congr ?_ rank level
              rcases isRow with rfl | ⟨handle, called⟩
              · exact starts entry.uid
              · rcases List.mem_append.mp called with old | new
                · exact published handle _ old
                · exact fair.published handle _ new
          | _ => trivial
        obtain ⟨kept, good⟩ := fair.fairStep rfl sound onlyActivated inRange stepped
        exact ⟨⟨sound_step played.settings event sound stepped, kept⟩, good⟩
      refine ⟨along_of_along Inv keep initial met, fun finish ran => ?_⟩
      have finished : Inv finish := run_invariant_of_along Inv
        (fun before event after holds met stepped =>
          (keep before event after holds met stepped).1) initial met ran
      refine inductionHypothesis (history ++ finish.calls) ?_ (storedLater finish ran)
        (orderlyLater finish ran)
      intro handle record called
      rcases List.mem_append.mp called with old | new
      · exact published handle record old
      · exact finished.2.published handle record new

section Runs

noncomputable def thirdRank : Account ℝ :=
  ⟨3, 250, 40, 22, 18, 900, 17, 0, 0, 0, 0, 0, 0, 0⟩

theorem thirdRank_inRange : thirdRank.InRange :=
  ⟨⟨3, by norm_num, by norm_num [thirdRank]⟩, by norm_num [thirdRank], by norm_num [thirdRank]⟩

noncomputable def answerFor (handle : Handle) (account : Account ℝ) :
    Handle → Option (Answer ℝ) :=
  fun other => if other = handle then some ⟨account, 0⟩ else none

noncomputable def joins : List (Event ℕ ℕ ℝ) :=
  [.connect 7 0, .agree 1, .setSide 7 .west, .frame (answerFor 2 thirdRank) false false]

/-- The player is credited with two kills before the list is published, leaves, and is
back for a moment while the list is published; then he comes back to stay. -/
noncomputable def comesBack : List (Event ℕ ℕ ℝ) :=
  joins ++ [.kill 7, .kill 7, .disconnect 7] ++
    [.connect 7 0, .frame (fun _ => none) false true, .disconnect 7] ++
    [.connect 7 0, .agree 3, .setSide 7 .west]

/-- The record that was published while it was not activated is what the database has
when the player is back. -/
noncomputable def lostRank : Match ℕ ℕ where
  ranked := true
  vehicles _ := []
  categoryLimits := []
  events := comesBack ++ [.frame (answerFor 6 emptyAccount) false false, .startClock,
    .frame (fun _ => none) true false, .endGame .east]

/-- A frame in which the database answers for the only pending record. -/
theorem frame_single {state : State ℕ ℕ ℝ} {settings : Settings ℝ}
    {answers : Handle → Option (Answer ℝ)} {entry : PendingRecord ℕ ℕ} {answer : Answer ℝ}
    {session : Session ℕ ℝ} (pending : state.pending = [some entry])
    (ready : (state.side entry.uid).isSome ∧ state.agreed entry.uid = true)
    (answered : answers entry.handle = some answer)
    (named : state.accountName entry.handle = some entry.uid)
    (found : state.session? entry.uid = some session) (allowed : answer.banned < 1) :
    state.frame settings answers false false = .finished
      { ((state.call (.getOutput entry.handle (some answer))).activated 0 entry answer
        session).enlist entry.uid with pending := [] } := by
  let asked := state.call (.getOutput entry.handle (some answer))
  have received : asked.receiveRecord 0 entry answer = _ :=
    @receiveRecord_eq _ _ _ _ _ _ _ _ _ _ session named found
  rw [if_pos (Or.inr allowed)] at received
  have checked : state.checkPending answers (some entry, 0) = .finished
      ((asked.activated 0 entry answer session).enlist entry.uid) := by
    simp only [checkPending, if_pos ready, answered]
    exact received
  have none_left : ((asked.activated 0 entry answer session).enlist entry.uid).pending =
      [none] := by
    unfold State.enlist
    split <;> exact congrArg (List.set · 0 none) pending
  unfold State.frame State.checkPendings
  rw [pending]
  simp only [List.zipIdx_cons, List.zipIdx_nil, forEach_cons, forEach_nil, checked,
    Outcome.finished_andThen, none_left]
  rfl


/-- The player has agreed and is on a side, and his record is not activated. -/
noncomputable def waiting : State ℕ ℕ ℝ :=
  { (State.initial : State ℕ ℕ ℝ) with
    records := Function.update (fun _ => none) 7 (some (.session ⟨⟨7, emptyAccount⟩, 2, 0⟩))
    side := Function.update (fun _ => none) 7 (some .west)
    agreed := Function.update (fun _ => false) 7 true
    pending := [some ⟨7, 0, 2⟩]
    active := [7]
    lastThread := 2
    clients := Function.update (fun _ => none) 7 (some ⟨0, 1⟩)
    uidOf := Function.update (fun _ => none) 1 (some 7)
    lastId := 1
    accountName := Function.update (fun _ => none) 2 (some 7)
    calls := [.connect 2 7 false] }

noncomputable def joined : State ℕ ℕ ℝ :=
  { waiting with
    records := Function.update waiting.records 7 (some (.session ⟨⟨7, thirdRank⟩, 2, 0⟩))
    pending := []
    west := [7]
    calls := waiting.calls ++ [.getOutput 2 (some ⟨thirdRank, 0⟩)] }

theorem run_joins (settings : Settings ℝ) :
    run (step settings) State.initial joins = some joined := by
  have asked : run (step settings) State.initial (joins.take 3) = some waiting := rfl
  have framed := @frame_single waiting settings (answerFor 2 thirdRank) ⟨7, 0, 2⟩
    ⟨thirdRank, 0⟩ ⟨⟨7, emptyAccount⟩, 2, 0⟩ rfl ⟨rfl, rfl⟩ rfl rfl rfl zero_lt_one
  have answered : step settings waiting (.frame (answerFor 2 thirdRank) false false) =
      some joined := congrArg (fun outcome => some (Outcome.state outcome)) framed
  rw [show joins = joins.take 3 ++ [.frame (answerFor 2 thirdRank) false false] from rfl,
    run_append, asked, Option.bind_some, run_cons, answered]
  rfl

noncomputable def wonRank : Match ℕ ℕ where
  ranked := true
  vehicles _ := []
  categoryLimits := []
  events := joins ++ [.kill 7, .startClock] ++
    [.frame (fun _ => none) true true, .endGame .west]

theorem season_fair_twice :
    AlongSeason (fun settings _ before event after => FairStep settings before event after) []
      [wonRank, wonRank] := by
  have counts : ∃ counted, run (step wonRank.settings) State.initial
      (joins ++ [.kill 7, .startClock]) = some counted ∧ counted.pending = [] := by
    refine ⟨_, by rw [run_append, run_joins, Option.bind_some]; rfl, rfl⟩
  obtain ⟨counted, reached, empty⟩ := counts
  have stored : ∀ history, Along (step wonRank.settings)
      (fun before event _ => FromDatabase (fun _ => thirdRank) history before event)
      State.initial wonRank.events := by
    intro history
    refine along_of_forall_mem ?_ _
    intro event member before after _
    simp only [wonRank, joins, List.mem_append, List.mem_cons, List.not_mem_nil,
      or_false] at member
    rcases member with ((rfl | rfl | rfl | rfl) | rfl | rfl) | rfl | rfl <;> try trivial
    · intro entry _ answer answered
      simp only [answerFor] at answered
      split_ifs at answered
      cases answered
      exact ⟨thirdRank, Or.inl rfl, rfl, rfl⟩
    · intro entry _ answer answered
      cases answered
  have orderly : Along (step wonRank.settings)
      (fun before event _ => OnlyActivated before event) State.initial wonRank.events := by
    refine along_append.mpr ⟨along_of_forall_mem ?_ _, fun middle ends => ?_⟩
    · intro event member before after _
      simp only [joins, List.mem_append, List.mem_cons, List.not_mem_nil, or_false] at member
      rcases member with (rfl | rfl | rfl | rfl) | rfl | rfl <;> try trivial
      exact fun _ due => absurd due (by simp)
    · rw [reached, Option.some.injEq] at ends
      subst ends
      intro next _
      refine ⟨fun _ _ entry _ slot inPending => ?_, fun _ _ => ⟨trivial, trivial⟩⟩
      rw [empty] at inPending
      cases inPending
  exact season_fair (fun _ => thirdRank) (fun _ => thirdRank_inRange) [wonRank, wonRank]
    ⟨stored _, fun _ _ => ⟨stored _, fun _ _ => trivial⟩⟩
    ⟨orderly, fun _ _ => ⟨orderly, fun _ _ => trivial⟩⟩

noncomputable def credited : Account ℝ :=
  { thirdRank with kills := 900 + 1 + 1, chickens := 17 + 1 + 1 }

theorem run_lostRank :
    ∃ again, run (step lostRank.settings) State.initial comesBack = some again ∧
      again.pending = [some ⟨7, 0, 6⟩] ∧ .publishAccount 4 ⟨7, emptyAccount⟩ ∈ again.calls ∧
      ∃ played, run (step lostRank.settings) again
          [.frame (answerFor 6 emptyAccount) false false, .startClock,
            .frame (fun _ => none) true false] = some played ∧
        ∃ ended, step lostRank.settings played (.endGame .east) = some ended ∧
          ended.pending = [] ∧ ∃ session, ended.session? 7 = some session ∧
            session.record.account.rank = 0 := by
  let killed : State ℕ ℕ ℝ := { joined with
    records := Function.update joined.records 7 (some (.session
      ⟨⟨7, { thirdRank with kills := 900 + 1, chickens := 17 + 1 }⟩, 2, 0⟩))
    lpi := Function.update joined.lpi 7 (some 0)
    publish := [(7, 1)] }
  let left : State ℕ ℕ ℝ := { killed with
    records := Function.update (Function.update killed.records 7
      (some (.session ⟨⟨7, credited⟩, 2, 0⟩))) 7 (some (.points 0))
    side := Function.update killed.side 7 none
    agreed := Function.update killed.agreed 7 false
    lpi := Function.update (Function.update killed.lpi 7 (some (-1))) 7 none
    active := []
    west := []
    clients := Function.update killed.clients 7 none
    uidOf := Function.update killed.uidOf 1 none
    calls := killed.calls ++ [.publishAccount 2 ⟨7, credited⟩] ++
      [.commit [(2, decide ((0 : ℝ) < 0) && true)]] }
  have hasLeft : run (step lostRank.settings) joined [.kill 7, .kill 7, .disconnect 7] =
      some left := by
    have hasKilled : step lostRank.settings joined (.kill 7) = some killed := rfl
    rw [run_cons, hasKilled]
    rfl
  let away : State ℕ ℕ ℝ := { left with
    records := Function.update (Function.update left.records 7
      (some (.session ⟨⟨7, emptyAccount⟩, 4, 0⟩))) 7 (some (.points 0))
    side := Function.update left.side 7 none
    agreed := Function.update left.agreed 7 false
    lpi := Function.update left.lpi 7 none
    publish := []
    lastThread := 4
    lastId := 2
    clients := Function.update (Function.update left.clients 7 (some ⟨0, 2⟩)) 7 none
    uidOf := Function.update (Function.update left.uidOf 2 (some 7)) 2 none
    accountName := Function.update left.accountName 4 (some 7)
    calls := left.calls ++ [.connect 4 7 (decide ((0 : ℝ) < 0))] ++
      [.publishAccount 4 ⟨7, emptyAccount⟩] ++
      [.commit [(4, decide ((0 : ℝ) < 0) && true)]] }
  have published : run (step lostRank.settings) left
      [.connect 7 0, .frame (fun _ => none) false true, .disconnect 7] = some away := rfl
  let again : State ℕ ℕ ℝ := { away with
    records := Function.update away.records 7 (some (.session ⟨⟨7, emptyAccount⟩, 6, 0⟩))
    side := Function.update away.side 7 (some .west)
    agreed := Function.update away.agreed 7 true
    pending := [some ⟨7, 0, 6⟩]
    active := [7]
    lastThread := 6
    lastId := 3
    clients := Function.update away.clients 7 (some ⟨0, 3⟩)
    uidOf := Function.update away.uidOf 3 (some 7)
    accountName := Function.update away.accountName 6 (some 7)
    calls := away.calls ++ [.connect 6 7 (decide ((0 : ℝ) < 0))] }
  have isBack : run (step lostRank.settings) away [.connect 7 0, .agree 3, .setSide 7 .west] =
      some again := rfl
  let enlisted : State ℕ ℕ ℝ := { again with
    records := Function.update again.records 7 (some (.session ⟨⟨7, emptyAccount⟩, 6, 0⟩))
    pending := []
    west := [7]
    calls := again.calls ++ [.getOutput 6 (some ⟨emptyAccount, 0⟩)] }
  have framed := @frame_single again lostRank.settings (answerFor 6 emptyAccount) ⟨7, 0, 6⟩
    ⟨emptyAccount, 0⟩ ⟨⟨7, emptyAccount⟩, 6, 0⟩ rfl ⟨rfl, rfl⟩ rfl rfl rfl zero_lt_one
  have answered : step lostRank.settings again (.frame (answerFor 6 emptyAccount) false false) =
      some enlisted := congrArg (fun outcome => some (Outcome.state outcome)) framed
  refine ⟨again, ?_, rfl, by simp [again, away], ?_⟩
  · rw [comesBack, run_append, run_append, run_append, run_joins, Option.bind_some, hasLeft,
      Option.bind_some, published, Option.bind_some, isBack]
  · rw [run_cons, answered, Option.bind_some]
    refine ⟨_, rfl, _, rfl, rfl, _, rfl, ?_⟩
    -- The rank of the losing side is not lowered below 2, and 0 is below 2.
    exact if_pos (Or.inr (by norm_num [emptyAccount]))

/-- Every record starts in range, and yet the record ends the game with rank 0. -/
theorem season_lostRank :
    (∀ uid : ℕ, ((fun _ => thirdRank) uid).InRange) ∧
      AlongSeason (fun _ history before event _ =>
        FromDatabase (fun _ : ℕ => thirdRank) history before event) [] [lostRank] ∧
      ¬ AlongSeason (fun settings _ before event after =>
        FairStep settings before event after) [] [lostRank] ∧
      ∃ ended, run (step lostRank.settings) State.initial lostRank.events = some ended ∧
        ∃ session, ended.session? 7 = some session ∧ session.record.account.rank = 0 := by
  obtain ⟨again, reached, pending, published, played, ran, ended, stepped, empty, session,
    found, rank⟩ := run_lostRank
  refine ⟨fun _ => thirdRank_inRange, ⟨?_, fun _ _ => trivial⟩, ?_, ended, ?_, session, found, rank⟩
  · refine along_append.mpr ⟨along_of_forall_mem ?_ _, fun middle ends => ?_⟩
    · intro event member before after _
      simp only [comesBack, joins, List.mem_append, List.mem_cons, List.not_mem_nil,
        or_false] at member
      rcases member with (((rfl | rfl | rfl | rfl) | rfl | rfl | rfl) | rfl | rfl | rfl) |
        rfl | rfl | rfl <;> try trivial
      · intro entry _ answer answered
        simp only [answerFor] at answered
        split_ifs at answered
        cases answered
        exact ⟨thirdRank, Or.inl rfl, rfl, rfl⟩
      · intro entry _ answer answered
        cases answered
    · rw [reached, Option.some.injEq] at ends
      subst ends
      intro next _
      refine ⟨?_, along_of_forall_mem ?_ next⟩
      · intro entry member answer answered
        rw [pending, List.mem_singleton, Option.some.injEq] at member
        subst member
        cases answered
        exact ⟨emptyAccount, Or.inr ⟨4, published⟩, rfl, rfl⟩
      · intro event member before after _
        simp only [List.mem_cons, List.not_mem_nil, or_false] at member
        rcases member with rfl | rfl | rfl <;> try trivial
        intro entry _ answer answered
        cases answered
  · rintro ⟨fair, -⟩
    let asks : List (Event ℕ ℕ ℝ) := [.frame (answerFor 6 emptyAccount) false false,
      .startClock, .frame (fun _ => none) true false]
    have fromBack : Along (step lostRank.settings)
        (fun before event after => FairStep lostRank.settings before event after) again
        (asks ++ [.endGame .east]) := (along_append.mp fair).2 again reached
    have last := ((along_append.mp fromBack).2 played ran ended stepped).1
    obtain ⟨low, -⟩ := (last.inRange 7 session found (by simp [Activated, empty])).rank_bounds
    rw [rank] at low
    exact absurd low (by norm_num)
  · have split : lostRank.events = comesBack ++ ([.frame (answerFor 6 emptyAccount) false false,
        .startClock, .frame (fun _ => none) true false] ++ [.endGame .east]) := rfl
    rw [split, run_append, reached, Option.bind_some, run_append, ran, Option.bind_some, run_cons,
      stepped]
    rfl

end Runs
end OperationFrontLine.Rank
