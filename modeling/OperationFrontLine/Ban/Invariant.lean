import OperationFrontLine.Ban.Session

/-!
# The ban state machine

`Ditch` stays between 0 and 5.  The stored ban date survives its trip through
the text, is replaced only on the way from 4 to 5, and is the time of a Commit
whenever `Ditch` is 5, which is all that the ban flag looks at.
-/

namespace OperationFrontLine.Ban

open OperationFrontLine.Library OperationFrontLine.Native

/-- The fields fit into the widths that `writeBanData` gives them. -/
structure FitsText (time : BrokenDownTime) : Prop where
  year : 0 ≤ time.year ∧ time.year ≤ 9999
  month : 0 ≤ time.month ∧ time.month ≤ 99
  day : 0 ≤ time.day ∧ time.day ≤ 99
  hour : 0 ≤ time.hour ∧ time.hour ≤ 99
  minute : 0 ≤ time.minute ∧ time.minute ≤ 99
  second : 0 ≤ time.second ∧ time.second ≤ 99

structure Datable (time : BrokenDownTime) : Prop where
  valid : time.Valid
  year : 0 ≤ time.year ∧ time.year ≤ 9999

theorem Datable.fitsText {time : BrokenDownTime} (datable : Datable time) : FitsText time := by
  obtain ⟨⟨month, day, hour, minute, second⟩, year⟩ := datable
  exact ⟨year, by omega, by omega, by omega, by omega, by omega⟩

def InYears (time : ℤ) : Prop := Datable (.utc time)

theorem field_read (text before : Text) (width : ℕ) {number bound : ℤ}
    (range : 0 ≤ number ∧ number ≤ bound)
    (shape : before ++ setWidth width number <+: text := by simp [banText])
    (positive : 0 < width := by decide) (fits : bound < 10 ^ width := by decide)
    (small : bound < 2 ^ 63 := by decide) :
    (substr text before.length width).bind stoll = some number := by
  have field := substr_field shape
  rw [length_setWidth positive range.1 (by omega)] at field
  rw [field, Option.bind_some]
  exact stoll_setWidth range.1 (by omega)

theorem getBanData_banText {time : BrokenDownTime} (fits : FitsText time) (ditch : ℤ) :
    getBanData ⟨ditch, banText time⟩ = some ⟨ditch, time⟩ := by
  obtain ⟨year, month, day, hour, minute, second⟩ := fits
  have four := length_setWidth (by decide : 0 < 4) year.1 (by omega)
  have two : ∀ {number : ℤ}, 0 ≤ number ∧ number ≤ 99 → (setWidth 2 number).length = 2 :=
    fun range => length_setWidth (by decide) range.1 (by omega)
  -- each field, behind what stands before it
  have yearRead := field_read (banText time) [] 4 year
  have monthRead := field_read (banText time) (setWidth 4 time.year ++ ['-']) 2 month
  have dayRead := field_read (banText time)
    (setWidth 4 time.year ++ '-' :: (setWidth 2 time.month ++ ['-'])) 2 day
  have hourRead := field_read (banText time)
    (setWidth 4 time.year ++ '-' :: (setWidth 2 time.month ++ '-' ::
      (setWidth 2 time.day ++ [' ']))) 2 hour
  have minuteRead := field_read (banText time)
    (setWidth 4 time.year ++ '-' :: (setWidth 2 time.month ++ '-' ::
      (setWidth 2 time.day ++ ' ' :: (setWidth 2 time.hour ++ [':'])))) 2 minute
  have secondRead := field_read (banText time)
    (setWidth 4 time.year ++ '-' :: (setWidth 2 time.month ++ '-' ::
      (setWidth 2 time.day ++ ' ' :: (setWidth 2 time.hour ++ ':' ::
        (setWidth 2 time.minute ++ [':']))))) 2 second
  simp only [List.length_append, List.length_cons, List.length_nil, four, two month, two day,
    two hour, two minute] at yearRead monthRead dayRead hourRead minuteRead secondRead
  simp [getBanData, yearRead, monthRead, dayRead, hourRead, minuteRead, secondRead]

theorem banText_injective {first second : ℤ} (firstYears : InYears first)
    (secondYears : InYears second) (same : banText (.utc first) = banText (.utc second)) :
    first = second := by
  have read := getBanData_banText firstYears.fitsText 0
  rw [same, getBanData_banText secondYears.fitsText 0, Option.some.injEq] at read
  have times : BrokenDownTime.utc second = .utc first := congrArg Account.banned read
  rw [← BrokenDownTime.seconds_utc first, ← times, BrokenDownTime.seconds_utc]

structure BanInvariant (row : Administration) : Prop where
  ditch : 0 ≤ row.ditch ∧ row.ditch ≤ 5
  text : ∃ time, FitsText time ∧ row.banned = banText time
  /-- Five ditches come with the time of the Commit that counted the fifth. -/
  full : row.ditch = 5 → ∃ bannedAt, InYears bannedAt ∧ row.banned = banText (.utc bannedAt)

theorem BanInvariant.initial {row : Administration} (none_yet : row.ditch = 0)
    {time : BrokenDownTime} (fits : FitsText time) (text : row.banned = banText time) :
    BanInvariant row where
  ditch := by omega
  text := ⟨time, fits, text⟩
  full full := by omega

structure ConnectSpec (row connected : Administration) (now : ℤ) (banFlag : Bool) : Prop where
  invariant : BanInvariant connected
  banned : connected.banned = row.banned
  flag : banFlag = true ↔ connected.ditch = 5 ∧ ∃ bannedAt, InYears bannedAt ∧
    connected.banned = banText (.utc bannedAt) ∧ now - bannedAt < 3600

structure CommitSpec (connected committed : Administration) (punished : Bool) (now : ℤ) :
    Prop where
  invariant : BanInvariant committed
  fifth : punished = true → connected.ditch = 4 →
    committed.ditch = 5 ∧ committed.banned = banText (.utc now)
  other : ¬(punished = true ∧ connected.ditch = 4) → committed.banned = connected.banned

section Steps

variable {mktime : BrokenDownTime → ℤ}

/-- `mktime` is only relied on to preserve differences. -/
def PreservesDifferences (mktime : BrokenDownTime → ℤ) : Prop :=
  ∀ first second, Datable first → Datable second →
    mktime first - mktime second = first.seconds - second.seconds

theorem isBanned_iff (preserves : PreservesDifferences mktime) {now bannedAt : ℤ}
    (nowYears : InYears now) (bannedYears : InYears bannedAt) :
    isBanned mktime now (.utc bannedAt) 1 = true ↔ now - bannedAt < 3600 := by
  have difference := preserves _ _ nowYears bannedYears
  rw [BrokenDownTime.seconds_utc, BrokenDownTime.seconds_utc] at difference
  simp [isBanned, difference]

/-- The flag asks for five ditches, and then the stored time decides. -/
theorem flag_iff (preserves : PreservesDifferences mktime) {now : ℤ} (years : InYears now)
    {row : Administration} (invariant : BanInvariant row) {time : BrokenDownTime}
    (text : row.banned = banText time) (fits : FitsText time) :
    (isBanned mktime now time 1 && decide (row.ditch > 4)) = true ↔
      row.ditch = 5 ∧ ∃ bannedAt, InYears bannedAt ∧
        row.banned = banText (.utc bannedAt) ∧ now - bannedAt < 3600 := by
  have ditch := invariant.ditch
  have full : row.ditch > 4 ↔ row.ditch = 5 := by omega
  rw [Bool.and_eq_true, decide_eq_true_iff, full, and_comm]
  refine and_congr_right fun five => ?_
  obtain ⟨bannedAt, bannedYears, stored⟩ := invariant.full five
  have read := getBanData_banText fits 0
  rw [← text, stored, getBanData_banText bannedYears.fitsText, Option.some.injEq] at read
  have same : BrokenDownTime.utc bannedAt = time := congrArg Account.banned read
  rw [← same, isBanned_iff preserves years bannedYears]
  constructor
  · exact fun recent => ⟨bannedAt, bannedYears, stored, recent⟩
  · rintro ⟨other, otherYears, otherStored, recent⟩
    rwa [banText_injective bannedYears otherYears (stored.symm.trans otherStored)]

theorem rejoinLeft_range {left : ℤ} (range : 0 ≤ left ∧ left ≤ 5) (banned : Bool) :
    0 ≤ rejoinLeft left banned ∧ rejoinLeft left banned ≤ 4 := by
  unfold rejoinLeft
  split
  · split <;> omega
  · omega

theorem connectStep_spec (preserves : PreservesDifferences mktime) {now : ℤ}
    (years : InYears now) (rejoin : Bool) {row : Administration}
    (invariant : BanInvariant row) :
    ∃ connected banFlag, connectStep mktime now rejoin row = some (connected, banFlag) ∧
      ConnectSpec row connected now banFlag := by
  obtain ⟨time, fits, text⟩ := invariant.text
  have read : getBanData row = some ⟨row.ditch, time⟩ := by
    rw [← getBanData_banText fits, ← text]
  cases rejoin with
  | false =>
      have result : connectStep mktime now false row =
          some (row, isBanned mktime now time 1 && decide (row.ditch > 4)) := by
        simp [connectStep, read]
      refine ⟨_, _, result, invariant, rfl, ?_⟩
      exact flag_iff preserves years invariant text fits
  | true =>
      have range := rejoinLeft_range invariant.ditch (isBanned mktime now time 1)
      obtain ⟨left, leftEq⟩ : ∃ left, left = rejoinLeft row.ditch (isBanned mktime now time 1) :=
        ⟨_, rfl⟩
      have result : connectStep mktime now true row = some (writeBanData ⟨left, time⟩,
          isBanned mktime now time 1 && decide (left > 4)) := by
        simp [connectStep, read, leftEq]
      rw [← leftEq] at range
      have kept : BanInvariant (writeBanData ⟨left, time⟩) :=
        ⟨⟨range.1, range.2.trans (by decide)⟩, ⟨time, fits, rfl⟩,
          fun five => by simp only [writeBanData] at five; omega⟩
      refine ⟨_, _, result, kept, text.symm, ?_⟩
      exact flag_iff preserves years kept rfl fits

theorem commitStep_spec {now : ℤ} (years : InYears now) (punished : Bool)
    {connected : Administration} (invariant : BanInvariant connected) :
    ∃ committed, commitStep now punished connected = some committed ∧
      CommitSpec connected committed punished now := by
  cases punished with
  | false => exact ⟨_, rfl, invariant, by simp, fun _ => rfl⟩
  | true =>
      obtain ⟨time, fits, text⟩ := invariant.text
      have ditch := invariant.ditch
      have read : getBanData connected = some ⟨connected.ditch, time⟩ := by
        rw [← getBanData_banText fits, ← text]
      have result : commitStep now true connected =
          some (writeBanData (punish now ⟨connected.ditch, time⟩)) := by
        simp [commitStep, read]
      refine ⟨_, result, ?_⟩
      by_cases more : connected.ditch > 4
      · rw [punish, if_pos more]
        exact ⟨⟨⟨Int.zero_le_ofNat 1, by simp [writeBanData]⟩, ⟨time, fits, rfl⟩,
          by simp [writeBanData]⟩, fun _ same => by omega, fun _ => text.symm⟩
      · by_cases four : connected.ditch > 3
        · have same : connected.ditch = 4 := by omega
          have next : punish now ⟨connected.ditch, time⟩ = ⟨5, .utc now⟩ := by
            rw [punish, if_neg more, if_pos four]
          rw [next]
          exact ⟨⟨by simp [writeBanData], ⟨_, years.fitsText, rfl⟩, fun _ => ⟨now, years, rfl⟩⟩,
            fun _ _ => ⟨rfl, rfl⟩, fun not => absurd ⟨rfl, same⟩ not⟩
        · have next : punish now ⟨connected.ditch, time⟩ = ⟨connected.ditch + 1, time⟩ := by
            rw [punish, if_neg more, if_neg four]
          rw [next]
          refine ⟨⟨?_, ⟨time, fits, rfl⟩, fun five => ?_⟩, fun _ same => by omega,
            fun _ => text.symm⟩
          · simp only [writeBanData]
            omega
          · simp only [writeBanData] at five
            omega

structure SessionSpec (row : Administration) (session : Session) (result : SessionResult) :
    Prop where
  connectedDitch : 0 ≤ result.connected.ditch ∧ result.connected.ditch ≤ 5
  committedDitch : 0 ≤ result.committed.ditch ∧ result.committed.ditch ≤ 5
  connectedBanned : result.connected.banned = row.banned
  fifthBanned : ∀ now, session.commit = some (true, now) → result.connected.ditch = 4 →
    result.committed.ditch = 5 ∧ result.committed.banned = banText (.utc now)
  otherBanned : (∀ now, session.commit = some (true, now) → result.connected.ditch ≠ 4) →
    result.committed.banned = result.connected.banned
  flag : result.banFlag = true ↔ result.connected.ditch = 5 ∧ ∃ bannedAt, InYears bannedAt ∧
    result.connected.banned = banText (.utc bannedAt) ∧ session.connected - bannedAt < 3600

def Session.InYears (session : Session) : Prop :=
  Ban.InYears session.connected ∧
    ∀ punished now, session.commit = some (punished, now) → Ban.InYears now

theorem runSession_spec (preserves : PreservesDifferences mktime) {session : Session}
    (years : session.InYears) {row : Administration} (invariant : BanInvariant row) :
    ∃ result, runSession mktime row session = some result ∧
      BanInvariant result.committed ∧ SessionSpec row session result := by
  obtain ⟨connected, banFlag, connects, spec⟩ :=
    connectStep_spec preserves years.1 session.rejoin invariant
  cases ending : session.commit with
  | none =>
      refine ⟨⟨connected, banFlag, connected⟩, by simp [runSession, connects, ending],
        spec.invariant, spec.invariant.ditch, spec.invariant.ditch, spec.banned, ?_,
        fun _ => rfl, spec.flag⟩
      intro now commits
      simp [ending] at commits
  | some commit =>
      obtain ⟨punished, now⟩ := commit
      obtain ⟨committed, commits, commitSpec⟩ :=
        commitStep_spec (years.2 punished now ending) punished spec.invariant
      refine ⟨⟨connected, banFlag, committed⟩, by simp [runSession, connects, ending, commits],
        commitSpec.invariant, spec.invariant.ditch, commitSpec.invariant.ditch, spec.banned,
        ?_, ?_, spec.flag⟩
      · intro other same four
        rw [ending, Option.some.injEq, Prod.mk.injEq] at same
        obtain ⟨rfl, rfl⟩ := same
        exact commitSpec.fifth rfl four
      · intro never
        refine commitSpec.other fun fifth => never now ?_ fifth.2
        rw [ending, fifth.1]

/-- However a player's sessions follow each other, `Ditch` stays in its range,
the ban date is replaced only by the Commit that counts the fifth ditch, and
the flag of every reply reports a fifth ditch of less than an hour ago. -/
theorem ban_sessions (preserves : PreservesDifferences mktime) {row : Administration}
    (none_yet : row.ditch = 0) {time : BrokenDownTime} (fits : FitsText time)
    (text : row.banned = banText time) {sessions : List Session}
    (years : ∀ session ∈ sessions, session.InYears) :
    (∃ final, run (banStep mktime) row sessions = some final) ∧
    Along (banStep mktime) (fun before session after => ∃ result,
      runSession mktime before session = some result ∧ after = result.committed ∧
        SessionSpec before session result) row sessions := by
  refine run_along_of_enabled BanInvariant (fun before session invariant sessionYears => ?_)
    (.initial none_yet fits text) years
  obtain ⟨result, ran, kept, spec⟩ := runSession_spec preserves sessionYears invariant
  exact ⟨result.committed, by rw [banStep, ran, Option.map_some], kept, result, ran, rfl, spec⟩

end Steps

/-- The first five sessions of a player, each ended by a punishing Commit. -/
theorem ban_sessions_fifth :
    let row : Administration := ⟨0, "2020-01-01 00:00:00".toList⟩
    let sessions : List Session :=
      [⟨false, 1600000000, some (true, 1600000060)⟩, ⟨false, 1600000100, some (true, 1600000160)⟩,
        ⟨false, 1600000200, some (true, 1600000260)⟩, ⟨false, 1600000300, some (true, 1600000360)⟩,
        ⟨false, 1600000400, some (true, 1600000460)⟩]
    run (banStep BrokenDownTime.seconds) row sessions =
      some ⟨5, "2020-09-13 12:34:20".toList⟩ ∧
    Along (banStep BrokenDownTime.seconds) (fun before session after => ∃ result,
      runSession BrokenDownTime.seconds before session = some result ∧
        after = result.committed ∧ SessionSpec before session result) row sessions := by
  have fits : FitsText ⟨2020, 1, 1, 0, 0, 0⟩ := by constructor <;> decide
  refine ⟨by decide +kernel,
    (ban_sessions (fun _ _ _ _ => rfl) rfl fits (by decide +kernel) ?_).2⟩
  intro session member
  simp only [List.mem_cons, List.not_mem_nil, or_false] at member
  have dated : ∀ time : ℤ, 0 ≤ (BrokenDownTime.utc time).year ∧
      (BrokenDownTime.utc time).year ≤ 9999 → InYears time :=
    fun time year => ⟨BrokenDownTime.valid_utc time, year⟩
  rcases member with rfl | rfl | rfl | rfl | rfl <;>
    exact ⟨dated _ (by decide), fun _ _ commits => by cases commits; exact dated _ (by decide)⟩

end OperationFrontLine.Ban
