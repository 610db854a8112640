import OperationFrontLine.Dates.Between

/-!
# Durations

A setter of a duration takes what does not fit into its field to the next larger one, one unit
in each round of its loop.  Only the days can wrap.
-/

namespace OperationFrontLine.Dates

open OperationFrontLine.Library

namespace DateTimeDuration

def isZero (dur : DateTimeDuration) : Bool :=
  dur.days = 0 && dur.hours = 0 && dur.minutes = 0 && dur.seconds = 0 && dur.milliseconds = 0

/-- `compare`, whose results -1, 0 and 1 are an order. -/
def compare (dur rhs : DateTimeDuration) : Ordering :=
  if dur.isZero && rhs.isZero then .eq
  else
    (Ord.compare dur.days rhs.days).then <|
    (Ord.compare dur.hours rhs.hours).then <|
    (Ord.compare dur.minutes rhs.minutes).then <|
    (Ord.compare dur.seconds rhs.seconds).then <|
    Ord.compare dur.milliseconds rhs.milliseconds

def copy (dur : DateTimeDuration) : DateTimeDuration :=
  setDateTimeDuration dur.days dur.hours dur.minutes dur.seconds dur.milliseconds dur.isNegative

structure Normal (dur : DateTimeDuration) : Prop where
  days : dur.days < 2 ^ 32
  hours : dur.hours < 24
  minutes : dur.minutes < 60
  seconds : dur.seconds < 60
  milliseconds : dur.milliseconds < 1000

def total (dur : DateTimeDuration) : ℕ :=
  DateTime.amountOf dur.days dur.hours dur.minutes dur.seconds dur.milliseconds

def span : ℕ := 2 ^ 32 * DateTime.MS_PER_DAY

theorem total_eq (dur : DateTimeDuration) :
    dur.total = dur.days * 86400000 + dur.hours * 3600000 + dur.minutes * 60000 +
      dur.seconds * 1000 + dur.milliseconds := rfl

/-! ## Carrying -/

structure Passes (amount : ℕ) (dur after : DateTimeDuration) : Prop where
  normal : after.Normal
  total : after.total ≡ dur.total + amount [MOD span]

theorem passes_day {dur : DateTimeDuration} (normal : dur.Normal) :
    Passes (24 * 3600000) dur { dur with days := increment dur.days } where
  normal := { normal with days := Nat.mod_lt _ (by decide) }
  total := by
    have bounded := normal.days
    rcases Nat.lt_or_ge (dur.days + 1) (2 ^ 32) with room | last
    · have same : ({ dur with days := dur.days + 1 } : DateTimeDuration).total =
          dur.total + 24 * 3600000 := by
        simp only [total_eq]
        ring
      rw [increment_of_lt room, same]
    · have wraps : increment dur.days = 0 := by
        rw [increment, show dur.days + 1 = 2 ^ 32 by omega, Nat.mod_self]
      have same : dur.total + 24 * 3600000 =
          ({ dur with days := 0 } : DateTimeDuration).total + span := by
        simp only [total_eq, span, DateTime.MS_PER_DAY]
        omega
      rw [wraps, same]
      exact (Nat.add_mod_right _ _).symm

theorem passes_iterate {bump : DateTimeDuration → DateTimeDuration} {unit : ℕ}
    (passes : ∀ dur : DateTimeDuration, dur.Normal → Passes unit dur (bump dur)) (rounds : ℕ)
    {dur : DateTimeDuration} (normal : dur.Normal) :
    Passes (rounds * unit) dur (bump^[rounds] dur) := by
  induction rounds generalizing dur with
  | zero =>
      rw [Nat.zero_mul]
      exact ⟨normal, by rw [Function.iterate_zero_apply, Nat.add_zero]⟩
  | succ rounds inductionHypothesis =>
      have first := passes dur normal
      have rest := inductionHypothesis first.normal
      refine ⟨rest.normal, ?_⟩
      rw [Function.iterate_succ_apply]
      calc (bump^[rounds] (bump dur)).total
          ≡ (bump dur).total + rounds * unit [MOD span] := rest.total
        _ ≡ dur.total + unit + rounds * unit [MOD span] := first.total.add_right _
        _ = dur.total + (rounds + 1) * unit := by ring

structure IsField (base unit : ℕ) (field : DateTimeDuration → ℕ)
    (assign : DateTimeDuration → ℕ → DateTimeDuration) : Prop where
  base_pos : 0 < base
  divides : unit * base ∣ span
  value : ∀ dur : DateTimeDuration, dur.Normal → field dur = dur.total / unit % base
  normal : ∀ dur : DateTimeDuration, dur.Normal → ∀ value < base, (assign dur value).Normal
  total : ∀ dur value, (assign dur value).total + field dur * unit = dur.total + value * unit

section Fields

variable {base unit : ℕ} {field : DateTimeDuration → ℕ}
  {assign : DateTimeDuration → ℕ → DateTimeDuration}

/-- Full larger units leave the field as it is, also where the days wrap. -/
theorem IsField.keeps (isField : IsField base unit field assign) {dur after : DateTimeDuration}
    (normal : dur.Normal) {rounds : ℕ} (passes : Passes (rounds * (base * unit)) dur after) :
    field after = field dur := by
  have same : after.total % (unit * base) = dur.total % (unit * base) := by
    have counted : after.total ≡ dur.total + rounds * (base * unit) [MOD unit * base] :=
      passes.total.of_dvd isField.divides
    rwa [Nat.ModEq, Nat.mul_comm base, Nat.add_mul_mod_self_right] at counted
  rw [isField.value _ passes.normal, isField.value _ normal, ← Nat.mod_mul_right_div_self,
    ← Nat.mod_mul_right_div_self, same]

/-- What a setter promises: the milliseconds of its field are replaced by those that it is
given. -/
structure Replaces (replaced amount : ℕ) (dur after : DateTimeDuration) : Prop where
  normal : after.Normal
  total : after.total + replaced ≡ dur.total + amount [MOD span]

theorem IsField.carry (isField : IsField base unit field assign)
    {bump : DateTimeDuration → DateTimeDuration}
    (passes : ∀ dur : DateTimeDuration, dur.Normal → Passes (base * unit) dur (bump dur))
    {dur : DateTimeDuration} (normal : dur.Normal) (value : ℕ) :
    Replaces (field dur * unit) (value * unit) dur
      (assign (bump^[value / base] dur) (value % base)) := by
  have carried := passes_iterate passes (value / base) normal
  have kept := isField.keeps normal carried
  refine ⟨isField.normal _ carried.normal _ (Nat.mod_lt _ isField.base_pos), ?_⟩
  have split : value / base * (base * unit) + value % base * unit = value * unit := by
    rw [← Nat.mul_assoc, ← Nat.add_mul, Nat.div_add_mod']
  rw [← kept, isField.total, ← split, ← Nat.add_assoc]
  exact carried.total.add_right _

theorem IsField.bump (isField : IsField base unit field assign) (small : base < 2 ^ 32)
    {dur after : DateTimeDuration} (normal : dur.Normal)
    (replaces : Replaces (field dur * unit) (increment (field dur) * unit) dur after) :
    Passes unit dur after where
  normal := replaces.normal
  total := by
    have inside : field dur < base := by
      rw [isField.value dur normal]
      exact Nat.mod_lt _ isField.base_pos
    have total := replaces.total
    rw [increment_of_lt (by omega), Nat.succ_mul, ← Nat.add_assoc, Nat.add_right_comm] at total
    exact Nat.ModEq.add_right_cancel' _ total

end Fields

/-! ## The units -/

theorem isField_hours : IsField 24 3600000 hours fun dur hours => { dur with hours := hours } where
  base_pos := by decide
  divides := by decide
  value dur normal := by
    have hours := normal.hours
    have minutes := normal.minutes
    have seconds := normal.seconds
    have milliseconds := normal.milliseconds
    rw [total_eq]
    omega
  normal dur normal value lt := { normal with hours := lt }
  total dur value := by
    simp only [total_eq]
    omega

theorem isField_minutes :
    IsField 60 60000 minutes fun dur minutes => { dur with minutes := minutes } where
  base_pos := by decide
  divides := by decide
  value dur normal := by
    have minutes := normal.minutes
    have seconds := normal.seconds
    have milliseconds := normal.milliseconds
    rw [total_eq]
    omega
  normal dur normal value lt := { normal with minutes := lt }
  total dur value := by
    simp only [total_eq]
    omega

theorem isField_seconds :
    IsField 60 1000 seconds fun dur seconds => { dur with seconds := seconds } where
  base_pos := by decide
  divides := by decide
  value dur normal := by
    have seconds := normal.seconds
    have milliseconds := normal.milliseconds
    rw [total_eq]
    omega
  normal dur normal value lt := { normal with seconds := lt }
  total dur value := by
    simp only [total_eq]
    omega

theorem isField_milliseconds :
    IsField 1000 1 milliseconds fun dur milliseconds => { dur with milliseconds := milliseconds }
    where
  base_pos := by decide
  divides := by decide
  value dur normal := by
    have milliseconds := normal.milliseconds
    rw [total_eq]
    omega
  normal dur normal value lt := { normal with milliseconds := lt }
  total dur value := by
    simp only [total_eq]
    omega

section Setters

variable {dur : DateTimeDuration} (normal : dur.Normal)

include normal

theorem setDays_spec {days : ℕ} (word : days < 2 ^ 32) :
    Replaces (dur.days * 86400000) (days * 86400000) dur { dur with days := days } where
  normal := { normal with days := word }
  total := congrArg (· % span) (by simp only [total_eq]; omega)

theorem setHours_spec (hours : ℕ) :
    Replaces (dur.hours * 3600000) (hours * 3600000) dur (dur.setHours hours) :=
  isField_hours.carry (fun _ => passes_day) normal hours

theorem setMinutes_spec (minutes : ℕ) :
    Replaces (dur.minutes * 60000) (minutes * 60000) dur (dur.setMinutes minutes) :=
  isField_minutes.carry (fun _ normal => isField_hours.bump (by decide) normal
    (setHours_spec normal _)) normal minutes

theorem setSeconds_spec (seconds : ℕ) :
    Replaces (dur.seconds * 1000) (seconds * 1000) dur (dur.setSeconds seconds) :=
  isField_seconds.carry (fun _ normal => isField_minutes.bump (by decide) normal
    (setMinutes_spec normal _)) normal seconds

theorem setMilliseconds_spec (milliseconds : ℕ) :
    Replaces (dur.milliseconds * 1) (milliseconds * 1) dur (dur.setMilliseconds milliseconds) :=
  isField_milliseconds.carry (fun _ normal => isField_seconds.bump (by decide) normal
    (setSeconds_spec normal _)) normal milliseconds

end Setters

/-! ## What a setter leaves -/

section Keeps

variable {Field : Type} {field : DateTimeDuration → Field}
  (ofDays : ∀ (dur : DateTimeDuration) (days : ℕ), field { dur with days := days } = field dur)
  (ofHours : ∀ (dur : DateTimeDuration) (hours : ℕ), field { dur with hours := hours } = field dur)
  (ofMinutes : ∀ (dur : DateTimeDuration) (minutes : ℕ),
    field { dur with minutes := minutes } = field dur)
  (ofSeconds : ∀ (dur : DateTimeDuration) (seconds : ℕ),
    field { dur with seconds := seconds } = field dur)

theorem iterate_keeps {bump : DateTimeDuration → DateTimeDuration}
    (keeps : ∀ dur, field (bump dur) = field dur) (rounds : ℕ) (dur : DateTimeDuration) :
    field (bump^[rounds] dur) = field dur := by
  induction rounds generalizing dur with
  | zero => rfl
  | succ rounds inductionHypothesis =>
      rw [Function.iterate_succ_apply, inductionHypothesis, keeps]

include ofDays ofHours

theorem setHours_keeps (dur : DateTimeDuration) (hours : ℕ) :
    field (dur.setHours hours) = field dur :=
  (ofHours _ _).trans (iterate_keeps (fun _ => ofDays _ _) _ dur)

include ofMinutes

theorem setMinutes_keeps (dur : DateTimeDuration) (minutes : ℕ) :
    field (dur.setMinutes minutes) = field dur :=
  (ofMinutes _ _).trans (iterate_keeps (fun _ => setHours_keeps ofDays ofHours _ _) _ dur)

include ofSeconds

theorem setSeconds_keeps (dur : DateTimeDuration) (seconds : ℕ) :
    field (dur.setSeconds seconds) = field dur :=
  (ofSeconds _ _).trans
    (iterate_keeps (fun _ => setMinutes_keeps ofDays ofHours ofMinutes _ _) _ dur)

end Keeps

/-! ## Any calls -/

inductive Setter where
  | setDays (days : ℕ)
  | setHours (hours : ℕ)
  | setMinutes (minutes : ℕ)
  | setSeconds (seconds : ℕ)
  | setMilliseconds (milliseconds : ℕ)
  | setIsNegative (isNegative : Bool)
  deriving DecidableEq, Repr

namespace Setter

def call (dur : DateTimeDuration) : Setter → DateTimeDuration
  | .setDays days => { dur with days := days }
  | .setHours hours => dur.setHours hours
  | .setMinutes minutes => dur.setMinutes minutes
  | .setSeconds seconds => dur.setSeconds seconds
  | .setMilliseconds milliseconds => dur.setMilliseconds milliseconds
  | .setIsNegative isNegative => { dur with isNegative := isNegative }

def Words : Setter → Prop
  | .setDays days => days < 2 ^ 32
  | _ => True

def replaced (dur : DateTimeDuration) : Setter → ℕ
  | .setDays _ => dur.days * 86400000
  | .setHours _ => dur.hours * 3600000
  | .setMinutes _ => dur.minutes * 60000
  | .setSeconds _ => dur.seconds * 1000
  | .setMilliseconds _ => dur.milliseconds * 1
  | .setIsNegative _ => 0

def amount : Setter → ℕ
  | .setDays days => days * 86400000
  | .setHours hours => hours * 3600000
  | .setMinutes minutes => minutes * 60000
  | .setSeconds seconds => seconds * 1000
  | .setMilliseconds milliseconds => milliseconds * 1
  | .setIsNegative _ => 0

theorem call_spec {dur : DateTimeDuration} (normal : dur.Normal) {setter : Setter}
    (words : setter.Words) :
    Replaces (setter.replaced dur) setter.amount dur (setter.call dur) := by
  cases setter with
  | setDays days => exact setDays_spec normal words
  | setHours hours => exact setHours_spec normal hours
  | setMinutes minutes => exact setMinutes_spec normal minutes
  | setSeconds seconds => exact setSeconds_spec normal seconds
  | setMilliseconds milliseconds => exact setMilliseconds_spec normal milliseconds
  | setIsNegative isNegative =>
      exact ⟨⟨normal.days, normal.hours, normal.minutes, normal.seconds, normal.milliseconds⟩,
        Nat.ModEq.refl _⟩

def runs (dur : DateTimeDuration) (calls : List Setter) : DateTimeDuration := calls.foldl call dur

def allReplaced (dur : DateTimeDuration) : List Setter → ℕ
  | [] => 0
  | setter :: calls => setter.replaced dur + allReplaced (setter.call dur) calls

theorem runs_spec {dur : DateTimeDuration} (normal : dur.Normal) {calls : List Setter}
    (words : ∀ setter ∈ calls, setter.Words) :
    Replaces (allReplaced dur calls) (calls.map amount).sum dur (runs dur calls) := by
  induction calls generalizing dur with
  | nil => exact ⟨normal, Nat.ModEq.refl _⟩
  | cons setter calls inductionHypothesis =>
      obtain ⟨word, words⟩ := List.forall_mem_cons.mp words
      have first := call_spec normal word
      have rest := inductionHypothesis first.normal words
      refine ⟨rest.normal, ?_⟩
      rw [allReplaced, List.map_cons, List.sum_cons]
      calc (runs dur (setter :: calls)).total +
            (setter.replaced dur + allReplaced (setter.call dur) calls)
          = (runs (setter.call dur) calls).total + allReplaced (setter.call dur) calls +
              setter.replaced dur := by rw [runs, List.foldl_cons, ← runs]; ring
        _ ≡ (setter.call dur).total + (calls.map amount).sum + setter.replaced dur [MOD span] :=
            rest.total.add_right _
        _ = (setter.call dur).total + setter.replaced dur + (calls.map amount).sum := by ring
        _ ≡ dur.total + setter.amount + (calls.map amount).sum [MOD span] := first.total.add_right _
        _ = dur.total + (setter.amount + (calls.map amount).sum) := by ring

end Setter

/-! ## Constructors and comparisons -/

section Constructor

variable (days hours minutes seconds milliseconds : ℕ) (isNegative : Bool)

/-- A constructor is a run of setters over fields that they do not read. -/
theorem setDateTimeDuration_runs :
    setDateTimeDuration days hours minutes seconds milliseconds isNegative =
      Setter.runs ⟨days, 0, 0, 0, 0, isNegative⟩ [.setHours hours, .setMinutes minutes,
        .setSeconds seconds, .setMilliseconds milliseconds] := rfl

theorem setDateTimeDuration_replaced :
    Setter.allReplaced ⟨days, 0, 0, 0, 0, isNegative⟩ [.setHours hours, .setMinutes minutes,
      .setSeconds seconds, .setMilliseconds milliseconds] = 0 := by
  let dur : DateTimeDuration := ⟨days, 0, 0, 0, 0, isNegative⟩
  let inHours := dur.setHours hours
  let inMinutes := inHours.setMinutes minutes
  have minutesThen : inHours.minutes = 0 :=
    setHours_keeps (fun _ _ => rfl) (fun _ _ => rfl) dur hours
  have secondsThen : inMinutes.seconds = 0 :=
    (setMinutes_keeps (fun _ _ => rfl) (fun _ _ => rfl) (fun _ _ => rfl) inHours minutes).trans
      (setHours_keeps (fun _ _ => rfl) (fun _ _ => rfl) dur hours)
  have millisecondsThen : (inMinutes.setSeconds seconds).milliseconds = 0 :=
    (setSeconds_keeps (fun _ _ => rfl) (fun _ _ => rfl) (fun _ _ => rfl) (fun _ _ => rfl) inMinutes
      seconds).trans <|
    (setMinutes_keeps (fun _ _ => rfl) (fun _ _ => rfl) (fun _ _ => rfl) inHours minutes).trans
      (setHours_keeps (fun _ _ => rfl) (fun _ _ => rfl) dur hours)
  calc _ = dur.hours * 3600000 + (inHours.minutes * 60000 + (inMinutes.seconds * 1000 +
        ((inMinutes.setSeconds seconds).milliseconds * 1 + 0))) := rfl
    _ = 0 := by simp only [minutesThen, secondsThen, millisecondsThen, dur, Nat.zero_mul]

theorem setDateTimeDuration_spec {days : ℕ} (word : days < 2 ^ 32) :
    (setDateTimeDuration days hours minutes seconds milliseconds isNegative).Normal ∧
      (setDateTimeDuration days hours minutes seconds milliseconds isNegative).total ≡
        DateTime.amountOf days hours minutes seconds milliseconds [MOD span] := by
  let calls : List Setter := [.setHours hours, .setMinutes minutes, .setSeconds seconds,
    .setMilliseconds milliseconds]
  have start : (⟨days, 0, 0, 0, 0, isNegative⟩ : DateTimeDuration).Normal :=
    ⟨word, by simp, by simp, by simp, by simp⟩
  have words : ∀ setter ∈ calls, setter.Words := by simp [calls, Setter.Words]
  obtain ⟨normal, total⟩ := Setter.runs_spec start words
  rw [setDateTimeDuration_replaced, Nat.add_zero] at total
  rw [setDateTimeDuration_runs]
  refine ⟨normal, total.trans (congrArg (· % span) ?_)⟩
  simp only [calls, List.map_cons, List.map_nil, List.sum_cons, List.sum_nil, Setter.amount,
    total_eq, DateTime.amountOf, DateTime.MS_PER_DAY]
  omega

end Constructor

theorem Normal.copy {dur : DateTimeDuration} (normal : dur.Normal) : dur.copy = dur :=
  setDateTimeDuration_eq _ normal.hours normal.minutes normal.seconds normal.milliseconds

theorem isZero_iff {dur : DateTimeDuration} : dur.isZero = true ↔ dur.total = 0 := by
  simp only [isZero, Bool.and_eq_true, decide_eq_true_eq, total_eq]
  omega

theorem compare_digits {unit high low highToo lowToo : ℕ} (lt : low < unit)
    (ltToo : lowToo < unit) :
    Ord.compare (high * unit + low) (highToo * unit + lowToo) =
      (Ord.compare high highToo).then (Ord.compare low lowToo) := by
  rcases lt_trichotomy high highToo with before | rfl | after
  · have room := Nat.mul_le_mul_right unit (Nat.succ_le_of_lt before)
    rw [Nat.succ_mul] at room
    rw [Nat.compare_eq_lt.mpr before, Ordering.lt_then]
    exact Nat.compare_eq_lt.mpr (by omega)
  · rw [Nat.compare_eq_eq.mpr rfl, Ordering.eq_then]
    rcases lt_trichotomy low lowToo with before | rfl | after
    · rw [Nat.compare_eq_lt.mpr before, Nat.compare_eq_lt.mpr (Nat.add_lt_add_left before _)]
    · rw [Nat.compare_eq_eq.mpr rfl, Nat.compare_eq_eq.mpr rfl]
    · rw [Nat.compare_eq_gt.mpr after, Nat.compare_eq_gt.mpr (Nat.add_lt_add_left after _)]
  · have room := Nat.mul_le_mul_right unit (Nat.succ_le_of_lt after)
    rw [Nat.succ_mul] at room
    rw [Nat.compare_eq_gt.mpr after, Ordering.gt_then]
    exact Nat.compare_eq_gt.mpr (by omega)

theorem total_digits (dur : DateTimeDuration) :
    dur.total = dur.days * 86400000 + (dur.hours * 3600000 + (dur.minutes * 60000 +
      (dur.seconds * 1000 + dur.milliseconds))) := by
  rw [total_eq]
  ring

/-- The fields are compared in the order of their units; the sign is not. -/
theorem compare_eq {dur rhs : DateTimeDuration} (normal : dur.Normal) (normalToo : rhs.Normal) :
    dur.compare rhs = Ord.compare dur.total rhs.total := by
  rw [compare]
  split
  · rename_i zeros
    obtain ⟨zero, zeroToo⟩ := Bool.and_eq_true_iff.mp zeros
    rw [isZero_iff.mp zero, isZero_iff.mp zeroToo]
    rfl
  · have hours := normal.hours
    have minutes := normal.minutes
    have seconds := normal.seconds
    have milliseconds := normal.milliseconds
    have hoursToo := normalToo.hours
    have minutesToo := normalToo.minutes
    have secondsToo := normalToo.seconds
    have millisecondsToo := normalToo.milliseconds
    rw [total_digits, total_digits, compare_digits (by omega) (by omega),
      compare_digits (by omega) (by omega), compare_digits (by omega) (by omega),
      compare_digits milliseconds millisecondsToo]

/-- The durations that a program can make: all come from the constructors and the setters, whose
days are 32 bits wide. -/
inductive Made : DateTimeDuration → Prop where
  | constructor (days hours minutes seconds milliseconds : ℕ) (isNegative : Bool)
      (word : days < 2 ^ 32) :
      Made (setDateTimeDuration days hours minutes seconds milliseconds isNegative)
  | setter {dur : DateTimeDuration} (made : Made dur) (setter : Setter) (words : setter.Words) :
      Made (setter.call dur)
  | copy {dur : DateTimeDuration} (made : Made dur) : Made dur.copy

theorem Made.normal {dur : DateTimeDuration} (made : Made dur) : dur.Normal := by
  induction made with
  | constructor days hours minutes seconds milliseconds isNegative word =>
      exact (setDateTimeDuration_spec hours minutes seconds milliseconds isNegative word).1
  | setter _ setter words normal => exact (setter.call_spec normal words).normal
  | copy _ normal => exact normal.copy.symm ▸ normal

/-- However durations are made, their fields stay in their ranges and no millisecond is lost but
with the days that wrap: a constructor has those of its numbers, and any calls of setters
exchange the ones that they find for the ones that they are given.  Copies are equal, and the
order of two durations is that of their milliseconds, whatever their signs. -/
theorem durations_exact :
    (∀ days hours minutes seconds milliseconds isNegative, days < 2 ^ 32 →
      (setDateTimeDuration days hours minutes seconds milliseconds isNegative).total ≡
        DateTime.amountOf days hours minutes seconds milliseconds [MOD span]) ∧
    (∀ dur : DateTimeDuration, Made dur → dur.Normal ∧ dur.copy = dur ∧
      (∀ calls : List Setter, (∀ setter ∈ calls, setter.Words) →
        (Setter.runs dur calls).total + Setter.allReplaced dur calls ≡
          dur.total + (calls.map Setter.amount).sum [MOD span]) ∧
      ∀ rhs : DateTimeDuration, Made rhs →
        dur.compare rhs = Ord.compare dur.total rhs.total) := by
  refine ⟨fun days hours minutes seconds milliseconds isNegative word =>
    (setDateTimeDuration_spec hours minutes seconds milliseconds isNegative word).2,
    fun dur made => ⟨made.normal, made.normal.copy, fun calls words =>
      (Setter.runs_spec made.normal words).total, fun rhs madeToo =>
        compare_eq made.normal madeToo.normal⟩⟩

/-- A day and a half, given in hours, is less than two days ago. -/
example : (setDateTimeDuration 0 36 0 0 0 false).compare (setDateTimeDuration 2 0 0 0 0 true) =
    .lt := by decide

end DateTimeDuration

end OperationFrontLine.Dates
