import OperationFrontLine.Vehicles.Respawn

/-!
# Every slot keeps its vehicle

The vehicle of a slot is replaced when the looks since its last use say so, never sooner after
that use than its times allow, and by one of the same kind with the same settings; no vehicle
is left behind, and the clients' lists follow.
-/

namespace OperationFrontLine.Vehicles

open OperationFrontLine.Library

universe u v

variable {Uid : Type v} {Kind Place Code : Type u}

/-! ## One look -/

namespace Sight

def abMode (initDmg : ℚ) (sight : Sight) : CountMode :=
  if sight.away initDmg then if sight.unused then .count else .reset else .hold

def rsMode (initDmg : ℚ) (sight : Sight) : CountMode :=
  if sight.away initDmg then
    if sight.unused then if sight.wrecked then .count else .hold else .reset
  else .hold

theorem rsMode_reset {initDmg : ℚ} {sight : Sight} (resets : sight.abMode initDmg = .reset) :
    sight.rsMode initDmg = .reset := by
  unfold abMode at resets
  unfold rsMode
  split at resets
  · rename_i away
    split at resets
    · cases resets
    · rename_i used
      rw [if_pos away, if_neg used]
  · cases resets

end Sight

namespace Variables

variable (values : Variables Place) (sight : Sight)

/-- The vehicle is dead when a counter that should lose a second has none left. -/
theorem look_dead : (values.look sight).2 = true ↔
    sight.abMode values.initDmg = .count ∧
      (values.abCount ≤ 0 ∨ sight.wrecked = true ∧ values.rsCount ≤ 0) := by
  unfold look Sight.abMode
  by_cases away : sight.away values.initDmg = true
  · by_cases unused : sight.unused = true
    · cases wrecked : sight.wrecked with
      | true =>
          by_cases rs : 0 < values.rsCount <;> by_cases ab : 0 < values.abCount <;>
            simp [away, unused, rs, ab, not_le.mpr, not_lt.mp]
      | false =>
          by_cases ab : 0 < values.abCount <;>
            simp [away, unused, ab, not_le.mpr, not_lt.mp]
    · simp [away, unused]
  · simp [away]

/-- Otherwise both counters are advanced, and nothing else is changed. -/
theorem look_alive (lives : (values.look sight).2 = false) :
    (values.look sight).1 = { values with
      abCount := (sight.abMode values.initDmg).advance values.abTime values.abCount
      rsCount := (sight.rsMode values.initDmg).advance values.rsTime values.rsCount } := by
  unfold look at lives ⊢
  unfold Sight.abMode Sight.rsMode
  by_cases away : sight.away values.initDmg = true
  · by_cases unused : sight.unused = true
    · cases wrecked : sight.wrecked with
      | true =>
          by_cases rs : 0 < values.rsCount <;> by_cases ab : 0 < values.abCount <;>
            simp_all [CountMode.advance]
      | false =>
          by_cases ab : 0 < values.abCount <;> simp_all [CountMode.advance]
    · simp [away, unused, CountMode.advance]
  · simp [away, CountMode.advance]

theorem look_settings : (values.look sight).1.initPos = values.initPos ∧
    (values.look sight).1.initDir = values.initDir ∧
    (values.look sight).1.abTime = values.abTime ∧
    (values.look sight).1.rsTime = values.rsTime ∧
    (values.look sight).1.nearDist = values.nearDist := by
  unfold look
  split
  · split
    · dsimp only
      split <;> split <;> (try split) <;> exact ⟨rfl, rfl, rfl, rfl, rfl⟩
    · exact ⟨rfl, rfl, rfl, rfl, rfl⟩
  · exact ⟨rfl, rfl, rfl, rfl, rfl⟩

end Variables

/-! ## One vehicle of the loop -/

namespace Depot

variable {depot : Depot Uid Kind Place Code}

/-- The looks at a vehicle, newest first. -/
def sights (depot : Depot Uid Kind Place Code) (vehicle : ℕ) : List Sight :=
  (depot.seen vehicle).map Prod.snd

/-- A vehicle is what its slot says, and its counters are as its looks have left them. -/
structure Fits (slot : Slot Kind Place Code) (depot : Depot Uid Kind Place Code)
    (vehicle : ℕ) : Prop where
  kind : depot.kind vehicle = slot.kind
  initPos : (depot.values vehicle).initPos = slot.initPos
  initDir : (depot.values vehicle).initDir = slot.initDir
  abTime : (depot.values vehicle).abTime = slot.abTime
  rsTime : (depot.values vehicle).rsTime = slot.rsTime
  nearDist : (depot.values vehicle).nearDist = slot.nearDist
  initialised : depot.initialised vehicle = [slot.code]
  abCount : (depot.values vehicle).abCount = slot.abTime -
    counted (Sight.abMode (depot.values vehicle).initDmg) (depot.sights vehicle)
  rsCount : (depot.values vehicle).rsCount = slot.rsTime -
    counted (Sight.rsMode (depot.values vehicle).initDmg) (depot.sights vehicle)

/-- Every slot has its vehicle, and there are no vehicles but these and the deleted ones. -/
structure Kept (slots : List (Slot Kind Place Code)) (depot : Depot Uid Kind Place Code) :
    Prop where
  length : depot.system.vehicleList.length = slots.length
  initList : depot.initList = slots.map Slot.code
  vehicles : (depot.system.vehicleList ++ depot.deleted).Perm (List.range depot.nextVehicle)
  fits : ∀ (index vehicle : ℕ) (slot : Slot Kind Place Code),
    depot.system.vehicleList[index]? = some vehicle → slots[index]? = some slot →
      depot.Fits slot vehicle

structure SameVehicle (before after : Depot Uid Kind Place Code) (vehicle : ℕ) : Prop where
  kind : after.kind vehicle = before.kind vehicle
  values : after.values vehicle = before.values vehicle
  initialised : after.initialised vehicle = before.initialised vehicle
  seen : after.seen vehicle = before.seen vehicle

theorem SameVehicle.fits {before after : Depot Uid Kind Place Code} {vehicle : ℕ}
    {slot : Slot Kind Place Code} (same : before.SameVehicle after vehicle)
    (fits : before.Fits slot vehicle) : after.Fits slot vehicle := by
  constructor
  · rw [same.kind, fits.kind]
  · rw [same.values, fits.initPos]
  · rw [same.values, fits.initDir]
  · rw [same.values, fits.abTime]
  · rw [same.values, fits.rsTime]
  · rw [same.values, fits.nearDist]
  · rw [same.initialised, fits.initialised]
  · rw [same.values, fits.abCount, sights, sights, same.seen]
  · rw [same.values, fits.rsCount, sights, sights, same.seen]

/-- The vehicle of a slot is to be replaced, by the looks at it and the present one. -/
def Due (slot : Slot Kind Place Code) (depot : Depot Uid Kind Place Code) (vehicle : ℕ)
    (sight : Sight) : Prop :=
  sight.abMode (depot.values vehicle).initDmg = .count ∧
    (slot.abTime ≤ counted (Sight.abMode (depot.values vehicle).initDmg) (depot.sights vehicle) ∨
      sight.wrecked = true ∧ slot.rsTime ≤
        counted (Sight.rsMode (depot.values vehicle).initDmg) (depot.sights vehicle))

theorem Fits.look_dead_iff {slot : Slot Kind Place Code} {vehicle : ℕ}
    (fits : depot.Fits slot vehicle) (sight : Sight) :
    ((depot.values vehicle).look sight).2 = true ↔ depot.Due slot vehicle sight := by
  rw [Variables.look_dead, Due, fits.abCount, fits.rsCount, sub_nonpos, sub_nonpos]

namespace Kept

variable {slots : List (Slot Kind Place Code)}

theorem nodup (kept : depot.Kept slots) :
    (depot.system.vehicleList ++ depot.deleted).Nodup :=
  kept.vehicles.nodup_iff.mpr List.nodup_range

theorem lt_nextVehicle (kept : depot.Kept slots) {index vehicle : ℕ}
    (found : depot.system.vehicleList[index]? = some vehicle) : vehicle < depot.nextVehicle :=
  List.mem_range.mp (kept.vehicles.subset
    (List.mem_append_left _ (List.mem_of_getElem? found)))

theorem index_unique (kept : depot.Kept slots) {first second vehicle : ℕ}
    (atFirst : depot.system.vehicleList[first]? = some vehicle)
    (atSecond : depot.system.vehicleList[second]? = some vehicle) : first = second := by
  have distinct := (List.nodup_append.mp kept.nodup).1
  have inside := (List.getElem?_eq_some_iff.mp atFirst).1
  exact (List.getElem?_inj inside distinct).mp (atFirst.trans atSecond.symm)

end Kept

variable [DecidableEq Uid]

def looked (depot : Depot Uid Kind Place Code) (now : ℚ) (sight : Sight) (vehicle : ℕ) :
    Depot Uid Kind Place Code :=
  { depot with
    values := Function.update depot.values vehicle ((depot.values vehicle).look sight).1
    seen := Function.update depot.seen vehicle ((now, sight) :: depot.seen vehicle) }

theorem visit_eq {now : ℚ} {looks : ℕ → Sight × ℚ} {index vehicle : ℕ}
    (found : depot.system.vehicleList[index]? = some vehicle) :
    depot.visit now looks index =
      if ((depot.values vehicle).look (looks index).1).2 then
        (depot.looked now (looks index).1 vehicle).respawnVehicle vehicle index (looks index).2
      else depot.looked now (looks index).1 vehicle := by
  rw [visit, found]
  rfl

omit [DecidableEq Uid] in
theorem sameVehicle_looked (now : ℚ) (sight : Sight) {vehicle other : ℕ}
    (different : other ≠ vehicle) :
    depot.SameVehicle (depot.looked now sight vehicle) other where
  kind := rfl
  values := Function.update_of_ne different _ _
  initialised := rfl
  seen := Function.update_of_ne different _ _

theorem sameVehicle_respawnVehicle (vehicle index : ℕ) (damage : ℚ) {other : ℕ}
    (old : other < depot.nextVehicle) :
    depot.SameVehicle (depot.respawnVehicle vehicle index damage) other where
  kind := Function.update_of_ne (ne_of_lt old) _ _
  values := Function.update_of_ne (ne_of_lt old) _ _
  initialised := Function.update_of_ne (ne_of_lt old) _ _
  seen := Function.update_of_ne (ne_of_lt old) _ _

omit [DecidableEq Uid] in
theorem SameVehicle.trans {first second third : Depot Uid Kind Place Code} {vehicle : ℕ}
    (one : first.SameVehicle second vehicle) (two : second.SameVehicle third vehicle) :
    first.SameVehicle third vehicle where
  kind := two.kind.trans one.kind
  values := two.values.trans one.values
  initialised := two.initialised.trans one.initialised
  seen := two.seen.trans one.seen

section Visit

variable {slots : List (Slot Kind Place Code)} {now : ℚ} {looks : ℕ → Sight × ℚ}
  {index vehicle : ℕ}

theorem Kept.visit_other (kept : depot.Kept slots)
    (found : depot.system.vehicleList[index]? = some vehicle) {other : ℕ}
    (different : other ≠ index) :
    (depot.visit now looks index).system.vehicleList[other]? =
        depot.system.vehicleList[other]? ∧
      ∀ neighbour, depot.system.vehicleList[other]? = some neighbour →
        depot.SameVehicle (depot.visit now looks index) neighbour := by
  rw [visit_eq found]
  have apart {neighbour : ℕ} (there : depot.system.vehicleList[other]? = some neighbour) :
      neighbour ≠ vehicle := by
    rintro rfl
    exact different (kept.index_unique there found)
  split
  · refine ⟨List.getElem?_set_ne (Ne.symm different), fun neighbour there => ?_⟩
    exact (sameVehicle_looked now _ (apart there)).trans
      (sameVehicle_respawnVehicle vehicle index _ (kept.lt_nextVehicle there))
  · exact ⟨rfl, fun neighbour there => sameVehicle_looked now _ (apart there)⟩

/-- The vehicle of the slot is replaced when it is due, and otherwise it has been looked at. -/
theorem Kept.visit_self (kept : depot.Kept slots)
    (found : depot.system.vehicleList[index]? = some vehicle)
    {slot : Slot Kind Place Code} (ofSlot : slots[index]? = some slot) :
    (depot.Due slot vehicle (looks index).1 →
      (depot.visit now looks index).system.vehicleList[index]? = some depot.nextVehicle ∧
        (depot.visit now looks index).seen depot.nextVehicle = []) ∧
    (¬depot.Due slot vehicle (looks index).1 →
      (depot.visit now looks index).system.vehicleList[index]? = some vehicle ∧
        (depot.visit now looks index).seen vehicle =
          (now, (looks index).1) :: depot.seen vehicle) := by
  have inside := (List.getElem?_eq_some_iff.mp found).1
  rw [visit_eq found, ← (kept.fits index vehicle slot found ofSlot).look_dead_iff]
  constructor
  · intro dead
    rw [if_pos dead]
    exact ⟨List.getElem?_set_self inside, Function.update_self ..⟩
  · intro lives
    rw [if_neg lives]
    exact ⟨found, Function.update_self ..⟩

omit [DecidableEq Uid] in
theorem Fits.looked {slot : Slot Kind Place Code} (fits : depot.Fits slot vehicle)
    {sight : Sight} (lives : ((depot.values vehicle).look sight).2 = false) (now : ℚ) :
    (depot.looked now sight vehicle).Fits slot vehicle := by
  have values : (depot.looked now sight vehicle).values vehicle =
      { depot.values vehicle with
        abCount := (sight.abMode (depot.values vehicle).initDmg).advance
          (depot.values vehicle).abTime (depot.values vehicle).abCount
        rsCount := (sight.rsMode (depot.values vehicle).initDmg).advance
          (depot.values vehicle).rsTime (depot.values vehicle).rsCount } :=
    (Function.update_self ..).trans (Variables.look_alive _ _ lives)
  have sights : (depot.looked now sight vehicle).sights vehicle =
      sight :: depot.sights vehicle := by
    simp [Depot.sights, Depot.looked]
  constructor
  · exact fits.kind
  · rw [values]
    exact fits.initPos
  · rw [values]
    exact fits.initDir
  · rw [values]
    exact fits.abTime
  · rw [values]
    exact fits.rsTime
  · rw [values]
    exact fits.nearDist
  · exact fits.initialised
  · rw [values, sights]
    simp only
    rw [fits.abCount, fits.abTime, advance_counted]
  · rw [values, sights]
    simp only
    rw [fits.rsCount, fits.rsTime, advance_counted]

theorem fits_respawnVehicle {slot : Slot Kind Place Code} (fits : depot.Fits slot vehicle)
    (script : depot.initList[index]? = some slot.code) (sight : Sight) (damage : ℚ) :
    ((depot.looked now sight vehicle).respawnVehicle vehicle index damage).Fits slot
      depot.nextVehicle := by
  obtain ⟨initPos, initDir, abTime, rsTime, nearDist⟩ :=
    Variables.look_settings (depot.values vehicle) sight
  have values : ((depot.looked now sight vehicle).respawnVehicle vehicle index damage).values
      depot.nextVehicle = (((depot.values vehicle).look sight).1).renewed damage := by
    refine (Function.update_self ..).trans (congrArg (Variables.renewed · damage) ?_)
    exact Function.update_self ..
  have sights : ((depot.looked now sight vehicle).respawnVehicle vehicle index damage).sights
      depot.nextVehicle = [] := by
    simp [Depot.sights, Depot.respawnVehicle, Depot.looked]
  constructor
  · exact (Function.update_self ..).trans fits.kind
  · rw [values]
    exact initPos.trans fits.initPos
  · rw [values]
    exact initDir.trans fits.initDir
  · rw [values]
    exact abTime.trans fits.abTime
  · rw [values]
    exact rsTime.trans fits.rsTime
  · rw [values]
    exact nearDist.trans fits.nearDist
  · refine (Function.update_self ..).trans ?_
    have same : (depot.looked now sight vehicle).initList[index]? = some slot.code := script
    rw [same]
  · rw [values, sights]
    simp [Variables.renewed, counted, abTime, fits.abTime]
  · rw [values, sights]
    simp [Variables.renewed, counted, rsTime, fits.rsTime]

/-- Where an entry of a list is replaced, the old one has gone to the deleted ones. -/
theorem perm_replace {list deleted : List ℕ} (found : list[index]? = some vehicle) (new : ℕ) :
    (list.set index new ++ vehicle :: deleted).Perm (new :: (list ++ deleted)) := by
  obtain ⟨inside, rfl⟩ := List.getElem?_eq_some_iff.mp found
  have replaced := List.set_perm_cons_eraseIdx inside new
  have whole := List.getElem_cons_eraseIdx_perm inside
  have moved : (list.eraseIdx index ++ list[index] :: deleted).Perm
      (list[index] :: list.eraseIdx index ++ deleted) := List.perm_middle
  exact (replaced.append_right _).trans
    ((moved.trans (whole.append_right deleted)).cons new)

theorem Kept.visit (kept : depot.Kept slots) (inside : index < slots.length) :
    (depot.visit now looks index).Kept slots := by
  have isInside : index < depot.system.vehicleList.length := kept.length ▸ inside
  obtain ⟨vehicle, found⟩ : ∃ vehicle, depot.system.vehicleList[index]? = some vehicle :=
    ⟨_, List.getElem?_eq_getElem isInside⟩
  have ofSlot : slots[index]? = some slots[index] := List.getElem?_eq_getElem inside
  have fits := kept.fits index vehicle _ found ofSlot
  have fitsOther (other neighbour : ℕ) (slot : Slot Kind Place Code) (different : other ≠ index)
      (there : (depot.visit now looks index).system.vehicleList[other]? = some neighbour)
      (otherSlot : slots[other]? = some slot) :
      (depot.visit now looks index).Fits slot neighbour := by
    obtain ⟨list, same⟩ := @Kept.visit_other _ _ _ _ depot _ slots now looks index vehicle kept
      found other different
    rw [list] at there
    exact (same neighbour there).fits (kept.fits other neighbour slot there otherSlot)
  have visited := @visit_eq _ _ _ _ depot _ now looks index vehicle found
  split at visited
  · have script : depot.initList[index]? = some slots[index].code := by
      rw [kept.initList, List.getElem?_map, ofSlot]
      rfl
    have new := @fits_respawnVehicle _ _ _ _ depot _ now index vehicle _ fits script (looks index).1
      (looks index).2
    constructor
    · rw [visited]
      exact List.length_set.trans kept.length
    · rw [visited]
      exact kept.initList
    · rw [visited]
      have replaced := @perm_replace index vehicle _ depot.deleted found depot.nextVehicle
      refine replaced.trans ?_
      exact ((kept.vehicles.cons _).trans (List.perm_append_singleton _ _).symm).trans
        (List.Perm.of_eq List.range_succ.symm)
    · intro other neighbour slot there otherSlot
      by_cases same : other = index
      · subst same
        rw [visited] at there ⊢
        have isNew : (depot.system.vehicleList.set other depot.nextVehicle)[other]? =
            some neighbour := there
        rw [List.getElem?_set_self isInside] at isNew
        cases isNew
        rw [ofSlot] at otherSlot
        cases otherSlot
        exact new
      · exact fitsOther other neighbour slot same there otherSlot
  · rename_i lives
    constructor
    · rw [visited]
      exact kept.length
    · rw [visited]
      exact kept.initList
    · rw [visited]
      exact kept.vehicles
    · intro other neighbour slot there otherSlot
      by_cases same : other = index
      · subst same
        rw [visited] at there ⊢
        have isSame : depot.system.vehicleList[other]? = some neighbour := there
        rw [found] at isSame
        cases isSame
        rw [ofSlot] at otherSlot
        cases otherSlot
        exact fits.looked (by simpa using lives) now
      · exact fitsOther other neighbour slot same there otherSlot

end Visit

/-! ## A check of all vehicles -/

section Check

variable {slots : List (Slot Kind Place Code)} {now : ℚ} {looks : ℕ → Sight × ℚ}

def passes (depot : Depot Uid Kind Place Code) (now : ℚ) (looks : ℕ → Sight × ℚ) (count : ℕ) :
    Depot Uid Kind Place Code :=
  (List.range count).foldl (fun depot index => depot.visit now looks index) depot

theorem passes_succ (count : ℕ) :
    depot.passes now looks (count + 1) = (depot.passes now looks count).visit now looks count := by
  rw [passes, List.range_succ, List.foldl_append]
  rfl

/-- What the loop has done when it has come to the slot `count`. -/
structure Passed (slots : List (Slot Kind Place Code)) (now : ℚ) (looks : ℕ → Sight × ℚ)
    (count : ℕ) (before after : Depot Uid Kind Place Code) : Prop where
  kept : after.Kept slots
  newer : before.nextVehicle ≤ after.nextVehicle
  ahead : ∀ index, count ≤ index →
    after.system.vehicleList[index]? = before.system.vehicleList[index]? ∧
      ∀ vehicle, before.system.vehicleList[index]? = some vehicle →
        before.SameVehicle after vehicle
  replaced : ∀ (index vehicle : ℕ) (slot : Slot Kind Place Code), index < count →
    before.system.vehicleList[index]? = some vehicle → slots[index]? = some slot →
      before.Due slot vehicle (looks index).1 →
        ∃ new, before.nextVehicle ≤ new ∧ after.system.vehicleList[index]? = some new ∧
          after.seen new = []
  stays : ∀ (index vehicle : ℕ) (slot : Slot Kind Place Code), index < count →
    before.system.vehicleList[index]? = some vehicle → slots[index]? = some slot →
      ¬before.Due slot vehicle (looks index).1 →
        after.system.vehicleList[index]? = some vehicle ∧
          after.seen vehicle = (now, (looks index).1) :: before.seen vehicle
  refined : before.system.mainThread = true → ∃ events : List (Event Uid ℕ),
    run Vehicles.step before.system events = some after.system ∧
      after.system.mainThread = true
  lastTimeCheck : after.lastTimeCheck = before.lastTimeCheck

omit [DecidableEq Uid] in
theorem SameVehicle.due {before after : Depot Uid Kind Place Code} {vehicle : ℕ}
    {slot : Slot Kind Place Code} {sight : Sight} (same : before.SameVehicle after vehicle) :
    after.Due slot vehicle sight ↔ before.Due slot vehicle sight := by
  rw [Due, Due, sights, sights, same.values, same.seen]

theorem nextVehicle_visit_le (index : ℕ) :
    depot.nextVehicle ≤ (depot.visit now looks index).nextVehicle := by
  unfold visit
  split
  · exact le_rfl
  · dsimp only
    split
    · exact Nat.le_succ _
    · exact le_rfl

theorem lastTimeCheck_visit (index : ℕ) :
    (depot.visit now looks index).lastTimeCheck = depot.lastTimeCheck := by
  unfold visit
  split
  · rfl
  · dsimp only
    split <;> rfl

theorem visit_refines (index : ℕ) (installed : depot.system.mainThread = true) :
    ∃ events : List (Event Uid ℕ), run Vehicles.step depot.system events =
      some (depot.visit now looks index).system ∧
        (depot.visit now looks index).system.mainThread = true := by
  cases found : depot.system.vehicleList[index]? with
  | none =>
      rw [visit, found]
      exact ⟨[], rfl, installed⟩
  | some vehicle =>
      have inside := (List.getElem?_eq_some_iff.mp found).1
      rw [visit_eq found]
      split
      · refine ⟨[.respawnVehicle index depot.nextVehicle], ?_, installed⟩
        rw [run_cons, Vehicles.step, if_pos ⟨installed, inside⟩]
        rfl
      · exact ⟨[], rfl, installed⟩

theorem Kept.passed (kept : depot.Kept slots) {count : ℕ} (inside : count ≤ slots.length) :
    Passed slots now looks count depot (depot.passes now looks count) := by
  induction count with
  | zero =>
      exact ⟨kept, le_rfl, fun _ _ => ⟨rfl, fun _ _ => ⟨rfl, rfl, rfl, rfl⟩⟩,
        fun _ _ _ below => absurd below (Nat.not_lt_zero _),
        fun _ _ _ below => absurd below (Nat.not_lt_zero _), fun installed => ⟨[], rfl, installed⟩,
        rfl⟩
  | succ count inductionHypothesis =>
      have passed := inductionHypothesis (Nat.le_of_succ_le inside)
      have isInside : count < slots.length := inside
      obtain ⟨vehicle, found⟩ : ∃ vehicle,
          (depot.passes now looks count).system.vehicleList[count]? = some vehicle :=
        ⟨_, List.getElem?_eq_getElem (passed.kept.length ▸ isInside)⟩
      have there : depot.system.vehicleList[count]? = some vehicle :=
        (passed.ahead count le_rfl).1 ▸ found
      have same := (passed.ahead count le_rfl).2 vehicle there
      have others := fun other => @Kept.visit_other _ _ _ _ _ _ slots now looks count vehicle
        passed.kept found other
      rw [passes_succ]
      constructor
      · exact passed.kept.visit isInside
      · exact passed.newer.trans (nextVehicle_visit_le count)
      · intro index behind
        obtain ⟨list, neighbours⟩ := others index (by omega)
        obtain ⟨before, untouched⟩ := passed.ahead index (by omega)
        refine ⟨list.trans before, fun neighbour atIndex => ?_⟩
        exact (untouched neighbour atIndex).trans (neighbours neighbour (before.trans atIndex))
      · intro index other slot below atIndex ofSlot due
        rcases Nat.lt_succ_iff_lt_or_eq.mp below with earlier | rfl
        · obtain ⟨new, later, list, nothing⟩ := passed.replaced index other slot earlier atIndex
            ofSlot due
          obtain ⟨unchanged, neighbours⟩ := others index (by omega)
          exact ⟨new, later, unchanged.trans list, (neighbours new list).seen.trans nothing⟩
        · rw [there] at atIndex
          cases atIndex
          have visited := (@Kept.visit_self _ _ _ _ _ _ slots now looks _ _ passed.kept found _
            ofSlot).1 (same.due.mpr due)
          exact ⟨_, passed.newer, visited.1, visited.2⟩
      · intro index other slot below atIndex ofSlot notDue
        rcases Nat.lt_succ_iff_lt_or_eq.mp below with earlier | rfl
        · obtain ⟨list, seen⟩ := passed.stays index other slot earlier atIndex ofSlot notDue
          obtain ⟨unchanged, neighbours⟩ := others index (by omega)
          exact ⟨unchanged.trans list, (neighbours other list).seen.trans seen⟩
        · rw [there] at atIndex
          cases atIndex
          have visited := (@Kept.visit_self _ _ _ _ _ _ slots now looks _ _ passed.kept found _
            ofSlot).2 fun due => notDue (same.due.mp due)
          exact ⟨visited.1, by rw [visited.2, same.seen]⟩
      · intro installed
        obtain ⟨first, ranFirst, stillInstalled⟩ := passed.refined installed
        obtain ⟨second, ranSecond, last⟩ := @visit_refines _ _ _ _ _ _ now looks count
          stillInstalled
        exact ⟨first ++ second, by rw [run_append, ranFirst, Option.bind_some, ranSecond], last⟩
      · exact (lastTimeCheck_visit count).trans passed.lastTimeCheck

end Check

/-! ## Runs -/

theorem step_vehicleList_eq {system after : State Uid ℕ} {event : Event Uid ℕ}
    (other : ∀ index new, event ≠ .respawnVehicle index new)
    (stepped : Vehicles.step system event = some after) :
    after.vehicleList = system.vehicleList := by
  cases event with
  | connect uid =>
      obtain ⟨-, rfl⟩ := Option.ite_none_right_eq_some.mp stepped |>.imp_right Option.some.inj
      rfl
  | connectUID uid =>
      cases stepped
      rfl
  | leave uid =>
      cases stepped
      rfl
  | respawnVehicle index new => exact absurd rfl (other index new)
  | sendBlock =>
      obtain ⟨-, rfl⟩ := Option.ite_none_right_eq_some.mp stepped |>.imp_right Option.some.inj
      simp only [State.sendBlock]
      split_ifs <;> rfl
  | deliver uid =>
      obtain ⟨client, -, handled⟩ := Option.bind_eq_some_iff.mp stepped
      obtain ⟨next, -, rfl⟩ := Option.map_eq_some_iff.mp handled
      rfl

structure Sound (slots : List (Slot Kind Place Code)) (depot : Depot Uid Kind Place Code) :
    Prop where
  kept : depot.Kept slots
  refines : ∃ events : List (Event Uid ℕ), run Vehicles.step
    (.initVehicleRespawn (List.range slots.length)) events = some depot.system
  spaced : ∀ index vehicle : ℕ, depot.system.vehicleList[index]? = some vehicle →
    Spaced 1 (depot.lastTimeCheck + 1) (depot.seen vehicle)

variable {slots : List (Slot Kind Place Code)}

omit [DecidableEq Uid] in
theorem kept_start [Inhabited (Slot Kind Place Code)] (now : ℚ) :
    (start slots now : Depot Uid Kind Place Code).Kept slots where
  length := List.length_range
  initList := rfl
  vehicles := by
    rw [start, State.initVehicleRespawn, List.append_nil]
  fits index vehicle slot atIndex ofSlot := by
    obtain ⟨inside, rfl⟩ := List.getElem?_eq_some_iff.mp ofSlot
    have inRange : (List.range slots.length)[index]? = some vehicle := atIndex
    rw [List.getElem?_range inside] at inRange
    cases inRange
    constructor <;> simp [start, Slot.values, ofSlot, sights, counted]

/-- A check that comes too early changes nothing; otherwise every slot is visited. -/
theorem check_eq (now later : ℚ) (looks : ℕ → Sight × ℚ) (kept : depot.Kept slots) :
    (¬depot.lastTimeCheck + 1 ≤ now →
      (depot.check now later looks).system = depot.system ∧
      depot.check now later looks = { depot with time := later }) ∧
    (depot.lastTimeCheck + 1 ≤ now →
      depot.check now later looks = { depot.passes now looks slots.length with
        lastTimeCheck := later, time := later }) := by
  constructor
  · intro early
    rw [check, if_neg early]
    exact ⟨rfl, rfl⟩
  · intro isTime
    rw [check, if_pos isTime, kept.length]
    rfl

theorem Sound.check (sound : depot.Sound slots) {now later : ℚ} {looks : ℕ → Sight × ℚ}
    (installed : depot.system.mainThread = true) (ordered : now ≤ later) :
    (depot.check now later looks).Sound slots := by
  by_cases isTime : depot.lastTimeCheck + 1 ≤ now
  · rw [(check_eq now later looks sound.kept).2 isTime]
    have passed := @Kept.passed _ _ _ _ depot _ slots now looks sound.kept _ le_rfl
    refine ⟨⟨passed.kept.length, passed.kept.initList, passed.kept.vehicles, ?_⟩, ?_, ?_⟩
    · intro index vehicle slot atIndex ofSlot
      have fits := passed.kept.fits index vehicle slot atIndex ofSlot
      exact ⟨fits.kind, fits.initPos, fits.initDir, fits.abTime, fits.rsTime, fits.nearDist,
        fits.initialised, fits.abCount, fits.rsCount⟩
    · obtain ⟨first, ran⟩ := sound.refines
      obtain ⟨second, ranSecond, -⟩ := passed.refined installed
      exact ⟨first ++ second, by rw [run_append, ran, Option.bind_some, ranSecond]⟩
    · intro index vehicle atIndex
      have inside : index < slots.length := by
        rw [← passed.kept.length]
        exact (List.getElem?_eq_some_iff.mp atIndex).1
      obtain ⟨before, found⟩ : ∃ before, depot.system.vehicleList[index]? = some before :=
        ⟨_, List.getElem?_eq_getElem (sound.kept.length ▸ inside)⟩
      have ofSlot : slots[index]? = some slots[index] := List.getElem?_eq_getElem inside
      by_cases due : depot.Due slots[index] before (looks index).1
      · obtain ⟨new, -, list, nothing⟩ := passed.replaced index before _ inside found ofSlot due
        obtain rfl : vehicle = new := Option.some.inj (atIndex.symm.trans list)
        change Spaced 1 (later + 1) ((depot.passes now looks slots.length).seen vehicle)
        rw [nothing]
        trivial
      · obtain ⟨list, seen⟩ := passed.stays index before _ inside found ofSlot due
        obtain rfl : vehicle = before := Option.some.inj (atIndex.symm.trans list)
        change Spaced 1 (later + 1) ((depot.passes now looks slots.length).seen vehicle)
        rw [seen]
        exact ⟨by linarith, (sound.spaced index vehicle found).mono isTime⟩
  · rw [((check_eq now later looks sound.kept).1 isTime).2]
    refine ⟨⟨sound.kept.length, sound.kept.initList, sound.kept.vehicles, ?_⟩, sound.refines,
      sound.spaced⟩
    intro index vehicle slot atIndex ofSlot
    have fits := sound.kept.fits index vehicle slot atIndex ofSlot
    exact ⟨fits.kind, fits.initPos, fits.initDir, fits.abTime, fits.rsTime, fits.nearDist,
      fits.initialised, fits.abCount, fits.rsCount⟩

theorem Sound.step (sound : depot.Sound slots) {event : DepotEvent Uid}
    {after : Depot Uid Kind Place Code} (stepped : step depot event = some after) :
    after.Sound slots := by
  cases event with
  | system event =>
      have other : ∀ index new, event ≠ .respawnVehicle index new := by
        rintro index new rfl
        cases stepped
      obtain ⟨system, moved, rfl⟩ : ∃ system, Vehicles.step depot.system event = some system ∧
          { depot with system } = after := by
        cases event with
        | respawnVehicle index new => exact absurd rfl (other index new)
        | connect uid => exact Option.map_eq_some_iff.mp stepped
        | connectUID uid => exact Option.map_eq_some_iff.mp stepped
        | leave uid => exact Option.map_eq_some_iff.mp stepped
        | sendBlock => exact Option.map_eq_some_iff.mp stepped
        | deliver uid => exact Option.map_eq_some_iff.mp stepped
      have list := step_vehicleList_eq other moved
      refine ⟨⟨?_, sound.kept.initList, ?_, ?_⟩, ?_, ?_⟩
      · exact (congrArg List.length list).trans sound.kept.length
      · simp only [list]
        exact sound.kept.vehicles
      · intro index vehicle slot atIndex ofSlot
        simp only [list] at atIndex
        have fits := sound.kept.fits index vehicle slot atIndex ofSlot
        exact ⟨fits.kind, fits.initPos, fits.initDir, fits.abTime, fits.rsTime, fits.nearDist,
          fits.initialised, fits.abCount, fits.rsCount⟩
      · obtain ⟨events, ran⟩ := sound.refines
        refine ⟨events ++ [event], ?_⟩
        rw [run_append, ran, Option.bind_some, run_cons, moved]
        rfl
      · intro index vehicle atIndex
        simp only [list] at atIndex
        exact sound.spaced index vehicle atIndex
  | check now later looks =>
      obtain ⟨⟨installed, -, ordered⟩, rfl⟩ :=
        Option.ite_none_right_eq_some.mp stepped |>.imp_right Option.some.inj
      exact sound.check installed ordered

theorem Sound.run [Inhabited (Slot Kind Place Code)] {now : ℚ} {events : List (DepotEvent Uid)}
    (ran : Library.run Depot.step (start slots now) events = some depot) :
    depot.Sound slots := by
  refine run_invariant (Sound slots) (fun _ _ _ sound stepped => sound.step stepped) ?_ ran
  exact ⟨kept_start now, ⟨[], rfl⟩, fun _ _ _ => trivial⟩

end Depot

/-- In every run each slot has one vehicle of its kind, with its place, times and distance and
with its script called once, and there is no other vehicle that was not deleted.  Every entry
of a client's list is what the last message about it said, and what it lacks of the server's
list is on its way, or waited for if the client asked. -/
theorem slots_kept [DecidableEq Uid] [Inhabited (Slot Kind Place Code)]
    {slots : List (Slot Kind Place Code)} {now : ℚ} {events : List (DepotEvent Uid)}
    {depot : Depot Uid Kind Place Code}
    (ran : run Depot.step (.start slots now) events = some depot) :
    (depot.system.vehicleList.length = slots.length ∧
      (depot.system.vehicleList ++ depot.deleted).Perm (List.range depot.nextVehicle)) ∧
    (∀ (index vehicle : ℕ) (slot : Slot Kind Place Code),
      depot.system.vehicleList[index]? = some vehicle → slots[index]? = some slot →
        depot.kind vehicle = slot.kind ∧ depot.initialised vehicle = [slot.code] ∧
          (depot.values vehicle).initPos = slot.initPos ∧
          (depot.values vehicle).initDir = slot.initDir ∧
          (depot.values vehicle).abTime = slot.abTime ∧
          (depot.values vehicle).rsTime = slot.rsTime ∧
          (depot.values vehicle).nearDist = slot.nearDist) ∧
    (∀ uid client, depot.system.clients uid = some client →
      UpToDate depot.system client ∧ OnItsWay depot.system client) := by
  have sound := Depot.Sound.run ran
  obtain ⟨sent, refined⟩ := sound.refines
  have consistent := Consistent.run refined
  refine ⟨⟨sound.kept.length, sound.kept.vehicles⟩, ?_, fun uid client connected => ?_⟩
  · intro index vehicle slot atIndex ofSlot
    have fits := sound.kept.fits index vehicle slot atIndex ofSlot
    exact ⟨fits.kind, fits.initialised, fits.initPos, fits.initDir, fits.abTime, fits.rsTime,
      fits.nearDist⟩
  · obtain ⟨copy, queue, handled, served⟩ := consistent.served uid client connected
    exact ⟨served.upToDate, served.onItsWay consistent.counted⟩

/-- From every reachable state a check replaces a vehicle exactly when a second has gone by,
the vehicle is out of use, and since its last use it was seen so as often as its slot allows
(or, for a wreck, seen wrecked as often); and this is never sooner after that use than the
shorter of the two times and a second more. -/
theorem vehicles_replaced_when_due [DecidableEq Uid] [Inhabited (Slot Kind Place Code)]
    {slots : List (Slot Kind Place Code)} {start now later : ℚ}
    {events : List (DepotEvent Uid)} {depot after : Depot Uid Kind Place Code}
    {looks : ℕ → Sight × ℚ}
    (ran : run Depot.step (.start slots start) events = some depot)
    (checked : depot.step (.check now later looks) = some after)
    {index vehicle : ℕ} {slot : Slot Kind Place Code}
    (atIndex : depot.system.vehicleList[index]? = some vehicle)
    (ofSlot : slots[index]? = some slot) :
    (after.system.vehicleList[index]? ≠ some vehicle ↔
      depot.lastTimeCheck + 1 ≤ now ∧ depot.Due slot vehicle (looks index).1) ∧
    (after.system.vehicleList[index]? ≠ some vehicle →
      ∀ entry ∈ depot.seen vehicle,
        entry.2.abMode (depot.values vehicle).initDmg = .reset →
          entry.1 + (min slot.abTime slot.rsTime + 1) ≤ now) := by
  have sound := Depot.Sound.run ran
  obtain ⟨⟨-, -, ordered⟩, rfl⟩ :=
    Option.ite_none_right_eq_some.mp checked |>.imp_right Option.some.inj
  have inside : index < slots.length := (List.getElem?_eq_some_iff.mp ofSlot).1
  have exactly : (depot.check now later looks).system.vehicleList[index]? ≠ some vehicle ↔
      depot.lastTimeCheck + 1 ≤ now ∧ depot.Due slot vehicle (looks index).1 := by
    obtain ⟨early, inTime⟩ := Depot.check_eq now later looks sound.kept
    by_cases isTime : depot.lastTimeCheck + 1 ≤ now
    · have passed := @Depot.Kept.passed _ _ _ _ depot _ slots now looks sound.kept _ le_rfl
      rw [inTime isTime]
      by_cases due : depot.Due slot vehicle (looks index).1
      · obtain ⟨new, newer, list, -⟩ := passed.replaced index vehicle slot inside atIndex ofSlot
          due
        have older := sound.kept.lt_nextVehicle atIndex
        refine iff_of_true ?_ ⟨isTime, due⟩
        intro same
        have equal : new = vehicle := Option.some.inj (list.symm.trans same)
        omega
      · have list := (passed.stays index vehicle slot inside atIndex ofSlot due).1
        exact iff_of_false (fun changed => changed list) fun both => due both.2
    · rw [(early isTime).1]
      exact iff_of_false (fun changed => changed atIndex) fun both => isTime both.1
  refine ⟨exactly, fun changed entry member resets => ?_⟩
  obtain ⟨isTime, -, abandoned | ⟨-, wrecked⟩⟩ := exactly.mp changed
  · have spaced := (sound.spaced index vehicle atIndex).mono isTime
    have waited := spaced.waited (Sight.abMode _) zero_le_one member resets
    have short := min_le_left slot.abTime slot.rsTime
    rw [Depot.sights] at abandoned
    linarith
  · have spaced := (sound.spaced index vehicle atIndex).mono isTime
    have waited := spaced.waited (Sight.rsMode _) zero_le_one member (Sight.rsMode_reset resets)
    have short := min_le_right slot.abTime slot.rsTime
    rw [Depot.sights] at wrecked
    linarith

/-! ## A match of two vehicles -/

/-- A car that may be left alone for two seconds, and a truck. -/
def carAndTruck : List (Slot ℕ ℕ ℕ) :=
  [⟨0, 10, 90, 2, 1, 10, 0, 100⟩, ⟨1, 20, 0, 300, 60, 10, 0, 101⟩]

instance : Inhabited (Slot ℕ ℕ ℕ) := ⟨⟨0, 0, 0, 0, 0, 0, 0, 0⟩⟩

/-- The car is used, or is left alone, a hundred meters away; the truck is at its place. -/
def driven (used : Bool) (index : ℕ) : Sight × ℚ :=
  (if index = 0 then ⟨100, 0, if used then 1 else 0, 0, true, false⟩
    else ⟨0, 0, 0, 0, true, false⟩, 0)

def parked : List (DepotEvent ℕ) :=
  [.system (.connect 1), .check 10 10 (driven true), .check 11 11 (driven false),
    .check 12 12 (driven false)]

def parkedDepot : Depot ℕ ℕ ℕ ℕ :=
  (run Depot.step (.start carAndTruck 0) parked).get (by decide +kernel)

theorem parkedDepot_ran : run Depot.step (.start carAndTruck 0) parked = some parkedDepot :=
  (Option.some_get _).symm

theorem slots_kept_parked :
    (parkedDepot.system.vehicleList ++ parkedDepot.deleted).Perm [0, 1] ∧
      parkedDepot.initialised 0 = [100] := by
  have kept := slots_kept parkedDepot_ran
  have next : List.range parkedDepot.nextVehicle = [0, 1] := by decide +kernel
  refine ⟨next ▸ kept.1.2, ?_⟩
  exact (kept.2.1 0 0 ⟨0, 10, 90, 2, 1, 10, 0, 100⟩ (by decide +kernel) rfl).2.1

/-- Three seconds after it was used the car is replaced. -/
theorem vehicles_replaced_when_due_parked :
    (parkedDepot.check 13 13 (driven false)).system.vehicleList[0]? ≠ some 0 := by
  have due := @vehicles_replaced_when_due ℕ ℕ ℕ ℕ _ _ carAndTruck 0 13 13 parked parkedDepot
    (parkedDepot.check 13 13 (driven false)) (driven false) parkedDepot_ran
    (if_pos (by decide +kernel)) 0 0 ⟨0, 10, 90, 2, 1, 10, 0, 100⟩ (by decide +kernel) rfl
  refine due.1.mpr ⟨by decide +kernel, ?_⟩
  unfold Depot.Due
  refine ⟨by decide +kernel, Or.inl ?_⟩
  decide +kernel

end OperationFrontLine.Vehicles
