import Mathlib.Data.Rat.Floor
import Mathlib.Tactic

/-!
# The number of flag zones

`InitFlagZones` adds zones while the smaller side has the men for one more: every zone takes
the same number of men, the rounded-down quotient of half the capacity and the maximum.  A
quotient that is rounded down too far gives more zones than the maximum, and zero men for a
zone let the loop go on forever.
-/

namespace OperationFrontLine.Zones

def zonesPerSide : ℕ := 1

/-- `floor (0.5 * OPFL_PLAYER_CAPACITY / OPFL_MAX_FLAG_ZONES)` -/
def menPerZone (maxFlagZones playerCapacity : ℕ) : ℤ :=
  ⌊(0.5 : ℚ) * playerCapacity / maxFlagZones⌋

/-- The `while` loop over `ZONES_PER_SIDE`, cut off after `fuel` tests of its condition. -/
def sizingLoop (units : ℕ) (men : ℤ) : (fuel zones : ℕ) → Option ℕ
  | 0, _ => none
  | fuel + 1, zones =>
      if (zones + 1) * men ≤ units then sizingLoop units men fuel (zones + 1) else some zones

/-- `InitFlagZones` up to the sized `ZONES_PER_SIDE`. -/
def initFlagZones (maxFlagZones playerCapacity americanUnits russianUnits fuel : ℕ) : Option ℕ :=
  if maxFlagZones < 1 then
    some zonesPerSide
  else if americanUnits < russianUnits then
    sizingLoop americanUnits (menPerZone maxFlagZones playerCapacity) fuel zonesPerSide
  else
    sizingLoop russianUnits (menPerZone maxFlagZones playerCapacity) fuel zonesPerSide

def Sized (maxFlagZones playerCapacity americanUnits russianUnits zones : ℕ) : Prop :=
  ∃ fuel, initFlagZones maxFlagZones playerCapacity americanUnits russianUnits fuel = some zones

def Fits (playerCapacity units : ℕ) : Prop := 2 * units ≤ playerCapacity

/-- What the comment of `OPFL_MAX_FLAG_ZONES` promises. -/
structure SizedAsPromised (maxFlagZones playerCapacity : ℕ) : Prop where
  bounded : ∀ americanUnits russianUnits, Fits playerCapacity americanUnits →
    Fits playerCapacity russianUnits → ∃ zones,
      Sized maxFlagZones playerCapacity americanUnits russianUnits zones ∧
        1 ≤ zones ∧ zones ≤ maxFlagZones
  monotone : ∀ americanUnits russianUnits moreAmericans moreRussians zones moreZones,
    Fits playerCapacity americanUnits → Fits playerCapacity russianUnits →
    Fits playerCapacity moreAmericans → Fits playerCapacity moreRussians →
    min americanUnits russianUnits ≤ min moreAmericans moreRussians →
    Sized maxFlagZones playerCapacity americanUnits russianUnits zones →
    Sized maxFlagZones playerCapacity moreAmericans moreRussians moreZones → zones ≤ moreZones
  full : ∀ zones,
    Sized maxFlagZones playerCapacity (playerCapacity / 2) (playerCapacity / 2) zones →
      zones = maxFlagZones

/-! ## The loop -/

theorem menPerZone_eq (maxFlagZones playerCapacity : ℕ) :
    menPerZone maxFlagZones playerCapacity = (playerCapacity / 2 / maxFlagZones : ℕ) := by
  have quotient : (0.5 : ℚ) * playerCapacity / maxFlagZones =
      ((playerCapacity : ℤ) : ℚ) / ((2 * maxFlagZones : ℕ) : ℚ) := by
    push_cast
    rw [← div_div]
    ring
  rw [menPerZone, quotient, Rat.floor_intCast_div_natCast, Nat.div_div_eq_div_mul]
  norm_cast

/-- The loop ends after as many tests as there are zones to add, with all that have men. -/
theorem sizingLoop_eq_some_iff {units men : ℕ} (positive : 0 < men) {zones fuel sized : ℕ} :
    sizingLoop units men fuel zones = some sized ↔
      units / men - zones < fuel ∧ sized = max zones (units / men) := by
  induction fuel generalizing zones with
  | zero => simp [sizingLoop]
  | succ fuel inductionHypothesis =>
      have next : ((zones : ℤ) + 1) * men ≤ units ↔ zones + 1 ≤ units / men := by
        rw [Nat.le_div_iff_mul_le positive]
        norm_cast
      rw [sizingLoop]
      by_cases more : zones + 1 ≤ units / men
      · rw [if_pos (next.mpr more), inductionHypothesis, max_eq_right more,
          max_eq_right (by omega)]
        exact and_congr_left fun _ => by omega
      · rw [if_neg fun goes => more (next.mp goes), max_eq_left (by omega), Option.some_inj,
          eq_comm]
        exact ⟨fun same => ⟨by omega, same⟩, And.right⟩

theorem sizingLoop_zero (units fuel zones : ℕ) : sizingLoop units 0 fuel zones = none := by
  induction fuel generalizing zones with
  | zero => rfl
  | succ fuel inductionHypothesis =>
      rw [sizingLoop, mul_zero, if_pos (Int.natCast_nonneg units)]
      exact inductionHypothesis _

/-! ## The sized number -/

section Sizes

variable {maxFlagZones playerCapacity americanUnits russianUnits zones : ℕ}

theorem initFlagZones_eq (some : 1 ≤ maxFlagZones) (fuel : ℕ) :
    initFlagZones maxFlagZones playerCapacity americanUnits russianUnits fuel =
      sizingLoop (min americanUnits russianUnits) (playerCapacity / 2 / maxFlagZones : ℕ) fuel
        1 := by
  rw [initFlagZones, if_neg (Nat.not_lt.mpr some), menPerZone_eq]
  by_cases fewer : americanUnits < russianUnits
  · rw [if_pos fewer, min_eq_left fewer.le]
    rfl
  · rw [if_neg fewer, min_eq_right (Nat.le_of_not_lt fewer)]
    rfl

theorem sized_iff (some : 1 ≤ maxFlagZones) (men : 0 < playerCapacity / 2 / maxFlagZones) :
    Sized maxFlagZones playerCapacity americanUnits russianUnits zones ↔
      zones = max 1 (min americanUnits russianUnits / (playerCapacity / 2 / maxFlagZones)) := by
  simp only [Sized, initFlagZones_eq some, sizingLoop_eq_some_iff men]
  exact ⟨fun ⟨_, _, sized⟩ => sized, fun sized => ⟨_, Nat.lt_succ_self _, sized⟩⟩

theorem not_sized (some : 1 ≤ maxFlagZones) (noMen : playerCapacity / 2 / maxFlagZones = 0) :
    ¬Sized maxFlagZones playerCapacity americanUnits russianUnits zones := by
  rintro ⟨fuel, ended⟩
  rw [initFlagZones_eq some, noMen, Nat.cast_zero, sizingLoop_zero] at ended
  cases ended

end Sizes

/-- The sizing is what the parameter's comment promises exactly when the men that half the
capacity leaves over do not make up one more zone. -/
theorem sizedAsPromised_iff {maxFlagZones : ℕ} (some : 1 ≤ maxFlagZones) (playerCapacity : ℕ) :
    SizedAsPromised maxFlagZones playerCapacity ↔
      playerCapacity / 2 % maxFlagZones < playerCapacity / 2 / maxFlagZones := by
  obtain ⟨men, menEq⟩ : ∃ men, men = playerCapacity / 2 / maxFlagZones := ⟨_, rfl⟩
  have split := Nat.div_add_mod (playerCapacity / 2) maxFlagZones
  rw [← menEq] at split ⊢
  constructor
  · intro promised
    have positive : 0 < men := by
      obtain ⟨zones, sized, -⟩ := promised.bounded 0 0 (Nat.zero_le _) (Nat.zero_le _)
      refine Nat.pos_of_ne_zero fun zero => not_sized some ?_ sized
      rw [← menEq, zero]
    have full := promised.full _ ((sized_iff some (menEq ▸ positive)).mpr rfl)
    rw [min_self, ← menEq] at full
    by_contra enough
    have oneMore : (maxFlagZones + 1) * men ≤ playerCapacity / 2 := by
      rw [add_mul, one_mul, ← split]
      exact Nat.add_le_add_left (Nat.le_of_not_lt enough) _
    have tooMany := (Nat.le_div_iff_mul_le positive).mpr oneMore
    omega
  · intro few
    have positive : 0 < men := Nat.zero_lt_of_lt few
    have sizes : ∀ {americanUnits russianUnits zones},
        Sized maxFlagZones playerCapacity americanUnits russianUnits zones ↔
          zones = max 1 (min americanUnits russianUnits / men) := by
      intro americanUnits russianUnits zones
      rw [sized_iff some (menEq ▸ positive), menEq]
    have most : playerCapacity / 2 / men = maxFlagZones := by
      apply Nat.div_eq_of_lt_le
      · exact (Nat.le_add_right _ _).trans_eq split
      · rw [add_mul, one_mul, ← split]
        exact Nat.add_lt_add_left few _
    refine ⟨fun americanUnits russianUnits fits _ => ⟨_, sizes.mpr rfl, le_max_left _ _, ?_⟩,
      ?_, ?_⟩
    · refine max_le some ((Nat.div_le_div_right ?_).trans_eq most)
      have half : 2 * americanUnits ≤ playerCapacity := fits
      omega
    · intro americanUnits russianUnits moreAmericans moreRussians zones moreZones _ _ _ _ smaller
        sized moreSized
      rw [sizes.mp sized, sizes.mp moreSized]
      exact max_le_max_left 1 (Nat.div_le_div_right smaller)
    · intro zones sized
      rw [sizes.mp sized, min_self, most, max_eq_right some]

/-- Three zones for the shipped capacity: nine men make up each. -/
theorem sizedAsPromised_three : SizedAsPromised 3 54 :=
  (sizedAsPromised_iff (by decide) 54).mpr (by decide)

/-- With ten zones for the shipped capacity two men make up a zone, and full sides get thirteen;
with more zones than men on a side the loop never ends. -/
theorem more_zones_than_maximum :
    initFlagZones 10 54 27 27 20 = some 13 ∧ ¬SizedAsPromised 10 54 ∧
      (∀ fuel, initFlagZones 28 54 0 0 fuel = none) ∧ ¬SizedAsPromised 28 54 := by
  have noMen : ∀ fuel, initFlagZones 28 54 0 0 fuel = none := by
    intro fuel
    rw [initFlagZones_eq (by decide)]
    exact sizingLoop_zero _ _ _
  have thirteen : initFlagZones 10 54 27 27 20 = some 13 := by
    rw [initFlagZones_eq (by decide)]
    rfl
  refine ⟨thirteen, fun promised => ?_, noMen, fun promised => ?_⟩
  · have full := promised.full 13 ⟨20, thirteen⟩
    omega
  · obtain ⟨zones, ⟨fuel, ended⟩, -⟩ := promised.bounded 0 0 (Nat.zero_le _) (Nat.zero_le _)
    rw [noMen] at ended
    cases ended

end OperationFrontLine.Zones
