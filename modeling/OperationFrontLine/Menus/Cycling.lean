import OperationFrontLine.Library.Cycle
import OperationFrontLine.Library.Script
import OperationFrontLine.Menus.Incremental

/-!
# Cycling through the menus

A scan collects the objects that may show a menu, with the doors, ladders and hatches of the near
buildings in front; each frame chooses from these the ones that do, and the keys for left and right
go from the selected one to the next.  The cycle is that of a list in which the selected object is
found again by its last place.
-/

namespace OperationFrontLine.Menus

open OperationFrontLine.Library

universe u w

variable {Object : Type u} {Menu : Type w}

/-- A building near the player, and what the scan creates for it when it is a new one. -/
structure Building (Object : Type u) where
  /-- `RTMS_ACTIVE_MENU_SELECTIONS` -/
  selections : Option (List Object)
  addDoorsAdvanced : List Object
  addLadders : List Object
  addHatches : List Object

namespace Building

variable (building : Building Object)

def activeMenu : List Object :=
  building.addDoorsAdvanced ++ building.addLadders ++ building.addHatches

/-- What the building puts into `_nearObjects`.  The scan looks at its first object only. -/
def nearObjects (isNull : Object → Bool) : List Object :=
  match building.selections with
  | none => building.activeMenu
  | some [] => []
  | some (first :: rest) => if isNull first then building.activeMenu else first :: rest

end Building

structure Surroundings (Object : Type u) (Menu : Type w) where
  /-- `RTMS_NEAR_BUILDINGS`, the answer of `RTMS_HouseIntersector` or that of the scan before -/
  nearBuildings : List (Building Object)
  /-- `CLASS_NAME` of an object menu -/
  owner : Menu → Object
  isNull : Object → Bool
  /-- not farther away than its `RTMS_DISTANCE` and half the scan distance -/
  inScan : Object → Bool
  /-- the answer of `nearestObjects`, for `RTMS_CLASS_NAMES` -/
  nearestObjects : List Object
  nearestObjects_nodup : nearestObjects.Nodup
  isObjectHidden : Object → Bool
  player : Object
  angle : Object → ℚ
  /-- not farther away than its `RTMS_DISTANCE` and ten metres -/
  inDisplay : Object → Bool

namespace Surroundings

variable [DecidableEq Object] (around : Surroundings Object Menu) (objectsList : List Menu)

/-- The objects of `RTMS_OBJECTS_LIST` that are near enough, once for each of their menus. -/
def attached : List Object :=
  (objectsList.map around.owner).filter fun object => !around.isNull object && around.inScan object

def isVisible (object : Object) : Bool := !around.isObjectHidden object && object ≠ around.player

def ofBuildings : List Object := around.nearBuildings.flatMap (·.nearObjects around.isNull)

def nearObjects : List Object :=
  around.ofBuildings ++
    (around.nearestObjects ++
      (around.attached objectsList).filter (· ∉ around.nearestObjects)).filter around.isVisible

def cachedList : List Object :=
  sortByAngle ((around.nearObjects objectsList).map fun object => (around.angle object, object))

def toDisplay : List Object := (around.cachedList objectsList).filter around.inDisplay

end Surroundings

/-- What a frame and a key event find out about the objects. -/
structure View (Object : Type u) where
  isNull : Object → Bool
  isObjectHidden : Object → Bool
  isPlayer : Object → Bool
  /-- not farther away than its `RTMS_DISTANCE` -/
  inDistance : Object → Bool
  /-- `RTMS_BlockedView` -/
  blockedView : Object → Bool
  /-- `RTMS_SUB_COUNT` is not 0 -/
  hasItems : Object → Bool
  /-- `RTMS_SHOW` of its first menu -/
  shows : Object → Bool

namespace View

variable [DecidableEq Object] (view : View Object)

def validObject (object : Object) : Bool :=
  !view.isNull object && !view.isObjectHidden object && !view.isPlayer object

/-- A round of the loop of `RTMS_Main` over `RTMS_TO_DISPLAY`, with `RTMS_DISPLAYED` and the index
that is written into `RTMS_SELECTED_MENU`. -/
def frameRound (selected : Object) (frame : List Object × Option ℕ) (object : Object) :
    List Object × Option ℕ :=
  if view.validObject object then
    if view.inDistance object then
      if view.blockedView object || !(view.hasItems object || view.shows object) then frame
      else (frame.1 ++ [object], if object = selected then some frame.1.length else frame.2)
    else frame
  else frame

/-- The loop of `RTMS_Main`, while a menu is selected and no key waits for one. -/
def frame (toDisplay : List Object) (selected : Object) : List Object × Option ℕ :=
  toDisplay.foldl (view.frameRound selected) ([], none)

def selectable (displayed : List Object) (index : ℕ) : Bool :=
  match displayed[index]? with
  | none => false
  | some object => if !view.isNull object then view.shows object || view.hasItems object else false

/-- The loop `while {true}` of the keys for left and right, which is left after some rounds. -/
def searchLoop (turn : ℕ → ℕ) (displayed : List Object) (initial : ℕ) : (rounds next : ℕ) → ℕ
  | 0, next => next
  | rounds + 1, next =>
      if view.selectable displayed next then next
      else if next = initial then next
      else searchLoop turn displayed initial rounds (turn next)

/-- `RTMS_KeyboardEvent` for left or right, when no submenu is open. -/
def search (turn : ℕ → ℕ) (displayed : List Object) (initial : ℕ) : ℕ :=
  view.searchLoop turn displayed initial unscheduledRounds (turn initial)

def press (turn : ℕ → ℕ → ℕ) (toDisplay : List Object) (state : List Object × ℕ) :
    Option (List Object × ℕ) :=
  state.1[view.search (turn state.1.length) state.1 state.2]?.bind fun selected =>
    (view.frame toDisplay selected).2.map fun index =>
      ((view.frame toDisplay selected).1, index)

def displays (object : Object) : Bool :=
  view.validObject object && view.inDistance object && !view.blockedView object &&
    (view.hasItems object || view.shows object)

variable {view}

theorem frameRound_eq (selected : Object) (frame : List Object × Option ℕ) (object : Object) :
    view.frameRound selected frame object =
      if view.displays object then
        (frame.1 ++ [object], if object = selected then some frame.1.length else frame.2)
      else frame := by
  rw [frameRound, displays]
  cases view.validObject object <;> cases view.inDistance object <;>
    cases view.blockedView object <;> cases view.hasItems object <;>
    cases view.shows object <;> rfl

theorem foldl_frameRound (selected : Object) (toDisplay : List Object)
    (frame : List Object × Option ℕ) :
    (toDisplay.foldl (view.frameRound selected) frame).1 =
      frame.1 ++ toDisplay.filter view.displays := by
  induction toDisplay generalizing frame with
  | nil => simp
  | cons object toDisplay inductionHypothesis =>
      rw [List.foldl_cons, inductionHypothesis, frameRound_eq]
      by_cases displayed : view.displays object = true <;> simp [displayed]

theorem frame_displayed (toDisplay : List Object) (selected : Object) :
    (view.frame toDisplay selected).1 = toDisplay.filter view.displays := by
  rw [frame, foldl_frameRound, List.nil_append]

theorem foldl_frameRound_index {selected : Object} {toDisplay : List Object}
    {frame : List Object × Option ℕ} {index : ℕ}
    (distinct : (frame.1 ++ toDisplay.filter view.displays).Nodup)
    (place : (frame.1 ++ toDisplay.filter view.displays)[index]? = some selected)
    (before : index < frame.1.length → frame.2 = some index) :
    (toDisplay.foldl (view.frameRound selected) frame).2 = some index := by
  induction toDisplay generalizing frame with
  | nil =>
      refine before ?_
      rw [List.filter_nil, List.append_nil] at place
      exact (List.getElem?_eq_some_iff.mp place).1
  | cons object toDisplay inductionHypothesis =>
      rw [List.foldl_cons, frameRound_eq]
      by_cases displayed : view.displays object = true
      · rw [if_pos displayed]
        rw [List.filter_cons_of_pos displayed, ← List.singleton_append, ← List.append_assoc]
          at distinct place
        refine inductionHypothesis distinct place fun lt => ?_
        simp only [List.length_append, List.length_singleton] at lt
        have inside : (frame.1 ++ [object])[index]? = some selected := by
          rwa [List.getElem?_append_left (by simpa using lt)] at place
        rcases Nat.lt_succ_iff_lt_or_eq.mp lt with earlier | rfl
        · have other : object ≠ selected := by
            rintro rfl
            have twice := (List.nodup_append.mp distinct).1
            rw [List.getElem?_append_left earlier] at inside
            exact (List.nodup_append.mp twice).2.2 _ (List.mem_of_getElem? inside) _
              (List.mem_singleton_self _) rfl
          rw [if_neg other, before earlier]
        · rw [List.getElem?_concat_length, Option.some.injEq] at inside
          rw [if_pos inside]
      · rw [if_neg displayed]
        rw [List.filter_cons_of_neg displayed] at distinct place
        exact inductionHypothesis distinct place before

theorem frame_index {selected : Object} {toDisplay : List Object} {index : ℕ}
    (distinct : (toDisplay.filter view.displays).Nodup)
    (place : (toDisplay.filter view.displays)[index]? = some selected) :
    (view.frame toDisplay selected).2 = some index :=
  foldl_frameRound_index (by simpa using distinct) (by simpa using place)
    fun before => absurd before (Nat.not_lt_zero _)

/-! ## The search -/

theorem turns_ne {size : ℕ} {turn : ℕ → ℕ} (isTurn : IsTurn size turn) {place turns : ℕ}
    (lt : place < size) (positive : 0 < turns) (before : turns < size) :
    turn^[turns] place ≠ place := by
  intro same
  have distinct := (isTurn.covers place lt).nodup_iff.mpr List.nodup_range
  have injective := List.inj_on_of_nodup_map distinct
  exact positive.ne (injective (List.mem_range.mpr (positive.trans before))
    (List.mem_range.mpr before) same.symm)

/-- The nearest other menu in this direction that can be selected, or the same one when there is
none. -/
def Nearest (view : View Object) (turn : ℕ → ℕ) (displayed : List Object) (initial next : ℕ) :
    Prop :=
  (∃ turns, 0 < turns ∧ turns < displayed.length ∧ next = turn^[turns] initial ∧
    view.selectable displayed next = true ∧
    ∀ fewer, 0 < fewer → fewer < turns →
      view.selectable displayed (turn^[fewer] initial) = false) ∨
  (next = initial ∧ ∀ place < displayed.length, place ≠ initial →
    view.selectable displayed place = false)

omit [DecidableEq Object] in
/-- Where nothing was found in the whole cycle, nothing else can be selected. -/
theorem none_selectable {turn : ℕ → ℕ} {displayed : List Object}
    (isTurn : IsTurn displayed.length turn) {initial : ℕ} (lt : initial < displayed.length)
    (passed : ∀ fewer, 0 < fewer → fewer < displayed.length →
      view.selectable displayed (turn^[fewer] initial) = false) :
    ∀ place < displayed.length, place ≠ initial → view.selectable displayed place = false := by
  intro place placeLt other
  obtain ⟨fewer, fewerIn, rfl⟩ := List.mem_map.mp
    ((isTurn.covers initial lt).mem_iff.mpr (List.mem_range.mpr placeLt))
  refine passed fewer (Nat.pos_of_ne_zero fun zero => ?_) (List.mem_range.mp fewerIn)
  exact other (by rw [zero, Function.iterate_zero, id])

omit [DecidableEq Object] in
/-- The loop looks at one place in a round, and at the last one there is no need to look. -/
theorem searchLoop_nearest {turn : ℕ → ℕ} {displayed : List Object}
    (isTurn : IsTurn displayed.length turn) {initial turns rounds : ℕ}
    (lt : initial < displayed.length) (positive : 0 < turns)
    (enough : displayed.length ≤ rounds + turns) (inside : turns ≤ displayed.length)
    (passed : ∀ fewer, 0 < fewer → fewer < turns →
      view.selectable displayed (turn^[fewer] initial) = false) :
    Nearest view turn displayed initial
      (view.searchLoop turn displayed initial rounds (turn^[turns] initial)) := by
  induction rounds generalizing turns with
  | zero =>
      obtain rfl : turns = displayed.length := by omega
      exact .inr ⟨isTurn.returns initial lt, none_selectable isTurn lt passed⟩
  | succ rounds inductionHypothesis =>
      rw [searchLoop]
      rcases inside.lt_or_eq with before | rfl
      · by_cases found : view.selectable displayed (turn^[turns] initial) = true
        · rw [if_pos found]
          exact .inl ⟨turns, positive, before, rfl, found, passed⟩
        · rw [if_neg found, if_neg (turns_ne isTurn lt positive before),
            ← Function.iterate_succ_apply' turn]
          refine inductionHypothesis (Nat.succ_pos turns) (by omega) before
            fun fewer fewerPos fewerLt => ?_
          rcases Nat.lt_succ_iff_lt_or_eq.mp fewerLt with earlier | rfl
          · exact passed fewer fewerPos earlier
          · exact Bool.eq_false_of_not_eq_true found
      · rw [isTurn.returns initial lt]
        have stays : (if view.selectable displayed initial = true then initial
            else if initial = initial then initial
            else view.searchLoop turn displayed initial rounds (turn initial)) = initial := by
          split <;> simp
        rw [stays]
        exact .inr ⟨rfl, none_selectable isTurn lt passed⟩

omit [DecidableEq Object] in
/-- Without anything to be found the loop goes on for all of its rounds. -/
theorem searchLoop_none {turn : ℕ → ℕ} {displayed : List Object}
    (isTurn : IsTurn displayed.length turn) {initial turns rounds : ℕ}
    (lt : initial < displayed.length) (positive : 0 < turns)
    (few : rounds + turns < displayed.length)
    (unselectable : ∀ place, view.selectable displayed place = false) :
    view.searchLoop turn displayed initial rounds (turn^[turns] initial) =
      turn^[rounds + turns] initial := by
  induction rounds generalizing turns with
  | zero => rw [searchLoop, Nat.zero_add]
  | succ rounds inductionHypothesis =>
      rw [searchLoop, if_neg (by simp [unselectable]),
        if_neg (turns_ne isTurn lt positive (by omega)), ← Function.iterate_succ_apply' turn,
        inductionHypothesis (Nat.succ_pos turns) (by omega)]
      congr 1
      omega

omit [DecidableEq Object] in
theorem search_nearest (view : View Object) {turn : ℕ → ℕ} {displayed : List Object}
    (isTurn : IsTurn displayed.length turn) {initial : ℕ} (lt : initial < displayed.length)
    (enough : displayed.length ≤ unscheduledRounds + 1) :
    Nearest view turn displayed initial (view.search turn displayed initial) :=
  searchLoop_nearest isTurn lt (show 0 < 1 by decide) enough (by omega)
    fun fewer positive small => by omega

omit [DecidableEq Object] in
/-- Whatever the number of menus, the next one is found when it can be selected. -/
theorem search_next (view : View Object) {turn : ℕ → ℕ} {displayed : List Object}
    (isTurn : IsTurn displayed.length turn) {initial : ℕ} (lt : initial < displayed.length)
    (can : view.selectable displayed (turn initial) = true) :
    Nearest view turn displayed initial (view.search turn displayed initial) := by
  rw [search, show unscheduledRounds = 9999 + 1 from rfl, searchLoop, if_pos can]
  rcases Nat.lt_or_ge 1 displayed.length with more | single
  · exact .inl ⟨1, one_pos, more, rfl, can, fun fewer positive small => by omega⟩
  · have zero : initial = 0 := by omega
    have alsoZero : turn initial = 0 := by
      have inside := isTurn.lt initial lt
      omega
    exact .inr ⟨by rw [alsoZero, zero], fun place placeLt other => by omega⟩

omit [DecidableEq Object] in
/-- In longer lists a menu that is the only one to be selected is not found again. -/
theorem not_nearest_of_long {turn : ℕ → ℕ} {displayed : List Object}
    (isTurn : IsTurn displayed.length turn) (long : unscheduledRounds + 1 < displayed.length)
    (unselectable : ∀ place, view.selectable displayed place = false) :
    ¬Nearest view turn displayed 0 (view.search turn displayed 0) := by
  have start : 0 < displayed.length := by omega
  have passed : view.search turn displayed 0 = turn^[unscheduledRounds + 1] 0 :=
    searchLoop_none isTurn start one_pos long unselectable
  rintro (⟨turns, -, -, -, can, -⟩ | ⟨same, -⟩)
  · rw [unselectable] at can
    cases can
  · rw [passed] at same
    exact turns_ne isTurn start (Nat.succ_pos _) long same

/-! ## Presses -/

def presses (view : View Object) (turn : ℕ → ℕ → ℕ) (toDisplay : List Object)
    (state : List Object × ℕ) : ℕ → Option (List Object × ℕ)
  | 0 => some state
  | count + 1 => (presses view turn toDisplay state count).bind (view.press turn toDisplay)

/-- As many presses as there are menus that can be selected visit each of them once and come back
to the first one. -/
def VisitsOnce (view : View Object) (turn : ℕ → ℕ → ℕ) (toDisplay displayed : List Object)
    (initial : ℕ) : Prop :=
  ∃ places : ℕ → ℕ,
    (∀ count, view.presses turn toDisplay (displayed, initial) count =
      some (displayed, places count)) ∧
    ((List.range ((List.range displayed.length).countP (view.selectable displayed))).map
      places).Perm ((List.range displayed.length).filter (view.selectable displayed)) ∧
    places ((List.range displayed.length).countP (view.selectable displayed)) = initial

omit [DecidableEq Object] in
/-- What is displayed can be selected as long as the scene is the same. -/
theorem selectable_displayed (view : View Object) {toDisplay : List Object} {place : ℕ}
    (lt : place < (toDisplay.filter view.displays).length) :
    view.selectable (toDisplay.filter view.displays) place = true := by
  have isDisplayed := (List.mem_filter.mp (List.getElem_mem lt)).2
  simp only [displays, validObject, Bool.and_eq_true, Bool.not_eq_true', Bool.or_eq_true]
    at isDisplayed
  obtain ⟨⟨⟨⟨⟨notNull, -⟩, -⟩, -⟩, -⟩, shown⟩ := isDisplayed
  rw [selectable, List.getElem?_eq_getElem lt]
  dsimp only
  rw [notNull]
  simpa [or_comm] using shown

/-- A press leads to the next place where a menu can be selected, and the frame finds it again. -/
theorem press_isNext {turn : ℕ → ℕ → ℕ} {toDisplay : List Object}
    (distinct : (toDisplay.filter view.displays).Nodup) {initial : ℕ}
    (isTurn : IsTurn (toDisplay.filter view.displays).length
      (turn (toDisplay.filter view.displays).length))
    (lt : initial < (toDisplay.filter view.displays).length) (turns : ℕ)
    (marked : view.selectable (toDisplay.filter view.displays)
      ((turn (toDisplay.filter view.displays).length)^[turns] initial) = true) :
    ∃ next, IsNext (fun turns => view.selectable (toDisplay.filter view.displays)
        ((turn (toDisplay.filter view.displays).length)^[turns] initial) = true) turns next ∧
      view.press turn toDisplay (toDisplay.filter view.displays,
          (turn (toDisplay.filter view.displays).length)^[turns] initial) =
        some (toDisplay.filter view.displays,
          (turn (toDisplay.filter view.displays).length)^[next] initial) := by
  have all (place : ℕ) (placeLt : place < (toDisplay.filter view.displays).length) :=
    view.selectable_displayed placeLt
  generalize shown : toDisplay.filter view.displays = displayed at *
  have inside : ∀ count, (turn displayed.length)^[count] initial < displayed.length := by
    intro count
    induction count with
    | zero => exact lt
    | succ count inductionHypothesis =>
        rw [Function.iterate_succ_apply']
        exact isTurn.lt _ inductionHypothesis
  have nearest := search_next view isTurn (inside turns) (all _ (isTurn.lt _ (inside turns)))
  generalize found : view.search (turn displayed.length) displayed
    ((turn displayed.length)^[turns] initial) = next at nearest
  obtain ⟨between, isNext, rfl⟩ : ∃ between,
      IsNext (fun turns => view.selectable displayed
        ((turn displayed.length)^[turns] initial) = true) turns (turns + between) ∧
      next = (turn displayed.length)^[turns + between] initial := by
    rcases nearest with ⟨between, positive, before, rfl, can, passed⟩ | ⟨rfl, alone⟩
    · rw [← Function.iterate_add_apply, Nat.add_comm] at can
      refine ⟨between, ⟨by omega, can, fun middle after earlier selected => ?_⟩,
        by rw [← Function.iterate_add_apply, Nat.add_comm]⟩
      have none := passed (middle - turns) (by omega) (by omega)
      rw [← Function.iterate_add_apply, Nat.sub_add_cancel after.le, selected] at none
      exact absurd none (by decide)
    · have back : (turn displayed.length)^[turns + displayed.length] initial =
          (turn displayed.length)^[turns] initial := by
        rw [Nat.add_comm, Function.iterate_add_apply, isTurn.returns _ (inside turns)]
      refine ⟨displayed.length, ⟨by omega, by rw [back]; exact marked,
        fun middle after earlier selected => ?_⟩, back.symm⟩
      have other := turns_ne isTurn (inside turns) (show 0 < middle - turns by omega)
        (show middle - turns < displayed.length by omega)
      rw [← Function.iterate_add_apply, Nat.sub_add_cancel after.le] at other
      rw [alone _ (inside middle) other] at selected
      exact absurd selected (by decide)
  refine ⟨turns + between, isNext, ?_⟩
  have isObject := List.getElem?_eq_getElem (inside (turns + between))
  have framed : (view.frame toDisplay _).2 = some _ :=
    frame_index (by rwa [shown]) (by rw [shown]; exact isObject)
  rw [press, found, isObject, Option.bind_some, framed, Option.map_some, frame_displayed, shown]

theorem visitsOnce {turn : ℕ → ℕ → ℕ} {toDisplay : List Object}
    (distinct : (toDisplay.filter view.displays).Nodup) {initial : ℕ}
    (isTurn : IsTurn (toDisplay.filter view.displays).length
      (turn (toDisplay.filter view.displays).length))
    (lt : initial < (toDisplay.filter view.displays).length)
    (can : view.selectable (toDisplay.filter view.displays) initial = true) :
    view.VisitsOnce turn toDisplay (toDisplay.filter view.displays) initial := by
  have step := press_isNext distinct isTurn lt
  generalize shown : toDisplay.filter view.displays = displayed at *
  choose! next isNext pressed using step
  have isWalk : IsWalk (fun turns => view.selectable displayed
      ((turn displayed.length)^[turns] initial) = true) fun count => next^[count] 0 := by
    have marked : ∀ count, view.selectable displayed
        ((turn displayed.length)^[next^[count] 0] initial) = true := by
      intro count
      induction count with
      | zero => exact can
      | succ count inductionHypothesis =>
          rw [Function.iterate_succ_apply']
          exact (isNext _ inductionHypothesis).marked
    refine ⟨rfl, can, fun count => ?_⟩
    rw [Function.iterate_succ_apply']
    exact isNext _ (marked count)
  have walked := isWalk.perm_filter displayed.length
  -- the marked turns stand for the places where a menu can be selected
  have turned : (((List.range displayed.length).filter fun turns => view.selectable displayed
      ((turn displayed.length)^[turns] initial)).map
        fun turns => (turn displayed.length)^[turns] initial).Perm
      ((List.range displayed.length).filter (view.selectable displayed)) := by
    have covers := (isTurn.covers initial lt).filter (view.selectable displayed)
    rwa [List.filter_map] at covers
  have counted : (List.range displayed.length).countP (view.selectable displayed) =
      Nat.count (fun turns => view.selectable displayed
        ((turn displayed.length)^[turns] initial) = true) displayed.length := by
    have same := walked.length_eq.trans (by simpa using turned.length_eq)
    simpa [List.countP_eq_length_filter] using same.symm
  refine ⟨fun count => (turn displayed.length)^[next^[count] 0] initial, fun count => ?_, ?_, ?_⟩
  · induction count with
    | zero => rfl
    | succ count inductionHypothesis =>
        rw [presses, inductionHypothesis, Option.bind_some, pressed _ (isWalk.marked_walk count)]
        simp only [Function.iterate_succ_apply']
  · rw [counted]
    have visited := walked.map fun turns => (turn displayed.length)^[turns] initial
    rw [List.map_map] at visited
    exact visited.trans (by simpa using turned)
  · rw [counted]
    have full : view.selectable displayed
        ((turn displayed.length)^[displayed.length] initial) = true := by
      rwa [isTurn.returns initial lt]
    simp only [isWalk.walk_count full]
    exact isTurn.returns initial lt

end View

namespace Surroundings

variable [DecidableEq Object]

def IsDirection (turn : ℕ → ℕ → ℕ) : Prop := turn = turnRight ∨ turn = turnLeft

theorem IsDirection.isTurn {turn : ℕ → ℕ → ℕ} (isDirection : IsDirection turn) (size : ℕ) :
    IsTurn size (turn size) := by
  rcases isDirection with rfl | rfl
  · exact isTurn_right size
  · exact isTurn_left size

/-- After a scan no list holds an object twice, and the keys go through the menus of each frame one
by one; in a list that is displayed they find the nearest menu. -/
structure CyclesOnce (around : Surroundings Object Menu) (objectsList : List Menu)
    (displayed : List Object) : Prop where
  cachedList : (around.cachedList objectsList).Nodup
  toDisplay : (around.toDisplay objectsList).Nodup
  frames : ∀ (view : View Object) selected,
    (view.frame (around.toDisplay objectsList) selected).1.Nodup
  nearest : ∀ (view : View Object) turn, IsDirection turn → ∀ initial < displayed.length,
    view.Nearest (turn displayed.length) displayed initial
      (view.search (turn displayed.length) displayed initial)
  visits : ∀ (view : View Object) turn, IsDirection turn → ∀ selected,
    ∀ initial < (view.frame (around.toDisplay objectsList) selected).1.length,
      view.selectable (view.frame (around.toDisplay objectsList) selected).1 initial = true →
        view.VisitsOnce turn (around.toDisplay objectsList)
          (view.frame (around.toDisplay objectsList) selected).1 initial

/-- The visible objects near the player come from one place each. -/
structure Apart (around : Surroundings Object Menu) (objectsList : List Menu) : Prop where
  ofBuildings : around.ofBuildings.Nodup
  found : ∀ object ∈ around.ofBuildings, around.isVisible object = true →
    object ∉ around.nearestObjects ∧ object ∉ around.attached objectsList
  attached : ((around.attached objectsList).filter fun object =>
    object ∉ around.nearestObjects && around.isVisible object).Nodup

variable {around : Surroundings Object Menu} {objectsList : List Menu}

theorem cachedList_perm :
    (around.cachedList objectsList).Perm (around.nearObjects objectsList) := by
  have sorted : (around.cachedList objectsList).Perm (((around.nearObjects objectsList).map
      fun object => (around.angle object, object)).map Prod.snd) := sortByAngle_perm
  rwa [List.map_map, show Prod.snd ∘ (fun object => (around.angle object, object)) = id from rfl,
    List.map_id] at sorted

theorem nearestAndAttached_nodup_iff :
    ((around.nearestObjects ++ (around.attached objectsList).filter
        (· ∉ around.nearestObjects)).filter around.isVisible).Nodup ↔
      ((around.attached objectsList).filter fun object =>
        object ∉ around.nearestObjects && around.isVisible object).Nodup := by
  rw [List.filter_append, List.filter_filter, List.nodup_append]
  have same : (fun object => around.isVisible object && decide (object ∉ around.nearestObjects)) =
      fun object => decide (object ∉ around.nearestObjects) && around.isVisible object :=
    funext fun object => Bool.and_comm _ _
  rw [same]
  constructor
  · exact fun nodup => nodup.2.1
  · refine fun nodup => ⟨around.nearestObjects_nodup.filter _, nodup, ?_⟩
    rintro first firstIn second secondIn rfl
    have absent := (List.mem_filter.mp secondIn).2
    rw [Bool.and_eq_true, decide_eq_true_eq] at absent
    exact absent.1 (List.mem_filter.mp firstIn).1

theorem mem_nearestAndAttached {object : Object} :
    object ∈ (around.nearestObjects ++ (around.attached objectsList).filter
        (· ∉ around.nearestObjects)).filter around.isVisible ↔
      around.isVisible object = true ∧
        (object ∈ around.nearestObjects ∨ object ∈ around.attached objectsList) := by
  simp only [List.mem_filter, List.mem_append, decide_eq_true_eq]
  tauto

theorem nearObjects_nodup_iff :
    (around.nearObjects objectsList).Nodup ↔ around.Apart objectsList := by
  rw [nearObjects, List.nodup_append, nearestAndAttached_nodup_iff]
  constructor
  · rintro ⟨ofBuildings, attached, apart⟩
    refine ⟨ofBuildings, fun object member visible => ?_, attached⟩
    rw [← not_or]
    exact fun found => apart object member object (mem_nearestAndAttached.mpr ⟨visible, found⟩) rfl
  · rintro ⟨ofBuildings, found, attached⟩
    refine ⟨ofBuildings, attached, ?_⟩
    rintro object member _ again rfl
    obtain ⟨visible, either⟩ := mem_nearestAndAttached.mp again
    exact not_or.mpr (found object member visible) either

def nothingShows : View Object where
  isNull _ := false
  isObjectHidden _ := false
  isPlayer _ := false
  inDistance _ := false
  blockedView _ := false
  hasItems _ := false
  shows _ := false

omit [DecidableEq Object] in
theorem nothingShows_selectable (displayed : List Object) (place : ℕ) :
    nothingShows.selectable displayed place = false := by
  rw [View.selectable]
  split <;> rfl

/-- Each menu is visited once exactly when the visible objects come from one place each: no door,
ladder or hatch is there twice or found by `nearestObjects` as well, and no other object that
`nearestObjects` does not find has two menus in `RTMS_OBJECTS_LIST`.  The search finds the nearest
menu as long as its rounds are enough for the whole cycle. -/
theorem cyclesOnce_iff (around : Surroundings Object Menu) (objectsList : List Menu)
    (displayed : List Object) :
    around.CyclesOnce objectsList displayed ↔
      around.Apart objectsList ∧ displayed.length ≤ unscheduledRounds + 1 := by
  rw [← nearObjects_nodup_iff, ← cachedList_perm.nodup_iff]
  constructor
  · refine fun cycles => ⟨cycles.cachedList, ?_⟩
    by_contra long
    have right : IsDirection turnRight := .inl rfl
    exact View.not_nearest_of_long (right.isTurn _) (by omega) (nothingShows_selectable displayed)
      (cycles.nearest nothingShows turnRight right 0 (by omega))
  · rintro ⟨distinct, enough⟩
    have toDisplay : (around.toDisplay objectsList).Nodup := distinct.filter _
    refine ⟨distinct, toDisplay, fun view selected => ?_, fun view turn isDirection initial lt =>
      view.search_nearest (isDirection.isTurn _) lt enough, ?_⟩
    · rw [View.frame_displayed]
      exact toDisplay.filter _
    · intro view turn isDirection selected initial lt can
      rw [View.frame_displayed] at lt can ⊢
      exact View.visitsOnce (toDisplay.filter _) (isDirection.isTurn _) lt can

/-- A box with two menus that `nearestObjects` does not find. -/
def boxWithTwo : Surroundings ℕ ℕ where
  nearBuildings := []
  owner _ := 1
  isNull _ := false
  inScan _ := true
  nearestObjects := []
  nearestObjects_nodup := List.nodup_nil
  isObjectHidden _ := false
  player := 0
  angle _ := 0
  inDisplay _ := true

theorem box_cached_twice :
    ¬∀ (around : Surroundings ℕ ℕ) (objectsList displayed : List ℕ),
      around.CyclesOnce objectsList displayed := by
  intro always
  exact absurd (always boxWithTwo [0, 1] []).cachedList (by decide)

end Surroundings

end OperationFrontLine.Menus
