import Mathlib.Algebra.Order.Field.Rat
import Mathlib.Order.Bounds.Basic
import Mathlib.Tactic.Linarith
import Mathlib.Tactic.Ring

/-!
# Navigation in submenus

The open menus are a stack, of which each level remembers the index and the direction that
were current when it was opened.  Each drawing pass walks over a copy of this stack from the
root, and closes menus at the other end as soon as an entry is out of range or its condition
fails.
-/

namespace OperationFrontLine.Menus

/-- An element of `RTMS_MENU_STACK`: the items of a menu, and the selected index and the
direction of the rotator at the time of its opening. -/
structure Level (Item : Type) where
  items : List Item
  lastSubMenu : ℤ
  rotatorDir : ℚ
  deriving DecidableEq, Repr

/-- The variables of the selected menu, with those of its object. -/
structure Navigation (Item : Type) where
  /-- `RTMS_MENU_STACK` -/
  menuStack : List (Level Item)
  /-- `RTMS_STACK_COUNT` -/
  stackCount : ℕ
  /-- `RTMS_STACK_COEFF` -/
  stackCoeff : ℚ
  /-- `RTMS_ROTATOR_DIR` -/
  rotatorDir : ℚ
  /-- `RTMS_SELECTED_SUB_MENU select 0` -/
  subOpen : Bool
  /-- `RTMS_SELECTED_SUB_MENU select 1` -/
  subIndex : ℤ
  /-- `RTMS_SUB_MENU_LIST` -/
  subMenuList : List Item
  /-- `RTMS_SUB_COUNT` -/
  subCount : ℕ
  /-- `RTMS_ROTATE_DELTA` -/
  rotateDelta : ℚ
  deriving DecidableEq, Repr

variable {Item : Type}

/-- `items select index` -/
def itemAt? (items : List Item) (index : ℤ) : Option Item :=
  if 0 ≤ index then items[index.toNat]? else none

/-- What a menu of this size adds to the coefficient, when a submenu is opened from it. -/
def spread (defaultRc : ℚ) (size : ℕ) : ℚ := defaultRc * max size 2

def coefficient (defaultRc : ℚ) (menuStack : List (Level Item)) : ℚ :=
  (menuStack.dropLast.map fun level => spread defaultRc level.items.length).sum

namespace Navigation

variable (defaultRc : ℚ)

/-- `RTMS_PushSubMenu`; `none` is a script error. -/
def pushSubMenu (navigation : Navigation Item) (subMenu : List Item) :
    Option (Navigation Item) :=
  if subMenu.length < 1 then some navigation
  else
    let menuStack := navigation.menuStack ++
      [⟨subMenu, navigation.subIndex, navigation.rotatorDir⟩]
    let opened := { navigation with
      menuStack := menuStack
      subCount := subMenu.length
      rotateDelta := 360 / subMenu.length
      stackCount := navigation.stackCount + 1
      subOpen := true }
    if opened.stackCount > 1 then
      menuStack[opened.stackCount - 2]?.map fun below => { opened with
        stackCoeff := navigation.stackCoeff + spread defaultRc below.items.length
        rotatorDir := 90
        subIndex := 0 }
    else some { opened with stackCoeff := 0 }

def popSubMenu (personal : Bool) (navigation : Navigation Item) : Option (Navigation Item) :=
  let closed (menuStack : List (Level Item)) := { navigation with
    menuStack := menuStack
    stackCount := 0
    subOpen := false
    subCount := navigation.subMenuList.length
    stackCoeff := 0
    rotateDelta := 360 / navigation.subMenuList.length }
  if personal ∧ navigation.stackCount < 2 then some navigation
  else if navigation.stackCount = 0 then some (closed navigation.menuStack)
  else do
    let last := navigation.stackCount - 1
    let subMenu ← navigation.menuStack[last]?
    let menuStack := navigation.menuStack.eraseIdx last
    if last = 0 then some (closed menuStack)
    else
      let top ← menuStack[last - 1]?
      some { navigation with
        menuStack := menuStack
        stackCount := last
        subIndex := subMenu.lastSubMenu
        rotatorDir := subMenu.rotatorDir
        subCount := top.items.length
        stackCoeff := navigation.stackCoeff - spread defaultRc top.items.length
        rotateDelta := 360 / top.items.length }

/-- `RTMS_KeyboardEvent`, the left key with a submenu open. -/
def keyLeft (normalizeAngle : ℚ → ℚ) (navigation : Navigation Item) : Navigation Item :=
  let endDir := normalizeAngle (navigation.rotatorDir + navigation.rotateDelta)
  let next := navigation.subIndex - 1
  let next := if next < 0 then (navigation.subCount : ℤ) - 1 else next
  { navigation with
    subIndex := next
    rotatorDir := if next = 0 then 90 else endDir }

/-- `RTMS_KeyboardEvent`, the right key with a submenu open. -/
def keyRight (normalizeAngle : ℚ → ℚ) (navigation : Navigation Item) : Navigation Item :=
  let endDir := normalizeAngle (navigation.rotatorDir + navigation.rotateDelta * -1)
  let next := navigation.subIndex + 1
  let next := if next ≥ navigation.subCount then 0 else next
  { navigation with
    subIndex := next
    rotatorDir := if next = 0 then 90 else endDir }

end Navigation

/-- What a drawing pass finds out about the entries of the open menus.  A condition is called
for the entry of a level. -/
structure Scene (Item : Type) where
  realDistance : ℚ
  /-- `[_object, _lastMenu select 7] call RTMS_AdaptDistance` -/
  adaptDistance : Item → ℚ
  /-- `!((_lastMenu select 8) isEqualTo [])` -/
  hasCondition : Item → Bool
  callCondition : ℕ → Item → Bool
  /-- `(_lastMenu select 10) getVariable "RTMS_SHOW"` -/
  shown : Item → Bool

def entryAt (menuStack : List (Level Item)) (level : ℕ) : Option Item := do
  let menu ← menuStack[level]?
  let opened ← menuStack[level + 1]?
  itemAt? menu.items opened.lastSubMenu

namespace Navigation

variable (defaultRc : ℚ) (personal : Bool) (scene : Scene Item)

/-- The loop over the copy of the stack, at some element of it; `temp` is the number of menus
at its beginning. -/
def closeFrom (tempArray : List (Level Item)) (temp : ℕ) :
    List (Level Item) → ℕ → Bool → Navigation Item → Option (Navigation Item)
  | [], _, _, navigation => some navigation
  | level :: rest, index, pop, navigation =>
      if index < temp - 1 then
        if !pop then do
          let opened ← tempArray[index + 1]?
          let lastMenu ← itemAt? level.items opened.lastSubMenu
          if scene.realDistance > scene.adaptDistance lastMenu then do
            let popped ← popSubMenu defaultRc personal navigation
            closeFrom tempArray temp rest (index + 1) true popped
          else if scene.hasCondition lastMenu && !scene.callCondition index lastMenu then do
            let popped ← popSubMenu defaultRc personal navigation
            closeFrom tempArray temp rest (index + 1) true popped
          else closeFrom tempArray temp rest (index + 1) false navigation
        else do
          let popped ← popSubMenu defaultRc personal navigation
          closeFrom tempArray temp rest (index + 1) true popped
      else closeFrom tempArray temp rest (index + 1) pop navigation

def drawSelected (navigation : Navigation Item) : Option (Navigation Item) :=
  if navigation.subOpen ∧ navigation.stackCount > 1 then do
    let tempArray := navigation.menuStack
    let root ← entryAt tempArray 0
    closeFrom defaultRc personal scene tempArray navigation.stackCount tempArray 0
      (!scene.shown root) navigation
  else some navigation

def drawMenus {Object : Type} [DecidableEq Object] (selected : Object) (displayed : List Object)
    (navigation : Navigation Item) : Option (Navigation Item) :=
  displayed.foldlM (fun drawn object =>
    if selected = object then drawSelected defaultRc personal scene drawn else some drawn)
    navigation

end Navigation

/-! ## Open menus -/

def topItems (menuStack : List (Level Item)) : List Item :=
  (menuStack.getLast?.map Level.items).getD []

def topSize (menuStack : List (Level Item)) : ℕ :=
  (topItems menuStack).length

namespace Navigation

structure Consistent (defaultRc : ℚ) (navigation : Navigation Item) : Prop where
  subOpen : navigation.subOpen = true
  nonempty : 0 < navigation.menuStack.length
  stackCount : navigation.stackCount = navigation.menuStack.length
  stackCoeff : navigation.stackCoeff = coefficient defaultRc navigation.menuStack
  entries : ∀ level, level + 1 < navigation.menuStack.length →
    (entryAt navigation.menuStack level).isSome
  subCount : navigation.subCount = topSize navigation.menuStack
  subIndex : 0 ≤ navigation.subIndex ∧ navigation.subIndex < navigation.subCount
  rotateDelta : navigation.rotateDelta = 360 / navigation.subCount

/-- The menu after all submenus above some number of menus have been closed, with the index and
the direction that were current when the first of these was opened. -/
def downTo (defaultRc : ℚ) (navigation : Navigation Item) (kept : ℕ) : Navigation Item :=
  match navigation.menuStack[kept]? with
  | none => navigation
  | some closed =>
      let menuStack := navigation.menuStack.take kept
      { navigation with
        menuStack := menuStack
        stackCount := kept
        stackCoeff := coefficient defaultRc menuStack
        rotatorDir := closed.rotatorDir
        subIndex := closed.lastSubMenu
        subCount := topSize menuStack
        rotateDelta := 360 / topSize menuStack }

end Navigation

def Scene.Passes (scene : Scene Item) (level : ℕ) (lastMenu : Item) : Prop :=
  scene.realDistance ≤ scene.adaptDistance lastMenu ∧
    (scene.hasCondition lastMenu = true → scene.callCondition level lastMenu = true)

/-- The lowest menus of a stack may stay open: the condition namespace of the root's entry is
shown, and all entries that lead to these menus pass. -/
structure Keeps (scene : Scene Item) (menuStack : List (Level Item)) (kept : ℕ) : Prop where
  positive : 0 < kept
  le_length : kept ≤ menuStack.length
  shown : 1 < kept → ∀ root ∈ entryAt menuStack 0, scene.shown root = true
  passes : ∀ level, level + 1 < kept → ∀ lastMenu ∈ entryAt menuStack level,
    scene.Passes level lastMenu

/-! ## Closing menus -/

theorem coefficient_append (defaultRc : ℚ) {menuStack : List (Level Item)}
    (nonempty : 0 < menuStack.length) (level : Level Item) :
    coefficient defaultRc (menuStack ++ [level]) =
      coefficient defaultRc menuStack + spread defaultRc (topSize menuStack) := by
  have notNil : menuStack ≠ [] := List.length_pos_iff.mp nonempty
  obtain ⟨below, top, rfl⟩ : ∃ below top, menuStack = below ++ [top] :=
    ⟨_, _, (List.dropLast_concat_getLast notNil).symm⟩
  simp [coefficient, topSize, topItems]

theorem itemAt?_isSome {items : List Item} {index : ℤ} :
    (itemAt? items index).isSome ↔ 0 ≤ index ∧ index < items.length := by
  rw [itemAt?]
  split
  · next positive =>
      rw [isSome_getElem?]
      exact ⟨fun lt => ⟨positive, by omega⟩, fun both => by omega⟩
  · next negative => exact ⟨fun none => absurd none Bool.false_ne_true,
      fun both => absurd both.1 negative⟩

theorem topItems_take {menuStack : List (Level Item)} {kept : ℕ}
    (lt : kept < menuStack.length) :
    topItems (menuStack.take (kept + 1)) = (menuStack[kept]).items := by
  rw [topItems, List.getLast?_eq_getElem?, List.length_take, min_eq_left (by omega),
    Nat.add_sub_cancel, List.getElem?_take_of_lt (by omega), List.getElem?_eq_getElem lt]
  rfl

theorem entryAt_take (menuStack : List (Level Item)) {level kept : ℕ} (below : level + 1 < kept) :
    entryAt (menuStack.take kept) level = entryAt menuStack level := by
  rw [entryAt, List.getElem?_take_of_lt (by omega), List.getElem?_take_of_lt below]
  rfl

theorem Keeps.take {scene : Scene Item} {menuStack : List (Level Item)} {kept most : ℕ}
    (bounded : most ≤ menuStack.length) :
    Keeps scene (menuStack.take most) kept ↔ kept ≤ most ∧ Keeps scene menuStack kept := by
  have same : ∀ level, level + 1 < kept → kept ≤ most →
      entryAt (menuStack.take most) level = entryAt menuStack level := fun level lt le =>
    entryAt_take menuStack (lt.trans_le le)
  have length : (menuStack.take most).length = most := by
    rw [List.length_take]
    omega
  constructor
  · intro keeps
    have le := length ▸ keeps.le_length
    refine ⟨le, keeps.positive, le.trans bounded, fun deep => ?_, fun level lt => ?_⟩
    · rw [← same 0 deep le]
      exact keeps.shown deep
    · rw [← same level lt le]
      exact keeps.passes level lt
  · rintro ⟨le, keeps⟩
    refine ⟨keeps.positive, by omega, fun deep => ?_, fun level lt => ?_⟩
    · rw [same 0 deep le]
      exact keeps.shown deep
    · rw [same level lt le]
      exact keeps.passes level lt

namespace Navigation

variable {defaultRc : ℚ} {navigation : Navigation Item}

theorem downTo_of_le {kept : ℕ} (all : navigation.menuStack.length ≤ kept) :
    navigation.downTo defaultRc kept = navigation := by
  rw [downTo, List.getElem?_eq_none all]

theorem downTo_of_lt {kept : ℕ} (lt : kept < navigation.menuStack.length) :
    navigation.downTo defaultRc kept = { navigation with
      menuStack := navigation.menuStack.take kept
      stackCount := kept
      stackCoeff := coefficient defaultRc (navigation.menuStack.take kept)
      rotatorDir := (navigation.menuStack[kept]).rotatorDir
      subIndex := (navigation.menuStack[kept]).lastSubMenu
      subCount := topSize (navigation.menuStack.take kept)
      rotateDelta := 360 / topSize (navigation.menuStack.take kept) } := by
  rw [downTo, List.getElem?_eq_getElem lt]

theorem downTo_menuStack (kept : ℕ) :
    (navigation.downTo defaultRc kept).menuStack = navigation.menuStack.take kept := by
  by_cases lt : kept < navigation.menuStack.length
  · rw [downTo_of_lt lt]
  · rw [downTo_of_le (by omega), List.take_of_length_le (by omega)]

theorem downTo_length {kept : ℕ} (bounded : kept ≤ navigation.menuStack.length) :
    (navigation.downTo defaultRc kept).menuStack.length = kept := by
  rw [downTo_menuStack, List.length_take]
  omega

theorem downTo_downTo {few kept : ℕ} (le : few ≤ kept) :
    (navigation.downTo defaultRc kept).downTo defaultRc few =
      navigation.downTo defaultRc few := by
  by_cases lt : kept < navigation.menuStack.length
  · rcases le.eq_or_lt with rfl | less
    · exact downTo_of_le (by rw [downTo_length lt.le])
    · rw [downTo_of_lt (by rw [downTo_length lt.le]; exact less), downTo_of_lt (less.trans lt)]
      simp [downTo_of_lt lt, List.take_take, min_eq_left less.le]
  · rw [downTo_of_le (show navigation.menuStack.length ≤ kept by omega)]

theorem Consistent.downTo (consistent : navigation.Consistent defaultRc) {kept : ℕ}
    (positive : 0 < kept) : (navigation.downTo defaultRc kept).Consistent defaultRc := by
  by_cases lt : kept < navigation.menuStack.length
  · have length : (navigation.downTo defaultRc kept).menuStack.length = kept :=
      downTo_length lt.le
    rw [downTo_of_lt lt] at length ⊢
    exact
      { subOpen := consistent.subOpen
        nonempty := by omega
        stackCount := length.symm
        stackCoeff := rfl
        entries := fun level below => by
          rw [length] at below
          rw [entryAt_take _ below]
          exact consistent.entries level (below.trans lt)
        subCount := rfl
        subIndex := by
          obtain ⟨below, rfl⟩ : ∃ below, kept = below + 1 := ⟨kept - 1, by omega⟩
          have entry := consistent.entries below lt
          rw [entryAt, List.getElem?_eq_getElem (by omega), List.getElem?_eq_getElem lt] at entry
          have top := topItems_take (show below < navigation.menuStack.length by omega)
          simpa only [topSize, top] using itemAt?_isSome.mp entry
        rotateDelta := rfl }
  · rwa [downTo_of_le (by omega)]

theorem popSubMenu_eq (consistent : navigation.Consistent defaultRc) (personal : Bool)
    (deep : 1 < navigation.menuStack.length) :
    popSubMenu defaultRc personal navigation =
      some (navigation.downTo defaultRc (navigation.menuStack.length - 1)) := by
  obtain ⟨below, last, split⟩ : ∃ below last, navigation.menuStack = below ++ [last] :=
    ⟨_, _, (List.dropLast_concat_getLast (List.length_pos_iff.mp consistent.nonempty)).symm⟩
  have length : navigation.menuStack.length = below.length + 1 := by simp [split]
  have positive : 0 < below.length := by omega
  obtain ⟨top, isTop⟩ : ∃ top, below[below.length - 1]? = some top :=
    ⟨_, List.getElem?_eq_getElem (by omega)⟩
  have size : topSize below = top.items.length := by
    rw [topSize, topItems, List.getLast?_eq_getElem?, isTop]
    rfl
  have shallow : ¬(personal = true ∧ navigation.stackCount < 2) := by
    rw [consistent.stackCount]
    omega
  rw [popSubMenu, if_neg shallow, downTo_of_lt (by omega)]
  have coeff := consistent.stackCoeff
  rw [split, coefficient_append defaultRc positive, size] at coeff
  simp [consistent.stackCount, split, isTop, coeff, size, positive.ne',
    List.eraseIdx_append_of_length_le]

/-! ### Operations on open menus -/

theorem pushSubMenu_root (navigation : Navigation Item) (closed : navigation.menuStack = [])
    (none : navigation.stackCount = 0) {subMenu : List Item} (nonempty : subMenu ≠ [])
    (inside : 0 ≤ navigation.subIndex ∧ navigation.subIndex < subMenu.length) :
    ∃ opened, pushSubMenu defaultRc navigation subMenu = some opened ∧
      opened.Consistent defaultRc := by
  have positive : 0 < subMenu.length := List.length_pos_iff.mpr nonempty
  refine ⟨_, by rw [pushSubMenu, if_neg (by omega), closed, none]; rfl, ?_⟩
  exact
    { subOpen := rfl
      nonempty := one_pos
      stackCount := rfl
      stackCoeff := by simp [coefficient]
      entries := fun level below => absurd below (by simp)
      subCount := rfl
      subIndex := inside
      rotateDelta := rfl }

/-- An item opens its submenu, and closing this one brings back what there was. -/
theorem pushSubMenu_open (consistent : navigation.Consistent defaultRc) {subMenu : List Item}
    (nonempty : subMenu ≠ []) :
    ∃ opened, pushSubMenu defaultRc navigation subMenu = some opened ∧
      opened.Consistent defaultRc ∧
      opened.downTo defaultRc navigation.menuStack.length = navigation := by
  have positive : 0 < subMenu.length := List.length_pos_iff.mpr nonempty
  obtain ⟨below, last, split⟩ : ∃ below last, navigation.menuStack = below ++ [last] :=
    ⟨_, _, (List.dropLast_concat_getLast (List.length_pos_iff.mp consistent.nonempty)).symm⟩
  have isTop : (navigation.menuStack ++
      [⟨subMenu, navigation.subIndex, navigation.rotatorDir⟩])[navigation.menuStack.length - 1]? =
        some last := by
    simp [split]
  have top : topItems navigation.menuStack = last.items := by simp [topItems, split]
  have size : topSize navigation.menuStack = last.items.length := by rw [topSize, top]
  refine ⟨_, by
    rw [pushSubMenu, if_neg (by omega)]
    simp only [consistent.stackCount, gt_iff_lt, Nat.lt_add_left_iff_pos, consistent.nonempty,
      if_true, Nat.reduceSubDiff, isTop, Option.map_some]
    rfl, ?_, ?_⟩
  · exact
      { subOpen := rfl
        nonempty := by simp
        stackCount := by simp
        stackCoeff := by
          rw [coefficient_append defaultRc consistent.nonempty, size, ← consistent.stackCoeff]
        entries := fun level below => by
          rw [List.length_append, List.length_singleton] at below
          rcases Nat.lt_or_ge (level + 1) navigation.menuStack.length with inside | edge
          · have entry := consistent.entries level inside
            rwa [← entryAt_take _ inside, List.take_left]
          · obtain rfl : level = navigation.menuStack.length - 1 := by omega
            rw [entryAt, isTop, Nat.sub_add_cancel consistent.nonempty,
              List.getElem?_append_right le_rfl, Nat.sub_self]
            exact itemAt?_isSome.mpr (by
              rw [← size, ← consistent.subCount]
              exact consistent.subIndex)
        subCount := by simp [topSize, topItems]
        subIndex := ⟨le_rfl, Int.natCast_pos.mpr positive⟩
        rotateDelta := rfl }
  · rw [downTo_of_lt (by simp)]
    simp [← consistent.stackCoeff, ← consistent.subCount, ← consistent.rotateDelta,
      ← consistent.stackCount, ← consistent.subOpen]

theorem keyLeft_consistent (consistent : navigation.Consistent defaultRc)
    (normalizeAngle : ℚ → ℚ) : (keyLeft normalizeAngle navigation).Consistent defaultRc where
  __ := consistent
  subIndex := by
    have inside := consistent.subIndex
    simp only [keyLeft]
    split <;> omega

theorem keyRight_consistent (consistent : navigation.Consistent defaultRc)
    (normalizeAngle : ℚ → ℚ) : (keyRight normalizeAngle navigation).Consistent defaultRc where
  __ := consistent
  subIndex := by
    have inside := consistent.subIndex
    simp only [keyRight]
    split <;> omega

/-- The menus that the keys open: the menu of an object, and from it submenus. -/
inductive Opened (defaultRc : ℚ) : Navigation Item → Prop
  /-- the index is that of the last time, or the first -/
  | root {closed opened : Navigation Item} (empty : closed.menuStack = [])
      (zero : closed.stackCount = 0) (items : closed.subMenuList ≠ [])
      (inside : 0 ≤ closed.subIndex ∧ closed.subIndex < closed.subMenuList.length)
      (pushed : pushSubMenu defaultRc closed closed.subMenuList = some opened) :
      Opened defaultRc opened
  | push {navigation opened : Navigation Item} (isOpen : Opened defaultRc navigation)
      {subMenu : List Item} (items : subMenu ≠ [])
      (pushed : pushSubMenu defaultRc navigation subMenu = some opened) : Opened defaultRc opened
  | pop {navigation popped : Navigation Item} (isOpen : Opened defaultRc navigation)
      (personal : Bool) (deep : 1 < navigation.stackCount)
      (closed : popSubMenu defaultRc personal navigation = some popped) :
      Opened defaultRc popped
  | left {navigation : Navigation Item} (isOpen : Opened defaultRc navigation)
      (normalizeAngle : ℚ → ℚ) : Opened defaultRc (keyLeft normalizeAngle navigation)
  | right {navigation : Navigation Item} (isOpen : Opened defaultRc navigation)
      (normalizeAngle : ℚ → ℚ) : Opened defaultRc (keyRight normalizeAngle navigation)

theorem Opened.consistent (isOpen : Opened defaultRc navigation) :
    navigation.Consistent defaultRc := by
  induction isOpen with
  | @root closed opened empty zero items inside pushed =>
      obtain ⟨result, is, consistent⟩ :=
        @pushSubMenu_root _ defaultRc closed empty zero _ items inside
      rwa [Option.some.inj (pushed.symm.trans is)]
  | push _ items pushed inductionHypothesis =>
      obtain ⟨result, is, consistent, -⟩ := pushSubMenu_open inductionHypothesis items
      rwa [Option.some.inj (pushed.symm.trans is)]
  | pop _ personal deep closed inductionHypothesis =>
      rw [inductionHypothesis.stackCount] at deep
      have is := popSubMenu_eq inductionHypothesis personal deep
      rw [Option.some.inj (closed.symm.trans is)]
      exact inductionHypothesis.downTo (by omega)
  | left _ normalizeAngle inductionHypothesis =>
      exact keyLeft_consistent inductionHypothesis normalizeAngle
  | right _ normalizeAngle inductionHypothesis =>
      exact keyRight_consistent inductionHypothesis normalizeAngle

/-! ### The drawing pass -/

/-- Once an entry has failed, one level is closed for each remaining element of the copy. -/
theorem closeFrom_pop (personal : Bool) (scene : Scene Item) (tempArray : List (Level Item))
    (temp : ℕ) (rest : List (Level Item)) (index : ℕ)
    (consistent : navigation.Consistent defaultRc) (whole : index + rest.length = temp)
    (enough : temp - 1 - index < navigation.menuStack.length) :
    closeFrom defaultRc personal scene tempArray temp rest index true navigation =
      some (navigation.downTo defaultRc
        (navigation.menuStack.length - (temp - 1 - index))) := by
  induction rest generalizing index navigation with
  | nil =>
      rw [List.length_nil] at whole
      rw [closeFrom, downTo_of_le (by omega)]
  | cons level rest inductionHypothesis =>
      rw [List.length_cons] at whole
      rw [closeFrom]
      by_cases inside : index < temp - 1
      · have popped := popSubMenu_eq consistent personal (by omega)
        have length : (navigation.downTo defaultRc
            (navigation.menuStack.length - 1)).menuStack.length = _ :=
          downTo_length (Nat.sub_le navigation.menuStack.length 1)
        have next := inductionHypothesis (index + 1)
          (consistent.downTo (show 0 < navigation.menuStack.length - 1 by omega))
          (by omega) (by omega)
        rw [length, downTo_downTo (by omega)] at next
        simp only [inside, if_true, Bool.not_true, Bool.false_eq_true, if_false, popped,
          Option.bind_eq_bind, Option.bind_some, next]
        congr 2
        omega
      · rw [if_neg inside, inductionHypothesis (index + 1) consistent (by omega) (by omega)]
        congr 2
        omega

theorem closeFrom_longest (personal : Bool) (scene : Scene Item)
    (consistent : navigation.Consistent defaultRc) (rest : List (Level Item)) (index : ℕ)
    (walked : navigation.menuStack.drop index = rest)
    (shown : ∀ root ∈ entryAt navigation.menuStack 0, scene.shown root = true)
    (keeps : Keeps scene navigation.menuStack (index + 1)) :
    ∃ kept, IsGreatest { kept | Keeps scene navigation.menuStack kept } kept ∧
      closeFrom defaultRc personal scene navigation.menuStack navigation.menuStack.length
        rest index false navigation = some (navigation.downTo defaultRc kept) := by
  have bounded : index < navigation.menuStack.length := keeps.le_length
  induction rest generalizing index with
  | nil => exact absurd (List.drop_eq_nil_iff.mp walked) (by omega)
  | cons level rest inductionHypothesis =>
      obtain ⟨rfl, walkedRest⟩ := List.cons.inj
        ((List.drop_eq_getElem_cons bounded).symm.trans walked)
      have restLength : rest.length + (index + 1) = navigation.menuStack.length := by
        rw [← walkedRest, List.length_drop]
        omega
      rw [closeFrom]
      by_cases inside : index < navigation.menuStack.length - 1
      · obtain ⟨lastMenu, isEntry⟩ := Option.isSome_iff_exists.mp
          (consistent.entries index (by omega))
        have reads := isEntry
        rw [entryAt, List.getElem?_eq_getElem bounded,
          List.getElem?_eq_getElem (show index + 1 < _ by omega)] at reads
        simp only [Option.bind_eq_bind, Option.bind_some] at reads
        simp only [inside, if_true, Bool.not_false,
          List.getElem?_eq_getElem (show index + 1 < navigation.menuStack.length by omega),
          Option.bind_eq_bind, Option.bind_some, reads]
        -- closing this level and all above it
        have closes (fails : ¬scene.Passes index lastMenu) :
            IsGreatest { kept | Keeps scene navigation.menuStack kept } (index + 1) ∧
              ((popSubMenu defaultRc personal navigation).bind fun popped =>
                closeFrom defaultRc personal scene navigation.menuStack
                  navigation.menuStack.length rest (index + 1) true popped) =
                some (navigation.downTo defaultRc (index + 1)) := by
          refine ⟨⟨keeps, fun kept also => ?_⟩, ?_⟩
          · by_contra more
            exact fails (also.passes index (by omega) lastMenu isEntry)
          · have length : (navigation.downTo defaultRc
                (navigation.menuStack.length - 1)).menuStack.length = _ :=
              downTo_length (Nat.sub_le navigation.menuStack.length 1)
            rw [popSubMenu_eq consistent personal (by omega), Option.bind_some,
              closeFrom_pop personal scene _ _ rest (index + 1)
                (consistent.downTo (by omega)) (by omega) (by omega),
              length, downTo_downTo (by omega)]
            congr 2
            omega
        by_cases far : scene.realDistance > scene.adaptDistance lastMenu
        · obtain ⟨greatest, closed⟩ := closes fun passes => absurd passes.1 (not_le.mpr far)
          exact ⟨index + 1, greatest, by rw [if_pos far]; exact closed⟩
        · rw [if_neg far]
          by_cases refused : (scene.hasCondition lastMenu &&
              !scene.callCondition index lastMenu) = true
          · obtain ⟨has, fails⟩ := (Bool.and_eq_true _ _).mp refused
            obtain ⟨greatest, closed⟩ := closes fun passes => by
              rw [passes.2 has] at fails
              exact Bool.false_ne_true fails
            exact ⟨index + 1, greatest, by rw [if_pos refused]; exact closed⟩
          · have passes : scene.Passes index lastMenu := by
              refine ⟨not_lt.mp far, fun has => ?_⟩
              by_contra fails
              exact refused (by simp [has, fails])
            rw [if_neg refused]
            refine inductionHypothesis (index + 1) walkedRest ?_ (by omega)
            refine ⟨by omega, by omega, fun _ => shown, fun other below entry isOther => ?_⟩
            rcases Nat.lt_or_ge (other + 1) (index + 1) with less | last
            · exact keeps.passes other less entry isOther
            · obtain rfl : other = index := by omega
              obtain rfl := Option.some.inj (isEntry.symm.trans isOther)
              exact passes
      · obtain rfl : rest = [] := List.length_eq_zero_iff.mp (by omega)
        rw [if_neg inside, closeFrom]
        have whole : index + 1 = navigation.menuStack.length := by omega
        exact ⟨index + 1, ⟨keeps, fun kept also => whole ▸ also.le_length⟩,
          by rw [downTo_of_le whole.ge]⟩

theorem drawSelected_longest (consistent : navigation.Consistent defaultRc) (personal : Bool)
    (scene : Scene Item) :
    ∃ kept, IsGreatest { kept | Keeps scene navigation.menuStack kept } kept ∧
      drawSelected defaultRc personal scene navigation =
        some (navigation.downTo defaultRc kept) := by
  have root : Keeps scene navigation.menuStack 1 :=
    ⟨one_pos, consistent.nonempty, fun deep => absurd deep (lt_irrefl 1),
      fun level below => absurd below (by omega)⟩
  rw [drawSelected, consistent.subOpen, consistent.stackCount]
  by_cases deep : navigation.menuStack.length > 1
  · obtain ⟨rootEntry, isRoot⟩ := Option.isSome_iff_exists.mp (consistent.entries 0 deep)
    simp only [deep, and_self, if_true, isRoot, Option.bind_eq_bind, Option.bind_some]
    cases shown : scene.shown rootEntry with
    | true =>
        exact closeFrom_longest personal scene consistent _ 0 List.drop_zero
          (fun entry isEntry => by rwa [← Option.some.inj (isRoot.symm.trans isEntry)]) root
    | false =>
        refine ⟨1, ⟨root, fun kept also => ?_⟩, ?_⟩
        · by_contra more
          have isShown := also.shown (by omega) rootEntry isRoot
          rw [shown] at isShown
          exact Bool.false_ne_true isShown
        · rw [Bool.not_false, closeFrom_pop personal scene _ _ _ 0 consistent (by omega)
            (by omega)]
          congr 2
          omega
  · have one : navigation.menuStack.length = 1 :=
      le_antisymm (not_lt.mp deep) consistent.nonempty
    refine ⟨1, ⟨root, fun kept also => one ▸ also.le_length⟩, ?_⟩
    rw [if_neg fun both => deep both.2, downTo_of_le one.le]

/-- One drawing pass keeps the longest part of the stack that may stay open, whatever the tests
say. -/
theorem drawMenus_longest {Object : Type} [DecidableEq Object]
    (consistent : navigation.Consistent defaultRc) (personal : Bool) (scene : Scene Item)
    {selected : Object} {displayed : List Object} (drawn : selected ∈ displayed) :
    ∃ kept, IsGreatest { kept | Keeps scene navigation.menuStack kept } kept ∧
      drawMenus defaultRc personal scene selected displayed navigation =
        some (navigation.downTo defaultRc kept) ∧
      (navigation.downTo defaultRc kept).Consistent defaultRc := by
  obtain ⟨kept, greatest, closed⟩ := drawSelected_longest consistent personal scene
  have consistentThen := consistent.downTo greatest.1.positive
  refine ⟨kept, greatest, ?_, consistentThen⟩
  -- what was kept stays open, should the object be drawn again
  have again : drawSelected defaultRc personal scene (navigation.downTo defaultRc kept) =
      some (navigation.downTo defaultRc kept) := by
    obtain ⟨few, greatestThen, closedThen⟩ := drawSelected_longest consistentThen personal scene
    rw [downTo_menuStack] at greatestThen
    have keepsAll : kept ≤ few :=
      greatestThen.2 ((Keeps.take greatest.1.le_length).mpr ⟨le_rfl, greatest.1⟩)
    rw [closedThen, downTo_of_le (by rwa [downTo_length greatest.1.le_length])]
  have stays (objects : List Object) :
      drawMenus defaultRc personal scene selected objects (navigation.downTo defaultRc kept) =
        some (navigation.downTo defaultRc kept) := by
    induction objects with
    | nil => rfl
    | cons object objects inductionHypothesis =>
        rw [drawMenus, List.foldlM_cons]
        by_cases same : selected = object
        · rw [if_pos same, again]
          exact inductionHypothesis
        · rw [if_neg same]
          exact inductionHypothesis
  induction displayed with
  | nil => exact absurd drawn List.not_mem_nil
  | cons object objects inductionHypothesis =>
      rw [drawMenus, List.foldlM_cons]
      by_cases same : selected = object
      · rw [if_pos same, closed]
        exact stays objects
      · rw [if_neg same]
        exact inductionHypothesis ((List.mem_cons.mp drawn).resolve_left same)

/-- Two submenus are open, and the entry of the first of them is out of range. -/
def twoSubMenus : Navigation ℕ where
  menuStack := [⟨[10, 11], 0, 90⟩, ⟨[20, 21, 22], 1, 270⟩, ⟨[30], 2, 330⟩]
  stackCount := 3
  stackCoeff := 2 + 3
  rotatorDir := 90
  subOpen := true
  subIndex := 0
  subMenuList := [10, 11]
  subCount := 1
  rotateDelta := 360

def outOfRange : Scene ℕ where
  realDistance := 5
  adaptDistance item := if item = 22 then 3 else 8
  hasCondition item := item = 11
  callCondition _ _ := true
  shown _ := true

/-- The right key selects item 11, which opens the first submenu, and there item 22. -/
theorem twoSubMenus_opened : Opened 1 twoSubMenus := by
  have root : Opened 1 (⟨[⟨[10, 11], 0, 90⟩], 1, 0, 90, true, 0, [10, 11], 2, 180⟩ :
      Navigation ℕ) :=
    @Opened.root _ _ ⟨[], 0, 0, 90, false, 0, [10, 11], 2, 180⟩ _ rfl rfl (by decide)
      (by decide) (by decide +kernel)
  have first := (root.right fun _ => 270).push (show [20, 21, 22] ≠ [] by decide)
    (Option.some_get (by decide +kernel)).symm
  have second := ((first.right fun _ => 330).right fun _ => 330).push (show [30] ≠ [] by decide)
    (Option.some_get (by decide +kernel)).symm
  convert second using 1
  decide +kernel

theorem drawMenus_longest_two :
    ∃ kept, IsGreatest { kept | Keeps outOfRange twoSubMenus.menuStack kept } kept ∧
      drawMenus 1 false outOfRange 0 [0] twoSubMenus = some (twoSubMenus.downTo 1 kept) ∧
      (twoSubMenus.downTo 1 kept).Consistent 1 :=
  drawMenus_longest twoSubMenus_opened.consistent false outOfRange (List.mem_singleton.mpr rfl)

example : drawMenus 1 false outOfRange 0 [0] twoSubMenus = some (twoSubMenus.downTo 1 2) := by
  decide +kernel

end Navigation

end OperationFrontLine.Menus
