import OperationFrontLine.Library.Numeral
import OperationFrontLine.Menus.Tables

/-!
# Requests for menus

`RTMS_SendRequest` checks a request and puts it into `RTMS_REQUESTS`; `RTMS_ProcessRequests`
checks each request again and applies it.  Requests are for menus of classes, of objects and of
the personal menu, which has copies of the internal menus of the player's vehicle.
-/

namespace OperationFrontLine.Menus

open OperationFrontLine.Library

universe u v w x

variable {Object : Type u} {Class : Type v} {Menu : Type w} {Item : Type x}

/-- What `RTMS_ProcessRequests` reads of the game besides the variables of the objects.  The class
in `CLASS_NAME` is a text, in which only `in` tells capital letters from small ones. -/
structure Game (Object : Type u) (Class : Type v) (Menu : Type w) (Item : Type x)
    extends World Object Class Menu Item where
  classText : Menu → Text
  /-- the class that a text names: texts are `==` when this is the same -/
  classOf : Text → Class
  classOf_classText : ∀ logic name, className logic = .name name → classOf (classText logic) = name
  isNull : Object → Bool
  /-- `RTMS_PERSONAL_MENU` -/
  personalMenu : Object
  /-- the menu that a call of `RTMS_CopyMenuObject` makes, for the number of earlier calls -/
  copyMenuObject : Menu → ℕ → Menu
  /-- what `count` returns when `exitWith` ends it, for the elements counted until then -/
  countLeft : ℕ → Option ℕ

structure MenuState (Object : Type u) (Menu : Type w) (Item : Type x) where
  tables : Tables Object Menu Item
  /-- `RTMS_CLASS_NAMES` -/
  classNames : List Text
  /-- `RTMS_ACTIVE_COPIES` of the personal menu -/
  activeCopies : List (Menu × Menu)
  /-- `RTMS_PERSONAL_SOURCE` -/
  personalSource : Object
  /-- `RTMS_CLEANUP_LIST` -/
  cleanupList : List Menu
  /-- the calls of `RTMS_CopyMenuObject` -/
  copied : ℕ
  /-- `RTMS_REQUESTS` -/
  requests : List (Menu × Bool)

/-- `deleteAt` of the index that a loop found, which is 0 when it found none. -/
def deleteFound {Entry : Type w} [DecidableEq Entry] (entries : List Entry) (entry : Entry) :
    List Entry :=
  entries.eraseIdx (if entry ∈ entries then entries.idxOf entry else 0)

theorem deleteFound_of_mem {Entry : Type w} [DecidableEq Entry] {entries : List Entry}
    {entry : Entry} (member : entry ∈ entries) :
    deleteFound entries entry = entries.erase entry := by
  rw [deleteFound, if_pos member, List.erase_eq_eraseIdx_of_idxOf rfl]

/-- A name goes into `RTMS_CLASS_NAMES` unless it is there. -/
def addClassName (names : List Text) (name : Text) : List Text :=
  if name ∈ names then names else names ++ [name]

/-- The first name that the search finds goes away, or the first of all when it finds none. -/
def deleteClassName (same : Text → Bool) (names : List Text) : List Text :=
  names.eraseIdx ((names.findIdx? same).getD 0)

def addNameOf (game : Game Object Class Menu Item) (names : List Text) (logic : Menu) :
    List Text :=
  match game.className logic with
  | .name _ => addClassName names (game.classText logic)
  | _ => names

namespace MenuState

variable [DecidableEq Object] [DecidableEq Class] [DecidableEq Menu]
  (game : Game Object Class Menu Item)

def loadMenuClasses (state : MenuState Object Menu Item) (classes : List Menu) :
    MenuState Object Menu Item :=
  { state with
    tables.classList := game.mapHierarchy (state.tables.classList ++ classes)
    classNames := classes.foldl (addNameOf game) state.classNames }

/-- `RTMS_IsInstalled`, which is nil when the personal menu has no menus. -/
def isInstalled (state : MenuState Object Menu Item) (logic : Menu) : Option Bool :=
  match game.className logic with
  | .name _ => some (logic ∈ state.tables.classList)
  | .object _ => some (logic ∈ state.tables.objectsList)
  | .personal =>
      (state.tables.menuVariables game.personalMenu).activeMenu.map fun activeMenu =>
        decide (logic ∈ activeMenu)

/-- `RTMS_CheckRequest`; conditions that are nil do not hold. -/
def checkRequest (state : MenuState Object Menu Item) (request : Menu × Bool) : Bool :=
  match state.isInstalled game request.1 with
  | none => true
  | some installed =>
      if installed && request.2 then false
      else if !installed && !request.2 then false
      else true

def sendRequest (state : MenuState Object Menu Item) (request : Menu × Bool) :
    MenuState Object Menu Item :=
  if !state.checkRequest game request then state
  else { state with requests := state.requests ++ [request] }

def setVariables (state : MenuState Object Menu Item) (object : Object)
    (menuVariables : MenuVariables Menu Item) : MenuState Object Menu Item :=
  { state with tables := state.tables.setVariables object menuVariables }

/-- A copy of an internal menu is installed on the personal menu. -/
def installCopy (state : MenuState Object Menu Item) (logic : Menu) :
    MenuState Object Menu Item :=
  let newLogic := game.copyMenuObject logic state.copied
  { state.setVariables game.personalMenu
      ((state.tables.menuVariables game.personalMenu).installMenuObjects
        (game.contents game.personalMenu) [newLogic]) with
    activeCopies := state.activeCopies ++ [(logic, newLogic)]
    copied := state.copied + 1 }

def addCopy (state : MenuState Object Menu Item) (logic : Menu) :
    MenuState Object Menu Item :=
  if game.isInternal logic then state.installCopy game logic else state

/-- The first copy of a menu is taken from the personal menu. -/
def uninstallCopy (state : MenuState Object Menu Item) (logic : Menu) :
    MenuState Object Menu Item :=
  match state.activeCopies.find? fun pair => pair.1 = logic with
  | none => state
  | some pair =>
      { state.setVariables game.personalMenu
          ((state.tables.menuVariables game.personalMenu).uninstallMenuObjects
            (game.contents game.personalMenu) [pair.2]) with
        activeCopies := state.activeCopies.eraseP fun pair => pair.1 = logic
        cleanupList := state.cleanupList ++ [pair.2] }

/-- The class menus of an object are taken away and those of the list are installed.  Where
`RTMS_ACTIVE_MENU` is nil, the first of these leaves it nil. -/
def reinstall (state : MenuState Object Menu Item) (object : Object) :
    MenuState Object Menu Item :=
  let menuVariables := state.tables.menuVariables object
  let logics := (menuVariables.activeMenu.getD []).filter (· ∉ state.tables.objectsList)
  state.setVariables object
    ((menuVariables.uninstallMenuObjects (game.contents object) logics).installMenuObjects
      (game.contents object) (state.tables.classMenus game.toWorld object))

/-- A round of the loop over `RTMS_CACHED_LIST`, in which the copies of the menu are also brought
up to date when the object is the player's vehicle. -/
def forCached (updateCopies : MenuState Object Menu Item → MenuState Object Menu Item)
    (name : Class) (state : MenuState Object Menu Item) (object : Object) :
    MenuState Object Menu Item :=
  if game.isNull object then state
  else if game.isOfClass object name then
    let state := state.reinstall game object
    if state.personalSource = object then updateCopies state else state
  else state

def install (state : MenuState Object Menu Item) (logic : Menu) :
    MenuState Object Menu Item :=
  match game.className logic with
  | .object object =>
      if game.isNull object then state
      else
        let menuVariables := state.tables.menuVariables object
        let activeMenu := menuVariables.activeMenu.getD []
        let state := state.setVariables object
          ((menuVariables.uninstallMenuObjects (game.contents object) activeMenu).installMenuObjects
            (game.contents object) (logic :: activeMenu))
        let state := { state with
          tables.objectsList := state.tables.objectsList ++ [logic] }
        if state.personalSource = object then state.addCopy game logic else state
  | .personal =>
      let menuVariables := state.tables.menuVariables game.personalMenu
      let contents := game.contents game.personalMenu
      match menuVariables.activeMenu with
      | none => state.setVariables game.personalMenu
          (menuVariables.installMenuObjects contents [logic])
      | some activeMenu => state.setVariables game.personalMenu
          ((menuVariables.uninstallMenuObjects contents activeMenu).installMenuObjects contents
            (logic :: activeMenu))
  | .name name =>
      let state := { state with
        tables.classList := game.mapHierarchy (logic :: state.tables.classList) }
      let state := state.tables.cachedList.foldl
        (forCached game (fun state => state.addCopy game logic) name) state
      { state with classNames := addClassName state.classNames (game.classText logic) }

/-- The menus of the same class that stand before a menu in `RTMS_CLASS_LIST`. -/
def sameBefore (state : MenuState Object Menu Item) (logic : Menu) : ℕ :=
  (state.tables.classList.takeWhile (· ≠ logic)).countP fun other =>
    game.className logic = game.className other

/-- `_count`, when a menu of a class is uninstalled: the loop ends at the menu. -/
def countSame (state : MenuState Object Menu Item) (logic : Menu) : Option ℕ :=
  if logic ∈ state.tables.classList then game.countLeft (state.sameBefore game logic)
  else some (state.tables.classList.countP fun other =>
    game.className logic = game.className other)

def uninstall (state : MenuState Object Menu Item) (logic : Menu) :
    MenuState Object Menu Item :=
  match game.className logic with
  | .object object =>
      if game.isNull object then state
      else if logic ∈ state.tables.objectsList then
        let state := { state with
          tables.objectsList := state.tables.objectsList.eraseIdx
            (state.tables.objectsList.idxOf logic) }
        let state := state.setVariables object
          ((state.tables.menuVariables object).uninstallMenuObjects (game.contents object) [logic])
        if state.personalSource = object then state.uninstallCopy game logic else state
      else state
  | .personal =>
      let menuVariables := state.tables.menuVariables game.personalMenu
      if logic ∈ menuVariables.activeMenu.getD [] then
        state.setVariables game.personalMenu
          (menuVariables.uninstallMenuObjects (game.contents game.personalMenu) [logic])
      else state
  | .name name =>
      let classNames := if state.countSame game logic = some 1 then
        deleteClassName (fun other => name = game.classOf other) state.classNames
        else state.classNames
      let state := { state with
        classNames := classNames
        tables.classList := game.mapHierarchy (deleteFound state.tables.classList logic) }
      state.tables.cachedList.foldl
        (forCached game (fun state => state.uninstallCopy game logic) name) state

def apply (state : MenuState Object Menu Item) (request : Menu × Bool) :
    MenuState Object Menu Item :=
  if request.2 then state.install game request.1 else state.uninstall game request.1

/-- The loop over `RTMS_REQUESTS`, with the requests that it applied: `exitWith` ends the loop
and not only the round of the request that is not valid. -/
def requestLoop (state : MenuState Object Menu Item) :
    List (Menu × Bool) → MenuState Object Menu Item × List (Menu × Bool)
  | [] => (state, [])
  | request :: requests =>
      if !state.checkRequest game request then (state, [])
      else
        let (after, applied) := requestLoop (state.apply game request) requests
        (after, request :: applied)

/-- `RTMS_ProcessRequests`, with the requests that it applied. -/
def processRequests (state : MenuState Object Menu Item) :
    MenuState Object Menu Item × List (Menu × Bool) :=
  let looped := state.requestLoop game state.requests
  ({ looped.1 with requests := [] }, looped.2)

/-! ## The lists behind a request -/

structure SameLists (before after : MenuState Object Menu Item) : Prop where
  classList : after.tables.classList = before.tables.classList
  objectsList : after.tables.objectsList = before.tables.objectsList
  cachedList : after.tables.cachedList = before.tables.cachedList
  classNames : after.classNames = before.classNames

omit [DecidableEq Object] [DecidableEq Class] [DecidableEq Menu] in
theorem SameLists.refl (state : MenuState Object Menu Item) : SameLists state state :=
  ⟨rfl, rfl, rfl, rfl⟩

omit [DecidableEq Object] [DecidableEq Class] [DecidableEq Menu] in
theorem SameLists.trans {first second third : MenuState Object Menu Item}
    (before : SameLists first second) (after : SameLists second third) : SameLists first third :=
  ⟨after.classList.trans before.classList, after.objectsList.trans before.objectsList,
    after.cachedList.trans before.cachedList, after.classNames.trans before.classNames⟩

variable {game}

omit [DecidableEq Class] [DecidableEq Menu] in
theorem sameLists_installCopy (state : MenuState Object Menu Item) (logic : Menu) :
    SameLists state (state.installCopy game logic) := ⟨rfl, rfl, rfl, rfl⟩

omit [DecidableEq Class] in
theorem sameLists_uninstallCopy (state : MenuState Object Menu Item) (logic : Menu) :
    SameLists state (state.uninstallCopy game logic) := by
  rw [uninstallCopy]
  split
  · exact .refl state
  · exact ⟨rfl, rfl, rfl, rfl⟩

theorem sameLists_forCached
    {updateCopies : MenuState Object Menu Item → MenuState Object Menu Item}
    (updates : ∀ state, SameLists state (updateCopies state)) (name : Class)
    (objects : List Object) (state : MenuState Object Menu Item) :
    SameLists state (objects.foldl (forCached game updateCopies name) state) := by
  induction objects generalizing state with
  | nil => exact .refl state
  | cons object objects inductionHypothesis =>
      have round : SameLists state (forCached game updateCopies name state object) := by
        have again : SameLists state (state.reinstall game object) := ⟨rfl, rfl, rfl, rfl⟩
        simp only [forCached]
        split
        · exact .refl state
        · split
          · split
            · exact again.trans (updates _)
            · exact again
          · exact .refl state
      exact round.trans (inductionHypothesis _)

omit [DecidableEq Class] [DecidableEq Menu] in
theorem sameLists_addCopy (state : MenuState Object Menu Item) (logic : Menu) :
    SameLists state (state.addCopy game logic) := by
  rw [addCopy]
  split
  · exact sameLists_installCopy state logic
  · exact .refl state

theorem install_name {state : MenuState Object Menu Item} {logic : Menu} {name : Class}
    (isName : game.className logic = .name name) :
    (state.install game logic).tables.classList =
        game.mapHierarchy (logic :: state.tables.classList) ∧
      (state.install game logic).tables.objectsList = state.tables.objectsList ∧
      (state.install game logic).classNames =
        addClassName state.classNames (game.classText logic) := by
  have loop : SameLists { state with
        tables.classList := game.mapHierarchy (logic :: state.tables.classList) }
      (state.tables.cachedList.foldl
        (forCached game (fun state => state.addCopy game logic) name) { state with
          tables.classList := game.mapHierarchy (logic :: state.tables.classList) }) :=
    sameLists_forCached (fun state => sameLists_addCopy state logic) name _ _
  simp only [install, isName, loop.classNames]
  exact ⟨loop.classList, loop.objectsList, trivial⟩

theorem uninstall_name {state : MenuState Object Menu Item} {logic : Menu} {name : Class}
    (isName : game.className logic = .name name) :
    (state.uninstall game logic).tables.classList =
        game.mapHierarchy (deleteFound state.tables.classList logic) ∧
      (state.uninstall game logic).tables.objectsList = state.tables.objectsList ∧
      (state.uninstall game logic).classNames =
        if state.countSame game logic = some 1 then
          deleteClassName (fun other => name = game.classOf other) state.classNames
        else state.classNames := by
  simp only [uninstall, isName]
  have loop : ∀ (start : MenuState Object Menu Item) (objects : List Object),
      SameLists start (objects.foldl
        (forCached game (fun state => state.uninstallCopy game logic) name) start) :=
    fun start objects =>
      sameLists_forCached (fun state => sameLists_uninstallCopy state logic) name objects start
  exact ⟨(loop _ _).classList, (loop _ _).objectsList, (loop _ _).classNames⟩

theorem install_object {state : MenuState Object Menu Item} {logic : Menu} {object : Object}
    (isObject : game.className logic = .object object) (present : game.isNull object = false) :
    (state.install game logic).tables.classList = state.tables.classList ∧
      (state.install game logic).tables.objectsList = state.tables.objectsList ++ [logic] := by
  simp only [install, isObject, present, Bool.false_eq_true, if_false]
  split
  · exact ⟨(sameLists_addCopy _ logic).classList, (sameLists_addCopy _ logic).objectsList⟩
  · exact ⟨rfl, rfl⟩

theorem uninstall_object {state : MenuState Object Menu Item} {logic : Menu} {object : Object}
    (isObject : game.className logic = .object object) (present : game.isNull object = false)
    (member : logic ∈ state.tables.objectsList) :
    (state.uninstall game logic).tables.classList = state.tables.classList ∧
      (state.uninstall game logic).tables.objectsList = state.tables.objectsList.erase logic := by
  simp only [uninstall, isObject, present, Bool.false_eq_true, if_false, if_pos member,
    List.erase_eq_eraseIdx_of_idxOf]
  split
  · exact ⟨(sameLists_uninstallCopy _ logic).classList,
      (sameLists_uninstallCopy _ logic).objectsList⟩
  · exact ⟨rfl, rfl⟩

/-! ## Menus of classes and objects -/

def Placed (game : Game Object Class Menu Item) (logic : Menu) : Prop :=
  match game.className logic with
  | .name _ => True
  | .object object => game.isNull object = false
  | .personal => False

structure Distinct (state : MenuState Object Menu Item) : Prop where
  classList : state.tables.classList.Nodup
  objectsList : state.tables.objectsList.Nodup

omit [DecidableEq Object] [DecidableEq Class] in
theorem isInstalled_of_lists {before after : MenuState Object Menu Item} {logic : Menu}
    {method : Bool}
    (classes : ∀ other name, game.className other = .name name →
      (other ∈ after.tables.classList ↔
        if other = logic then method = true else other ∈ before.tables.classList))
    (objects : ∀ other object, game.className other = .object object →
      (other ∈ after.tables.objectsList ↔
        if other = logic then method = true else other ∈ before.tables.objectsList))
    {other : Menu} (placed : Placed game other) :
    after.isInstalled game other =
      if other = logic then some method else before.isInstalled game other := by
  cases named : game.className other with
  | personal => simp [Placed, named] at placed
  | name name =>
      have same := classes other name named
      by_cases equal : other = logic <;> simp_all [isInstalled]
  | object object =>
      have same := objects other object named
      by_cases equal : other = logic <;> simp_all [isInstalled]

/-! ## The tables behind a request

`Tables.processRequest` describes what a request does for the objects, without the personal menu
and its copies.
-/

structure AgreeOff (personal : Object) (tables other : Tables Object Menu Item) : Prop where
  classList : other.classList = tables.classList
  objectsList : other.objectsList = tables.objectsList
  cachedList : other.cachedList = tables.cachedList
  isActive : other.isActive = tables.isActive
  menuVariables : ∀ object, object ≠ personal →
    other.menuVariables object = tables.menuVariables object

omit [DecidableEq Object] [DecidableEq Menu] in
theorem AgreeOff.refl (personal : Object) (tables : Tables Object Menu Item) :
    AgreeOff personal tables tables := ⟨rfl, rfl, rfl, rfl, fun _ _ => rfl⟩

omit [DecidableEq Object] [DecidableEq Menu] in
theorem AgreeOff.trans {personal : Object} {first second third : Tables Object Menu Item}
    (before : AgreeOff personal first second) (after : AgreeOff personal second third) :
    AgreeOff personal first third where
  classList := after.classList.trans before.classList
  objectsList := after.objectsList.trans before.objectsList
  cachedList := after.cachedList.trans before.cachedList
  isActive := after.isActive.trans before.isActive
  menuVariables object other :=
    (after.menuVariables object other).trans (before.menuVariables object other)

omit [DecidableEq Menu] in
theorem AgreeOff.setVariables {personal : Object} {tables other : Tables Object Menu Item}
    (agree : AgreeOff personal tables other) (object : Object)
    (menuVariables : MenuVariables Menu Item) :
    AgreeOff personal (tables.setVariables object menuVariables)
      (other.setVariables object menuVariables) := by
  refine ⟨agree.classList, agree.objectsList, agree.cachedList, agree.isActive,
    fun another different => ?_⟩
  by_cases same : another = object
  · subst same
    rw [Tables.menuVariables_setVariables_self, Tables.menuVariables_setVariables_self]
  · rw [Tables.menuVariables_setVariables_of_ne same, Tables.menuVariables_setVariables_of_ne same]
    exact agree.menuVariables another different

omit [DecidableEq Menu] in
theorem agreeOff_setVariables (personal : Object) (tables : Tables Object Menu Item)
    (menuVariables : MenuVariables Menu Item) :
    AgreeOff personal tables (tables.setVariables personal menuVariables) :=
  ⟨rfl, rfl, rfl, rfl, fun _ other => Tables.menuVariables_setVariables_of_ne other ..⟩

omit [DecidableEq Class] [DecidableEq Menu] in
theorem agreeOff_addCopy (game : Game Object Class Menu Item) (state : MenuState Object Menu Item)
    (logic : Menu) :
    AgreeOff game.personalMenu state.tables (state.addCopy game logic).tables := by
  rw [addCopy]
  split
  · exact agreeOff_setVariables _ _ _
  · exact .refl _ _

omit [DecidableEq Class] in
theorem agreeOff_uninstallCopy (game : Game Object Class Menu Item)
    (state : MenuState Object Menu Item) (logic : Menu) :
    AgreeOff game.personalMenu state.tables (state.uninstallCopy game logic).tables := by
  rw [uninstallCopy]
  split
  · exact .refl _ _
  · exact agreeOff_setVariables _ _ _

theorem agreeOff_forCached
    {updateCopies : MenuState Object Menu Item → MenuState Object Menu Item}
    (updates : ∀ state : MenuState Object Menu Item,
      AgreeOff game.personalMenu state.tables (updateCopies state).tables)
    {name : Class} {objects : List Object} {state : MenuState Object Menu Item}
    {tables after : Tables Object Menu Item}
    (agree : AgreeOff game.personalMenu tables state.tables)
    (present : ∀ object ∈ objects, game.isNull object = false ∧ object ≠ game.personalMenu)
    (ended : (objects.filter fun object => game.isOfClass object name).foldlM
      (Tables.reinstall game.toWorld) tables = some after) :
    AgreeOff game.personalMenu after
      (objects.foldl (forCached game updateCopies name) state).tables := by
  induction objects generalizing state tables with
  | nil =>
      cases ended
      exact agree
  | cons object objects inductionHypothesis =>
      obtain ⟨notNull, different⟩ := present object (by simp)
      have presentThen : ∀ later ∈ objects,
          game.isNull later = false ∧ later ≠ game.personalMenu :=
        fun later member => present later (by simp [member])
      rw [List.foldl_cons, forCached, if_neg (by simp [notNull])]
      by_cases isOfClass : game.isOfClass object name = true
      · rw [if_pos isOfClass]
        rw [List.filter_cons, if_pos isOfClass, List.foldlM_cons] at ended
        obtain ⟨middle, reinstalled, endedLater⟩ := Option.bind_eq_some_iff.mp ended
        obtain ⟨activeMenu, isActive, rfl⟩ := Option.map_eq_some_iff.mp reinstalled
        have same := agree.menuVariables object different
        have agreeThen : AgreeOff game.personalMenu _ (state.reinstall game object).tables :=
          agree.setVariables object
            (((tables.menuVariables object).uninstallMenuObjects (game.contents object)
              (activeMenu.filter (· ∉ tables.objectsList))).installMenuObjects
                (game.contents object) (tables.classMenus game.toWorld object)) |>.trans (by
              simp only [reinstall, MenuState.setVariables, same, isActive, Option.getD_some,
                agree.objectsList, Tables.classMenus, agree.classList]
              exact .refl _ _)
        refine inductionHypothesis ?_ presentThen endedLater
        dsimp only
        split
        · exact agreeThen.trans (updates _)
        · exact agreeThen
      · rw [if_neg isOfClass]
        rw [List.filter_cons, if_neg isOfClass] at ended
        exact inductionHypothesis agree presentThen ended

omit [DecidableEq Object] [DecidableEq Class] in
theorem isInstalled_tables {state : MenuState Object Menu Item} {logic : Menu}
    (placed : Placed game logic) :
    state.isInstalled game logic = some (state.tables.isInstalled game.toWorld logic) := by
  cases named : game.className logic with
  | personal => simp [Placed, named] at placed
  | name name => simp [isInstalled, Tables.isInstalled, named]
  | object object => simp [isInstalled, Tables.isInstalled, named]

theorem agreeOff_install {state : MenuState Object Menu Item} {logic : Menu}
    {after : Tables Object Menu Item}
    (present : ∀ object ∈ state.tables.cachedList,
      game.isNull object = false ∧ object ≠ game.personalMenu)
    (placed : Placed game logic)
    (installed : state.tables.install game.toWorld logic = some after) :
    AgreeOff game.personalMenu after (state.install game logic).tables := by
  rw [Tables.install] at installed
  cases named : game.className logic with
  | personal => simp [Placed, named] at placed
  | name name =>
      simp only [named] at installed
      simp only [MenuState.install, named]
      exact agreeOff_forCached (fun state => agreeOff_addCopy game state logic) (.refl _ _) present
        installed
  | object object =>
      have notNull : game.isNull object = false := by simpa [Placed, named] using placed
      simp only [named, Option.some.injEq] at installed
      subst installed
      simp only [MenuState.install, named, notNull, Bool.false_eq_true, if_false]
      split
      · refine AgreeOff.trans ?_ (agreeOff_addCopy game _ logic)
        exact .refl _ _
      · exact .refl _ _

theorem agreeOff_uninstall {state : MenuState Object Menu Item} {logic : Menu}
    {after : Tables Object Menu Item}
    (present : ∀ object ∈ state.tables.cachedList,
      game.isNull object = false ∧ object ≠ game.personalMenu)
    (placed : Placed game logic) (isInstalled : state.tables.isInstalled game.toWorld logic = true)
    (uninstalled : state.tables.uninstall game.toWorld logic = some after) :
    AgreeOff game.personalMenu after (state.uninstall game logic).tables := by
  rw [Tables.uninstall] at uninstalled
  rw [Tables.isInstalled] at isInstalled
  cases named : game.className logic with
  | personal => simp [Placed, named] at placed
  | name name =>
      simp only [named, decide_eq_true_eq] at uninstalled isInstalled
      simp only [MenuState.uninstall, named]
      rw [deleteFound, if_pos isInstalled]
      exact agreeOff_forCached (fun state => agreeOff_uninstallCopy game state logic) (.refl _ _)
        present
        uninstalled
  | object object =>
      have notNull : game.isNull object = false := by simpa [Placed, named] using placed
      simp only [named, Option.some.injEq, decide_eq_true_eq] at uninstalled isInstalled
      subst uninstalled
      simp only [MenuState.uninstall, named, notNull, Bool.false_eq_true, if_false,
        if_pos isInstalled]
      split
      · refine AgreeOff.trans ?_ (agreeOff_uninstallCopy game _ logic)
        exact .refl _ _
      · exact .refl _ _

/-- A request does to the tables what `Tables.processRequest` says, while the objects that are near
exist and the personal menu is none of them. -/
theorem processRequest_tables {state : MenuState Object Menu Item} {request : Menu × Bool}
    {after : Tables Object Menu Item}
    (present : ∀ object ∈ state.tables.cachedList,
      game.isNull object = false ∧ object ≠ game.personalMenu)
    (placed : Placed game request.1)
    (processed : state.tables.processRequest game.toWorld request.1 request.2 = some after) :
    AgreeOff game.personalMenu after
      (if state.checkRequest game request then state.apply game request else state).tables := by
  obtain ⟨logic, method⟩ := request
  rw [Tables.processRequest] at processed
  simp only [checkRequest, isInstalled_tables placed, apply]
  cases method <;> cases isInstalled : state.tables.isInstalled game.toWorld logic <;>
    simp only [isInstalled, Bool.false_eq_true, if_true, if_false, Option.some.injEq, Bool.and_true,
      Bool.and_false, Bool.not_true, Bool.not_false] at processed ⊢
  · subst processed
    exact .refl _ _
  · exact agreeOff_uninstall present placed isInstalled processed
  · exact agreeOff_install present placed processed
  · subst processed
    exact .refl _ _

/-! ## Menus that are installed -/

/-- A valid request makes its menu what it asks for, and changes no other menu of a class or an
object. -/
theorem isInstalled_apply {state : MenuState Object Menu Item} {request : Menu × Bool}
    (distinct : state.Distinct) (placed : Placed game request.1)
    (valid : state.checkRequest game request = true) :
    (state.apply game request).Distinct ∧ ∀ other, Placed game other →
      (state.apply game request).isInstalled game other =
        if other = request.1 then some request.2 else state.isInstalled game other := by
  obtain ⟨logic, method⟩ := request
  simp only at placed
  have differ : ∀ {other : Menu}, game.className other ≠ game.className logic → other ≠ logic :=
    fun different same => different (congrArg _ same)
  cases named : game.className logic with
  | personal => simp [Placed, named] at placed
  | name name =>
      rw [named] at differ
      cases method with
      | true =>
          have absent : logic ∉ state.tables.classList := by
            simpa [checkRequest, isInstalled, named] using valid
          obtain ⟨classList, objectsList, -⟩ := install_name named
          simp only [apply, if_true]
          refine ⟨⟨?_, by rw [objectsList]; exact distinct.objectsList⟩, fun other =>
            isInstalled_of_lists (fun other otherName _ => ?_) fun other object isObject => ?_⟩
          · rw [classList]
            exact World.mapHierarchy_perm.nodup_iff.mpr
              (List.nodup_cons.mpr ⟨absent, distinct.classList⟩)
          · rw [classList, World.mapHierarchy_perm.mem_iff]
            by_cases same : other = logic <;> simp [same]
          · rw [objectsList, if_neg (differ (by simp [isObject]))]
      | false =>
          have member : logic ∈ state.tables.classList := by
            simpa [checkRequest, isInstalled, named] using valid
          obtain ⟨classList, objectsList, -⟩ := uninstall_name named
          rw [deleteFound_of_mem member] at classList
          simp only [apply, Bool.false_eq_true, if_false]
          refine ⟨⟨?_, by rw [objectsList]; exact distinct.objectsList⟩, fun other =>
            isInstalled_of_lists (fun other otherName _ => ?_) fun other object isObject => ?_⟩
          · rw [classList]
            exact World.mapHierarchy_perm.nodup_iff.mpr (distinct.classList.erase logic)
          · rw [classList, World.mapHierarchy_perm.mem_iff, distinct.classList.mem_erase_iff]
            by_cases same : other = logic <;> simp [same]
          · rw [objectsList, if_neg (differ (by simp [isObject]))]
  | object object =>
      rw [named] at differ
      have present : game.isNull object = false := by simpa [Placed, named] using placed
      cases method with
      | true =>
          have absent : logic ∉ state.tables.objectsList := by
            simpa [checkRequest, isInstalled, named] using valid
          obtain ⟨classList, objectsList⟩ := install_object named present
          simp only [apply, if_true]
          refine ⟨⟨by rw [classList]; exact distinct.classList, ?_⟩, fun other =>
            isInstalled_of_lists (fun other otherName isName => ?_) fun other object _ => ?_⟩
          · rw [objectsList]
            exact distinct.objectsList.append (List.nodup_singleton logic) (by simpa using absent)
          · rw [classList, if_neg (differ (by simp [isName]))]
          · rw [objectsList]
            by_cases same : other = logic <;> simp [same]
      | false =>
          have member : logic ∈ state.tables.objectsList := by
            simpa [checkRequest, isInstalled, named] using valid
          obtain ⟨classList, objectsList⟩ := uninstall_object named present member
          simp only [apply, Bool.false_eq_true, if_false]
          refine ⟨⟨by rw [classList]; exact distinct.classList, ?_⟩, fun other =>
            isInstalled_of_lists (fun other otherName isName => ?_) fun other object _ => ?_⟩
          · rw [objectsList]
            exact distinct.objectsList.erase logic
          · rw [classList, if_neg (differ (by simp [isName]))]
          · rw [objectsList, distinct.objectsList.mem_erase_iff]
            by_cases same : other = logic <;> simp [same]

variable (game)

/-! ## What a batch applies -/

/-- Every request that is valid at its turn is applied, and only those, with the requests that
are. -/
def applyValid (state : MenuState Object Menu Item) :
    List (Menu × Bool) → MenuState Object Menu Item × List (Menu × Bool)
  | [] => (state, [])
  | request :: requests =>
      if state.checkRequest game request then
        let (after, applied) := applyValid (state.apply game request) requests
        (after, request :: applied)
      else applyValid state requests

/-- `RTMS_ProcessRequests` applies in order what is valid, skips the rest and empties the
queue. -/
def LosesNothing (state : MenuState Object Menu Item) : Prop :=
  state.processRequests game = ({ (state.applyValid game state.requests).1 with requests := [] },
    (state.applyValid game state.requests).2)

/-- Behind a request that is not valid at its turn there is none that is valid then. -/
def NoneBehind (state : MenuState Object Menu Item) : List (Menu × Bool) → Prop
  | [] => True
  | request :: requests =>
      if state.checkRequest game request then NoneBehind (state.apply game request) requests
      else ∀ later ∈ requests, state.checkRequest game later = false

variable {game}

theorem applyValid_of_invalid {state : MenuState Object Menu Item}
    {requests : List (Menu × Bool)}
    (invalid : ∀ request ∈ requests, state.checkRequest game request = false) :
    state.applyValid game requests = (state, []) := by
  induction requests with
  | nil => rfl
  | cons request requests inductionHypothesis =>
      rw [applyValid, if_neg (by simp [invalid request (by simp)])]
      exact inductionHypothesis fun later member => invalid later (by simp [member])

theorem invalid_of_applied_nil {state : MenuState Object Menu Item}
    {requests : List (Menu × Bool)} (none : (state.applyValid game requests).2 = []) :
    ∀ request ∈ requests, state.checkRequest game request = false := by
  induction requests with
  | nil => simp
  | cons request requests inductionHypothesis =>
      rw [applyValid] at none
      by_cases valid : state.checkRequest game request = true
      · rw [if_pos valid] at none
        exact absurd none (List.cons_ne_nil _ _)
      · rw [if_neg valid] at none
        intro later member
        rcases List.mem_cons.mp member with rfl | member
        · exact Bool.eq_false_of_not_eq_true valid
        · exact inductionHypothesis none later member

/-- The loop and the law agree as long as no request is turned away, and behind that as long as
nothing is left to apply. -/
theorem requestLoop_of_noneBehind {state : MenuState Object Menu Item}
    {requests : List (Menu × Bool)} (behind : state.NoneBehind game requests) :
    state.requestLoop game requests = state.applyValid game requests := by
  induction requests generalizing state with
  | nil => rfl
  | cons request requests inductionHypothesis =>
      rw [NoneBehind] at behind
      by_cases valid : state.checkRequest game request = true
      · rw [if_pos valid] at behind
        rw [requestLoop, applyValid, if_pos valid, if_neg (by simp [valid]),
          inductionHypothesis behind]
      · rw [if_neg valid] at behind
        rw [requestLoop, applyValid, if_neg valid, if_pos (by simp [valid]),
          applyValid_of_invalid behind]

theorem noneBehind_of_applied {state : MenuState Object Menu Item}
    {requests : List (Menu × Bool)}
    (same : (state.requestLoop game requests).2 = (state.applyValid game requests).2) :
    state.NoneBehind game requests := by
  induction requests generalizing state with
  | nil => trivial
  | cons request requests inductionHypothesis =>
      rw [NoneBehind]
      rw [requestLoop, applyValid] at same
      by_cases valid : state.checkRequest game request = true
      · rw [if_pos valid, if_neg (by simp [valid])] at same
        rw [if_pos valid]
        exact inductionHypothesis (List.cons.inj same).2
      · rw [if_neg valid, if_pos (by simp [valid])] at same
        rw [if_neg valid]
        exact invalid_of_applied_nil same.symm

/-- A batch loses nothing exactly when nothing is valid behind its first request that is not. -/
theorem losesNothing_iff (state : MenuState Object Menu Item) :
    state.LosesNothing game ↔ state.NoneBehind game state.requests := by
  constructor
  · intro same
    rw [LosesNothing, processRequests] at same
    exact noneBehind_of_applied (Prod.mk.inj same).2
  · intro behind
    rw [LosesNothing, processRequests, requestLoop_of_noneBehind behind]

/-! ## Batches of accepted requests -/

/-- Once a request repeats an earlier one, or one of these, all the later ones do. -/
def RepeatsLast (done : List (Menu × Bool)) : List (Menu × Bool) → Prop
  | [] => True
  | request :: requests =>
      if request ∈ done then ∀ later ∈ requests, later ∈ done
      else RepeatsLast (request :: done) requests

omit [DecidableEq Object] [DecidableEq Class] in
theorem checkRequest_of_installed {state : MenuState Object Menu Item} {logic : Menu}
    {installed : Bool} (isInstalled : state.isInstalled game logic = some installed)
    (method : Bool) : state.checkRequest game (logic, method) = (installed != method) := by
  rw [checkRequest, isInstalled]
  cases installed <;> cases method <;> rfl

omit [DecidableEq Object] [DecidableEq Class] in
theorem exists_installed {state : MenuState Object Menu Item} {logic : Menu}
    (placed : Placed game logic) : ∃ installed, state.isInstalled game logic = some installed := by
  cases named : game.className logic with
  | personal => simp [Placed, named] at placed
  | name name => exact ⟨_, by rw [isInstalled, named]⟩
  | object object => exact ⟨_, by rw [isInstalled, named]⟩

theorem noneBehind_iff_done {state : MenuState Object Menu Item}
    {requests done : List (Menu × Bool)} (distinct : state.Distinct)
    (placed : ∀ request ∈ requests, Placed game request.1)
    (alike : ∀ request ∈ requests, ∀ other ∈ requests, request.1 = other.1 → request = other)
    (checked : ∀ request ∈ requests,
      (state.checkRequest game request = true ↔ request ∉ done)) :
    state.NoneBehind game requests ↔ RepeatsLast done requests := by
  induction requests generalizing state done with
  | nil => rfl
  | cons request requests inductionHypothesis =>
      rw [NoneBehind, RepeatsLast]
      by_cases repeats : request ∈ done
      · have invalid : ¬state.checkRequest game request = true := fun valid =>
          (checked request (by simp)).mp valid repeats
        rw [if_pos repeats, if_neg invalid]
        refine forall₂_congr fun later member => ?_
        rw [← Bool.not_eq_true, checked later (by simp [member]), not_not]
      · have valid := (checked request (by simp)).mpr repeats
        obtain ⟨distinctThen, installedThen⟩ :=
          isInstalled_apply distinct (placed request (by simp)) valid
        rw [if_neg repeats, if_pos valid]
        refine inductionHypothesis distinctThen
          (fun later member => placed later (by simp [member]))
          (fun later member other memberToo =>
            alike later (by simp [member]) other (by simp [memberToo])) fun later member => ?_
        have place := placed later (by simp [member])
        have installed := installedThen later.1 place
        by_cases same : later.1 = request.1
        · obtain rfl := alike later (by simp [member]) request (by simp) same
          rw [if_pos rfl] at installed
          have invalid := checkRequest_of_installed installed later.2
          simp_all
        · have other : later ≠ request := fun equal => same (congrArg Prod.fst equal)
          rw [if_neg same] at installed
          rw [checkRequest, installed, ← checkRequest, checked later (by simp [member])]
          simp [other]

/-- In a batch of requests that were all accepted in this state, for menus of classes and of
objects that exist, a request is not valid at its turn when it repeats an earlier one. -/
theorem losesNothing_iff_repeatsLast {state : MenuState Object Menu Item}
    (distinct : state.Distinct) (placed : ∀ request ∈ state.requests, Placed game request.1)
    (accepted : ∀ request ∈ state.requests, state.checkRequest game request = true) :
    state.LosesNothing game ↔ RepeatsLast [] state.requests := by
  rw [losesNothing_iff]
  refine noneBehind_iff_done distinct placed ?_ fun request member => by simp [accepted _ member]
  rintro ⟨logic, method⟩ member ⟨other, methodToo⟩ memberToo rfl
  obtain ⟨installed, isInstalled⟩ : ∃ installed, state.isInstalled game logic = some installed :=
    exists_installed (placed _ member)
  have first := accepted _ member
  have second := accepted _ memberToo
  rw [checkRequest_of_installed isInstalled] at first second
  cases installed <;> cases method <;> cases methodToo <;> simp_all

/-! ## A repeated request -/

/-- Kit menus for two kinds of ammunition boxes, and nothing near. -/
def kitMenus : Game ℕ ℕ ℕ ℕ where
  isKindOf name other := name = other
  refl := by simp
  trans := by simp
  antisymm := by simp
  typeOf object := object
  className logic := .name logic
  classText logic := List.replicate logic 'I'
  classOf text := text.length
  classOf_classText := by simp
  menuItems logic := [logic]
  automatic _ := false
  classDistance _ := .number 5
  isInternal _ := false
  getAutoMenus _ _ := []
  halfDiagonal _ := 0
  isNull _ := false
  personalMenu := 0
  copyMenuObject logic _ := logic
  countLeft := some

def onFoot : MenuState ℕ ℕ ℕ where
  tables := ⟨[], [], [], fun _ => .nil, fun _ => false⟩
  classNames := []
  activeCopies := []
  personalSource := 1
  cleanupList := []
  copied := 0
  requests := []

/-- The menu for one kind of boxes is requested twice before that for the other kind: all three
requests are accepted, and the last one is never applied. -/
theorem repeated_request_loses :
    ¬∀ (state : MenuState ℕ ℕ ℕ) (sent : List (ℕ × Bool)), state.requests = [] →
      (sent.foldl (sendRequest kitMenus) state).LosesNothing kitMenus := by
  intro always
  have same := always onFoot [(0, true), (0, true), (1, true)] rfl
  have applied := congrArg Prod.snd same
  exact absurd applied (by decide)

end MenuState

end OperationFrontLine.Menus
