import OperationFrontLine.Library.Ranking
import OperationFrontLine.Library.Run

/-!
# Menus of objects

A menu belongs to one object, to all objects of a class, or to the personal menu.  Each
object has its menus in `RTMS_ACTIVE_MENU`, the items of these in `RTMS_SUB_MENU_LIST`, and
the largest of their distances in `RTMS_DISTANCE`.  Requests and scans of the environment
edit these variables only for the objects that they concern, while each request for a class
sorts `RTMS_CLASS_LIST` again.
-/

namespace OperationFrontLine.Menus

open OperationFrontLine.Library

universe u v w x

inductive ClassName (Object : Type u) (Class : Type v) where
  | object (object : Object)
  | name (name : Class)
  /-- `"RTMS_PERSONAL"` -/
  | personal
  deriving DecidableEq, Repr

inductive ClassDistance where
  | number (value : ℚ)
  | text
  deriving DecidableEq, Repr

/-- The classes of the game, of which each is a kind of its superclasses and of itself. -/
structure Hierarchy (Class : Type v) where
  isKindOf : Class → Class → Bool
  refl : ∀ name, isKindOf name name = true
  trans : ∀ first second third, isKindOf first second = true → isKindOf second third = true →
    isKindOf first third = true
  antisymm : ∀ first second, isKindOf first second = true → isKindOf second first = true →
    first = second

/-- What the scripts read of the game: the classes, the variables of the menus, and two
functions of an object, of which one is half the diagonal of its bounding box. -/
structure World (Object : Type u) (Class : Type v) (Menu : Type w) (Item : Type x)
    extends Hierarchy Class where
  typeOf : Object → Class
  className : Menu → ClassName Object Class
  /-- `CLASS_MENU_ITEMS` -/
  menuItems : Menu → List Item
  /-- the text of the item is empty -/
  automatic : Item → Bool
  classDistance : Menu → ClassDistance
  /-- `CLASS_IS_INTERNAL` -/
  isInternal : Menu → Bool
  getAutoMenus : Object → Item → List Item
  halfDiagonal : Object → ℚ

structure MenuVariables (Menu : Type w) (Item : Type x) where
  /-- `RTMS_ACTIVE_MENU` -/
  activeMenu : Option (List Menu)
  /-- `RTMS_SUB_MENU_LIST` -/
  subMenuList : Option (List Item)
  /-- `RTMS_SUB_COUNT` -/
  subCount : Option ℕ
  /-- `RTMS_DISTANCE` -/
  distance : Option ℚ
  /-- `RTMS_ROTATE_DELTA` -/
  rotateDelta : Option ℚ
  deriving DecidableEq, Repr

structure Contents (Menu : Type w) (Item : Type x) where
  items : Menu → List Item
  distance : Menu → ℚ

variable {Object : Type u} {Class : Type v} {Menu : Type w} {Item : Type x}

def MenuVariables.nil : MenuVariables Menu Item where
  activeMenu := none
  subMenuList := none
  subCount := none
  distance := none
  rotateDelta := none

/-- The loop over the menus for `_distance`, which starts with this value. -/
def Contents.farthest (contents : Contents Menu Item) (start : ℚ) (logics : List Menu) : ℚ :=
  logics.foldl (fun distance logic =>
    if contents.distance logic > distance then contents.distance logic else distance) start

namespace MenuVariables

def installMenuObjects (contents : Contents Menu Item) (menuVariables : MenuVariables Menu Item)
    (logics : List Menu) : MenuVariables Menu Item :=
  let fresh := menuVariables.activeMenu.isNone
  let subMenuList := if fresh then [] else menuVariables.subMenuList.getD []
  let distance := if fresh then 0 else menuVariables.distance.getD 0
  let subMenuList := subMenuList ++ logics.flatMap contents.items
  let count := subMenuList.length
  { activeMenu := some (menuVariables.activeMenu.getD [] ++ logics)
    subMenuList := some subMenuList
    subCount := some count
    distance := some (contents.farthest distance logics)
    rotateDelta := some (360 / if count > 0 then count else 1) }

def uninstallMenuObjects [DecidableEq Menu] (contents : Contents Menu Item)
    (menuVariables : MenuVariables Menu Item) (logics : List Menu) : MenuVariables Menu Item :=
  match menuVariables.activeMenu with
  | none => menuVariables
  | some activeMenu =>
      let activeMenu := activeMenu.filter (· ∉ logics)
      if activeMenu.isEmpty then nil
      else
        let subMenuList := activeMenu.flatMap contents.items
        let count := subMenuList.length
        { activeMenu := some activeMenu
          subMenuList := some subMenuList
          subCount := some count
          distance := some (contents.farthest 0 activeMenu)
          rotateDelta := if 1 > count then menuVariables.rotateDelta else some (360 / count) }

end MenuVariables

namespace World

variable (world : World Object Class Menu Item)

/-- The items that an object gets from a menu, whose first item may stand for the menus
that `RTMS_GetAutoMenus` finds. -/
def itemsOf (object : Object) (logic : Menu) : List Item :=
  match world.menuItems logic with
  | [] => []
  | first :: rest =>
      if world.automatic first then world.getAutoMenus object first ++ rest
      else first :: rest

def adaptDistance (object : Object) : ClassDistance → ℚ
  | .number value => value
  | .text => world.halfDiagonal object

def contents (object : Object) : Contents Menu Item where
  items := world.itemsOf object
  distance logic := world.adaptDistance object (world.classDistance logic)

variable [DecidableEq Class]

/-- `(object isKindOf name) || (name == typeOf object)` -/
def isOfClass (object : Object) (name : Class) : Bool :=
  world.isKindOf (world.typeOf object) name || name = world.typeOf object

def belongs (object : Object) (logic : Menu) : Bool :=
  match world.className logic with
  | .name name => world.isOfClass object name
  | _ => false

/-- The class of the first menu is a strict subclass of that of the second. -/
def moreSpecific (logic other : Menu) : Bool :=
  match world.className logic, world.className other with
  | .name classA, .name classB => world.isKindOf classA classB && classA ≠ classB
  | _, _ => false

def classRank (classList : List Menu) (logic : Menu) : ℕ :=
  classList.countP (world.moreSpecific logic)

def mapHierarchy (classList : List Menu) : List Menu :=
  sortByRank (world.classRank classList) classList

variable {world} in
theorem mapHierarchy_perm {classList : List Menu} :
    (world.mapHierarchy classList).Perm classList :=
  sortByRank_perm

end World

structure Tables (Object : Type u) (Menu : Type w) (Item : Type x) where
  /-- `RTMS_CLASS_LIST` -/
  classList : List Menu
  /-- `RTMS_OBJECTS_LIST` -/
  objectsList : List Menu
  /-- `RTMS_CACHED_LIST` -/
  cachedList : List Object
  menuVariables : Object → MenuVariables Menu Item
  /-- `RTMS_IS_ACTIVE` is not nil -/
  isActive : Object → Bool

namespace Tables

/-- What `RTMS_LoadMenuClasses` leaves, before anything is near. -/
def loadMenuClasses [DecidableEq Class] (world : World Object Class Menu Item)
    (classes : List Menu) : Tables Object Menu Item where
  classList := world.mapHierarchy classes
  objectsList := []
  cachedList := []
  menuVariables _ := .nil
  isActive _ := false

variable [DecidableEq Object] [DecidableEq Menu]

def setVariables (tables : Tables Object Menu Item) (object : Object)
    (menuVariables : MenuVariables Menu Item) : Tables Object Menu Item :=
  { tables with menuVariables := Function.update tables.menuVariables object menuVariables }

/-- `RTMS_IS_ACTIVE` of an object is set to true or to nil. -/
def setActive (tables : Tables Object Menu Item) (object : Object) (active : Bool) :
    Tables Object Menu Item :=
  { tables with isActive := Function.update tables.isActive object active }

omit [DecidableEq Menu] in
@[simp]
theorem menuVariables_setVariables_self (tables : Tables Object Menu Item) (object : Object)
    (menuVariables : MenuVariables Menu Item) :
    (tables.setVariables object menuVariables).menuVariables object = menuVariables :=
  Function.update_self ..

omit [DecidableEq Menu] in
theorem menuVariables_setVariables_of_ne {object other : Object} (distinct : other ≠ object)
    (tables : Tables Object Menu Item) (menuVariables : MenuVariables Menu Item) :
    (tables.setVariables object menuVariables).menuVariables other =
      tables.menuVariables other :=
  Function.update_of_ne distinct ..

variable [DecidableEq Class] (world : World Object Class Menu Item)

/-- `RTMS_IsInstalled`, but for menus of the personal menu. -/
def isInstalled (tables : Tables Object Menu Item) (logic : Menu) : Bool :=
  match world.className logic with
  | .name _ => logic ∈ tables.classList
  | .object _ => logic ∈ tables.objectsList
  | .personal => false

def classMenus (tables : Tables Object Menu Item) (object : Object) : List Menu :=
  tables.classList.filter (world.belongs object)

/-- The class menus of an object are taken away and those of the list are installed.  Without
`RTMS_ACTIVE_MENU` the subtraction of the object menus is an error. -/
def reinstall (tables : Tables Object Menu Item) (object : Object) :
    Option (Tables Object Menu Item) :=
  (tables.menuVariables object).activeMenu.map fun activeMenu =>
    let logics := activeMenu.filter (· ∉ tables.objectsList)
    let contents := world.contents object
    tables.setVariables object
      (((tables.menuVariables object).uninstallMenuObjects contents logics).installMenuObjects
        contents (tables.classMenus world object))

def reinstallAll (tables : Tables Object Menu Item) (name : Class) :
    Option (Tables Object Menu Item) :=
  (tables.cachedList.filter fun object => world.isOfClass object name).foldlM
    (reinstall world) tables

def install (tables : Tables Object Menu Item) (logic : Menu) :
    Option (Tables Object Menu Item) :=
  match world.className logic with
  | .object object =>
      let contents := world.contents object
      let menuVariables := tables.menuVariables object
      let activeMenu := menuVariables.activeMenu.getD []
      let menuVariables := menuVariables.uninstallMenuObjects contents activeMenu
      some { tables.setVariables object
          (menuVariables.installMenuObjects contents (logic :: activeMenu)) with
        objectsList := tables.objectsList ++ [logic] }
  | .name name =>
      { tables with
        classList := world.mapHierarchy (logic :: tables.classList) }.reinstallAll world name
  | .personal => some tables

def uninstall (tables : Tables Object Menu Item) (logic : Menu) :
    Option (Tables Object Menu Item) :=
  match world.className logic with
  | .object object =>
      let contents := world.contents object
      some { tables.setVariables object
          ((tables.menuVariables object).uninstallMenuObjects contents [logic]) with
        objectsList := tables.objectsList.eraseIdx (tables.objectsList.idxOf logic) }
  | .name name =>
      { tables with
        classList := world.mapHierarchy
          (tables.classList.eraseIdx (tables.classList.idxOf logic)) }.reinstallAll world name
  | .personal => some tables

/-- One request of `RTMS_ProcessRequests`; `RTMS_CheckRequest` turns away what is installed
already, or not installed. -/
def processRequest (tables : Tables Object Menu Item) (logic : Menu) (method : Bool) :
    Option (Tables Object Menu Item) :=
  if method then
    if tables.isInstalled world logic then some tables else tables.install world logic
  else
    if tables.isInstalled world logic then tables.uninstall world logic else some tables

/-- An object that is not near any more loses its class menus. -/
def leave (tables : Tables Object Menu Item) (object : Object) :
    Option (Tables Object Menu Item) :=
  (tables.menuVariables object).activeMenu.map fun activeMenu =>
    let logics := activeMenu.filter (· ∉ tables.objectsList)
    (tables.setVariables object ((tables.menuVariables object).uninstallMenuObjects
      (world.contents object) logics)).setActive object false

/-- An object that is near gets its class menus, unless it has them. -/
def enter (tables : Tables Object Menu Item) (object : Object) : Tables Object Menu Item :=
  if tables.isActive object then tables
  else
    (tables.setVariables object ((tables.menuVariables object).installMenuObjects
      (world.contents object) (tables.classMenus world object))).setActive object true

end Tables

def Ascending (first second : ℚ × ℕ) : Prop :=
  first.1 < second.1 ∨ first.1 = second.1 ∧ first.2 ≤ second.2

instance : DecidableRel Ascending := fun first second =>
  inferInstanceAs (Decidable (first.1 < second.1 ∨ first.1 = second.1 ∧ first.2 ≤ second.2))

def sortByAngle (nearObjects : List (ℚ × Object)) : List Object :=
  ((nearObjects.zipIdx.map fun entry => (entry.1.1, entry.2)).insertionSort
    Ascending).filterMap fun pair => nearObjects[pair.2]?.map Prod.snd

namespace Tables

variable [DecidableEq Object] [DecidableEq Menu] [DecidableEq Class]
  (world : World Object Class Menu Item)

/-- `RTMS_ScanEnvironment`, with the objects that are near and their angles. -/
def scanEnvironment (tables : Tables Object Menu Item) (nearObjects : List (ℚ × Object)) :
    Option (Tables Object Menu Item) :=
  let near := nearObjects.map Prod.snd
  let uninstallList := tables.cachedList.filter (· ∉ near)
  (uninstallList.foldlM (leave world) { tables with cachedList := [] }).map fun tables =>
    { near.foldl (enter world) tables with cachedList := sortByAngle nearObjects }

end Tables

inductive Event (Object : Type u) (Menu : Type w) where
  /-- a request `[logic, method]` is processed -/
  | request (logic : Menu) (method : Bool)
  /-- the environment is scanned -/
  | scanEnvironment (nearObjects : List (ℚ × Object))
  deriving DecidableEq, Repr

/-- `none` is an error in a script; what the script does behind it is not modelled. -/
def step [DecidableEq Object] [DecidableEq Menu] [DecidableEq Class]
    (world : World Object Class Menu Item) (tables : Tables Object Menu Item) :
    Event Object Menu → Option (Tables Object Menu Item)
  | .request logic method => tables.processRequest world logic method
  | .scanEnvironment nearObjects =>
      if (nearObjects.map Prod.snd).Nodup then tables.scanEnvironment world nearObjects
      else none

end OperationFrontLine.Menus
