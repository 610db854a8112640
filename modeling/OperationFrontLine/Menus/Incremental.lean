import OperationFrontLine.Library.Each
import OperationFrontLine.Menus.Tables

/-!
# Tables kept up step by step

After every request and every scan the variables of the objects that are near are those that
would be computed from their menus at once: the menus of the object, newest first, and the
class menus of the list in its order.  The exception is the request that takes the last menu
of such an object: it leaves nil where an empty table belongs.
-/

namespace OperationFrontLine.Menus

open OperationFrontLine.Library

universe u v w x

variable {Object : Type u} {Class : Type v} {Menu : Type w} {Item : Type x}

section Variables

variable {contents : Contents Menu Item}

structure Built (contents : Contents Menu Item) (menuVariables : MenuVariables Menu Item)
    (menus : List Menu) : Prop where
  activeMenu : menuVariables.activeMenu = some menus
  subMenuList : menuVariables.subMenuList = some (menus.flatMap contents.items)
  subCount : menuVariables.subCount = some (menus.flatMap contents.items).length
  distance : menuVariables.distance = some (contents.farthest 0 menus)

theorem Contents.farthest_append (start : ℚ) (first second : List Menu) :
    contents.farthest start (first ++ second) =
      contents.farthest (contents.farthest start first) second :=
  List.foldl_append

/-- The loop finds the largest of the distances, or what it starts with. -/
theorem Contents.farthest_eq_foldl_max (start : ℚ) (menus : List Menu) :
    contents.farthest start menus = (menus.map contents.distance).foldl max start := by
  rw [farthest, List.foldl_map]
  congr 1
  funext distance logic
  rcases lt_or_ge distance (contents.distance logic) with less | more
  · rw [if_pos less, max_eq_right less.le]
  · rw [if_neg more.not_gt, max_eq_left more]

theorem built_install_nil (menus : List Menu) :
    Built contents (MenuVariables.nil.installMenuObjects contents menus) menus where
  activeMenu := rfl
  subMenuList := rfl
  subCount := rfl
  distance := rfl

namespace Built

variable {menuVariables : MenuVariables Menu Item} {menus : List Menu}

theorem install (built : Built contents menuVariables menus) (logics : List Menu) :
    Built contents (menuVariables.installMenuObjects contents logics) (menus ++ logics) := by
  have active := built.activeMenu
  have list := built.subMenuList
  have distance := built.distance
  constructor
  · simp [MenuVariables.installMenuObjects, active]
  · simp [MenuVariables.installMenuObjects, active, list]
  · simp [MenuVariables.installMenuObjects, active, list]
  · simp [MenuVariables.installMenuObjects, active, distance, Contents.farthest_append]

variable [DecidableEq Menu]

theorem uninstall (built : Built contents menuVariables menus) {logics rest : List Menu}
    (left : menus.filter (· ∉ logics) = rest) (some : rest ≠ []) :
    Built contents (menuVariables.uninstallMenuObjects contents logics) rest := by
  subst left
  have nonempty : (menus.filter (· ∉ logics)).isEmpty = false := by
    rwa [List.isEmpty_eq_false_iff]
  unfold MenuVariables.uninstallMenuObjects
  rw [built.activeMenu]
  simp only [nonempty]
  exact ⟨rfl, rfl, rfl, rfl⟩

theorem uninstall_all (built : Built contents menuVariables menus) {logics : List Menu}
    (none : menus.filter (· ∉ logics) = []) :
    menuVariables.uninstallMenuObjects contents logics = .nil := by
  unfold MenuVariables.uninstallMenuObjects
  rw [built.activeMenu]
  simp only [none, List.isEmpty_nil, if_true]

/-- Taking menus away and installing others leaves those kept and then the others. -/
theorem exchange (built : Built contents menuVariables menus) {logics rest : List Menu}
    (left : menus.filter (· ∉ logics) = rest) (others : List Menu) :
    Built contents ((menuVariables.uninstallMenuObjects contents logics).installMenuObjects
      contents others) (rest ++ others) := by
  by_cases none : rest = []
  · subst none
    rw [built.uninstall_all left]
    exact built_install_nil others
  · exact (built.uninstall left none).install others

end Built

/-- An object that is not near has its own menus, or none and nil. -/
def Resting (contents : Contents Menu Item) (menuVariables : MenuVariables Menu Item)
    (own : List Menu) : Prop :=
  own = [] ∧ menuVariables = .nil ∨ own ≠ [] ∧ Built contents menuVariables own

namespace Resting

variable {menuVariables : MenuVariables Menu Item} {own : List Menu}

theorem install (resting : Resting contents menuVariables own) (logics : List Menu) :
    Built contents (menuVariables.installMenuObjects contents logics) (own ++ logics) := by
  rcases resting with ⟨rfl, rfl⟩ | ⟨-, built⟩
  · exact built_install_nil logics
  · exact built.install logics

theorem activeMenu (resting : Resting contents menuVariables own) :
    menuVariables.activeMenu.getD [] = own := by
  rcases resting with ⟨rfl, rfl⟩ | ⟨-, built⟩
  · rfl
  · rw [built.activeMenu, Option.getD_some]

variable [DecidableEq Menu]

theorem uninstall (resting : Resting contents menuVariables own) {logics rest : List Menu}
    (left : own.filter (· ∉ logics) = rest) :
    Resting contents (menuVariables.uninstallMenuObjects contents logics) rest := by
  rcases resting with ⟨rfl, rfl⟩ | ⟨-, built⟩
  · exact .inl ⟨left.symm, rfl⟩
  · by_cases none : rest = []
    · subst none
      exact .inl ⟨rfl, built.uninstall_all left⟩
    · exact .inr ⟨none, built.uninstall left none⟩

end Resting

theorem Built.uninstall_rest [DecidableEq Menu] {menuVariables : MenuVariables Menu Item}
    {menus logics rest : List Menu} (built : Built contents menuVariables menus)
    (left : menus.filter (· ∉ logics) = rest) :
    Resting contents (menuVariables.uninstallMenuObjects contents logics) rest := by
  by_cases none : rest = []
  · subst none
    exact .inl ⟨rfl, built.uninstall_all left⟩
  · exact .inr ⟨none, built.uninstall left none⟩

end Variables

section Ranks

variable [DecidableEq Class] {world : World Object Class Menu Item} {classList : List Menu}
  {logic other third : Menu}

theorem World.isKindOf_of_isOfClass {object : Object} {name : Class}
    (ofClass : world.isOfClass object name = true) :
    world.isKindOf (world.typeOf object) name = true := by
  rw [isOfClass, Bool.or_eq_true, decide_eq_true_eq] at ofClass
  rcases ofClass with kind | rfl
  · exact kind
  · exact world.refl _

theorem World.exists_name_of_belongs {object : Object}
    (belongs : world.belongs object logic = true) :
    ∃ name, world.className logic = .name name ∧ world.isOfClass object name = true := by
  unfold World.belongs at belongs
  split at belongs
  · exact ⟨_, ‹_›, belongs⟩
  · cases belongs

theorem World.belongs_of_name {object : Object} {name : Class}
    (named : world.className logic = .name name) :
    world.belongs object logic = world.isOfClass object name := by
  rw [belongs, named]

theorem World.moreSpecific_iff : world.moreSpecific logic other = true ↔
    ∃ classA classB, world.className logic = .name classA ∧
      world.className other = .name classB ∧ world.isKindOf classA classB = true ∧
      classA ≠ classB := by
  unfold moreSpecific
  constructor
  · intro specific
    split at specific
    · rw [Bool.and_eq_true, decide_eq_true_eq] at specific
      exact ⟨_, _, ‹_›, ‹_›, specific⟩
    · cases specific
  · rintro ⟨classA, classB, nameA, nameB, specific⟩
    rw [nameA, nameB]
    simpa using specific

theorem World.moreSpecific_irrefl (logic : Menu) : world.moreSpecific logic logic = false := by
  rw [Bool.eq_false_iff]
  intro specific
  obtain ⟨classA, classB, nameA, nameB, -, distinct⟩ := moreSpecific_iff.mp specific
  rw [nameA, ClassName.name.injEq] at nameB
  exact distinct nameB

theorem World.moreSpecific_trans (first : world.moreSpecific logic other = true)
    (second : world.moreSpecific other third = true) :
    world.moreSpecific logic third = true := by
  obtain ⟨classA, classB, nameA, nameB, kindAB, distinctAB⟩ := moreSpecific_iff.mp first
  obtain ⟨classB', classC, nameB', nameC, kindBC, distinctBC⟩ := moreSpecific_iff.mp second
  rw [nameB, ClassName.name.injEq] at nameB'
  subst nameB'
  refine moreSpecific_iff.mpr ⟨classA, classC, nameA, nameC, world.trans _ _ _ kindAB kindBC, ?_⟩
  rintro rfl
  exact distinctAB (world.antisymm _ _ kindAB kindBC)

theorem World.classRank_lt (member : other ∈ classList)
    (specific : world.moreSpecific logic other = true) :
    world.classRank classList other < world.classRank classList logic := by
  obtain ⟨before, after, rfl⟩ := List.append_of_mem member
  have below : ∀ menus : List Menu, menus.countP (world.moreSpecific other) ≤
      menus.countP (world.moreSpecific logic) := fun menus =>
    List.countP_mono_left fun third _ second => moreSpecific_trans specific second
  have first := below before
  have second := below after
  rw [classRank, classRank, List.countP_append, List.countP_append,
    List.countP_cons_of_pos specific,
    List.countP_cons_of_neg (by simp [moreSpecific_irrefl])]
  omega

theorem World.mapHierarchy_pairwise : (world.mapHierarchy classList).Pairwise
    fun first second => world.classRank (world.mapHierarchy classList) second ≤
      world.classRank (world.mapHierarchy classList) first := by
  have same : ∀ logic, world.classRank (world.mapHierarchy classList) logic =
      world.classRank classList logic := fun logic => mapHierarchy_perm.countP_eq _
  simp only [same]
  exact sortByRank_pairwise

/-- Sorting a list again does not change what an object sees of it, if the object sees the
same menus as before and these have the ranks that they had. -/
theorem World.filter_mapHierarchy {object : Object} {newList : List Menu}
    (ordered : classList.Pairwise fun first second =>
      world.classRank classList second ≤ world.classRank classList first)
    (sees : newList.filter (world.belongs object) = classList.filter (world.belongs object))
    (ranks : ∀ logic, world.belongs object logic = true →
      world.classRank newList logic = world.classRank classList logic) :
    (world.mapHierarchy newList).filter (world.belongs object) =
      classList.filter (world.belongs object) := by
  rw [← sees]
  apply sortByRank_filter_eq
  rw [sees]
  refine (ordered.filter _).imp_of_mem ?_
  intro first second firstIn secondIn lower
  rw [ranks first (List.mem_filter.mp firstIn).2, ranks second (List.mem_filter.mp secondIn).2]
  exact lower

/-- A class that an object does not belong to is no superclass of a class that it belongs
to. -/
theorem World.moreSpecific_eq_false {object : Object} {name : Class}
    (named : world.className other = .name name)
    (foreign : world.isOfClass object name = false)
    (belongs : world.belongs object logic = true) :
    world.moreSpecific logic other = false := by
  rw [Bool.eq_false_iff]
  intro specific
  obtain ⟨classA, classB, nameA, nameB, kind, -⟩ := moreSpecific_iff.mp specific
  rw [named, ClassName.name.injEq] at nameB
  subst nameB
  obtain ⟨ofName, named', ofClass⟩ := exists_name_of_belongs belongs
  rw [nameA, ClassName.name.injEq] at named'
  subst named'
  have reached := world.trans _ _ _ (isKindOf_of_isOfClass ofClass) kind
  rw [World.isOfClass, reached, Bool.true_or] at foreign
  cases foreign

end Ranks

/-- Of an object's menus, those of the object and those of its classes are told apart by
`RTMS_OBJECTS_LIST`. -/
theorem filter_not_mem_left [DecidableEq Menu] {own menus objectsList : List Menu}
    (ownIn : ∀ logic ∈ own, logic ∈ objectsList)
    (menusOut : ∀ logic ∈ menus, logic ∉ objectsList) :
    (own ++ menus).filter (· ∉ objectsList) = menus := by
  rw [List.filter_append, List.filter_eq_nil_iff.mpr (by simpa using ownIn),
    List.filter_eq_self.mpr (by simpa using menusOut), List.nil_append]

theorem filter_not_mem_right [DecidableEq Menu] {own menus : List Menu}
    (disjoint : own.Disjoint menus) : (own ++ menus).filter (· ∉ menus) = own := by
  have kept : ∀ logic ∈ own, decide (logic ∉ menus) = true := by
    intro logic member
    simpa using disjoint member
  rw [List.filter_append, List.filter_eq_self.mpr kept,
    List.filter_eq_nil_iff.mpr (by simp), List.append_nil]

/-- A list without repetitions of which nothing is left without one of its entries. -/
theorem eq_singleton_of_filter_eq_nil [DecidableEq Menu] {menus : List Menu} {logic : Menu}
    (distinct : menus.Nodup) (member : logic ∈ menus)
    (none : menus.filter (· ∉ [logic]) = []) : menus = [logic] := by
  have all : ∀ menu ∈ menus, menu = logic := by simpa using none
  have rest : menus.erase logic = [] := by
    rw [List.eq_nil_iff_forall_not_mem]
    intro menu within
    have within := distinct.mem_erase_iff.mp within
    exact within.1 (all menu within.2)
  have perm := List.perm_cons_erase member
  rw [rest] at perm
  exact List.perm_singleton.mp perm

section State

variable [DecidableEq Object] [DecidableEq Class] [DecidableEq Menu]
  (world : World Object Class Menu Item)

def Tables.ownMenus (tables : Tables Object Menu Item) (object : Object) : List Menu :=
  (tables.objectsList.filter fun logic => world.className logic = .object object).reverse

structure Consistent (tables : Tables Object Menu Item) : Prop where
  classDistinct : tables.classList.Nodup
  classNamed : ∀ logic ∈ tables.classList, ∃ name, world.className logic = .name name
  ordered : tables.classList.Pairwise fun first second =>
    world.classRank tables.classList second ≤ world.classRank tables.classList first
  objectsDistinct : tables.objectsList.Nodup
  objectsOwned : ∀ logic ∈ tables.objectsList, ∃ object, world.className logic = .object object
  cachedDistinct : tables.cachedList.Nodup
  active : ∀ object, tables.isActive object = true ↔ object ∈ tables.cachedList
  near : ∀ object ∈ tables.cachedList, Built (world.contents object)
    (tables.menuVariables object) (tables.ownMenus world object ++ tables.classMenus world object)
  away : ∀ object ∉ tables.cachedList, Resting (world.contents object)
    (tables.menuVariables object) (tables.ownMenus world object)

variable {world} {tables : Tables Object Menu Item}

omit [DecidableEq Menu] in
theorem Tables.mem_ownMenus {object : Object} {logic : Menu} :
    logic ∈ tables.ownMenus world object ↔
      logic ∈ tables.objectsList ∧ world.className logic = .object object := by
  simp [ownMenus]

omit [DecidableEq Object] [DecidableEq Menu] in
theorem Tables.mem_classMenus {object : Object} {logic : Menu} :
    logic ∈ tables.classMenus world object ↔
      logic ∈ tables.classList ∧ world.belongs object logic = true := by
  simp [classMenus]

omit [DecidableEq Object] [DecidableEq Menu] in
theorem World.belongs_eq_false {owner object : Object} {logic : Menu}
    (owned : world.className logic = .object owner) : world.belongs object logic = false := by
  rw [belongs, owned]

/-- The variables of an object hold its own menus, and these class menus if it is near. -/
def Tables.Shows (tables : Tables Object Menu Item) (world : World Object Class Menu Item)
    (near : Prop) (own menus : List Menu) (object : Object) : Prop :=
  (near → Built (world.contents object) (tables.menuVariables object) (own ++ menus)) ∧
    (¬near → Resting (world.contents object) (tables.menuVariables object) own)

namespace Tables

omit [DecidableEq Class] [DecidableEq Menu] in
theorem shows_setVariables_of_ne {near : Prop} {own menus : List Menu} {object other : Object}
    (distinct : other ≠ object) (menuVariables : MenuVariables Menu Item) :
    (tables.setVariables object menuVariables).Shows world near own menus other ↔
      tables.Shows world near own menus other := by
  rw [Shows, Shows, menuVariables_setVariables_of_ne distinct]

/-- The class menus of an object are exchanged for those of the list. -/
theorem reinstall_spec {object : Object} {own menus : List Menu}
    (built : Built (world.contents object) (tables.menuVariables object) (own ++ menus))
    (ownIn : ∀ logic ∈ own, logic ∈ tables.objectsList)
    (foreign : ∀ logic ∈ menus, logic ∉ tables.objectsList) :
    ∃ menuVariables, tables.reinstall world object =
        some (tables.setVariables object menuVariables) ∧
      Built (world.contents object) menuVariables (own ++ tables.classMenus world object) := by
  have split := filter_not_mem_left ownIn foreign
  have disjoint : own.Disjoint menus := fun logic member other =>
    foreign logic other (ownIn logic member)
  refine ⟨_, ?_, built.exchange (filter_not_mem_right disjoint) _⟩
  rw [reinstall, built.activeMenu, Option.map_some, split]

end Tables

namespace Tables

variable {next : Tables Object Menu Item} {logic : Menu} {object other : Object}

omit [DecidableEq Menu] in
theorem ownMenus_append_self (list : next.objectsList = tables.objectsList ++ [logic])
    (owned : world.className logic = .object object) :
    next.ownMenus world object = logic :: tables.ownMenus world object := by
  simp [ownMenus, list, List.filter_append, owned]

omit [DecidableEq Menu] in
theorem ownMenus_append_of_ne (list : next.objectsList = tables.objectsList ++ [logic])
    (owned : world.className logic = .object object) (distinct : other ≠ object) :
    next.ownMenus world other = tables.ownMenus world other := by
  simp [ownMenus, list, List.filter_append, owned, distinct.symm]

theorem ownMenus_erase (list : next.objectsList = tables.objectsList.erase logic)
    (distinct : tables.objectsList.Nodup) (object : Object) :
    next.ownMenus world object = (tables.ownMenus world object).filter (· ≠ logic) := by
  rw [ownMenus, ownMenus, list, distinct.erase_eq_filter, List.filter_reverse,
    List.filter_filter, List.filter_filter]
  congr 1
  apply List.filter_congr
  intro other _
  by_cases same : other = logic
  · simp [same]
  · simp [same]

omit [DecidableEq Object] [DecidableEq Class] in
theorem Shows.uninstall_activeMenu {near : Prop} {own menus : List Menu}
    (shows : tables.Shows world near own menus object) :
    (tables.menuVariables object).uninstallMenuObjects (world.contents object)
      ((tables.menuVariables object).activeMenu.getD []) = .nil := by
  have gone : ∀ active : List Menu, active.filter (· ∉ active) = [] := fun active =>
    List.filter_eq_nil_iff.mpr (by simp)
  by_cases held : near
  · have built := shows.1 held
    rw [built.activeMenu, Option.getD_some]
    exact built.uninstall_all (gone _)
  · rcases shows.2 held with ⟨-, nil⟩ | ⟨-, built⟩
    · rw [nil]
      rfl
    · rw [built.activeMenu, Option.getD_some]
      exact built.uninstall_all (gone _)

omit [DecidableEq Object] [DecidableEq Class] [DecidableEq Menu] in
theorem Shows.activeMenu {near : Prop} [Decidable near] {own menus : List Menu}
    (shows : tables.Shows world near own menus object) :
    (tables.menuVariables object).activeMenu.getD [] = own ++ if near then menus else [] := by
  by_cases held : near
  · rw [(shows.1 held).activeMenu, Option.getD_some, if_pos held]
  · rw [(shows.2 held).activeMenu, if_neg held, List.append_nil]

end Tables

namespace Consistent

variable (consistent : Consistent world tables)

include consistent

omit [DecidableEq Menu] in
theorem shows (object : Object) : tables.Shows world (object ∈ tables.cachedList)
    (tables.ownMenus world object) (tables.classMenus world object) object :=
  ⟨consistent.near object, consistent.away object⟩

omit [DecidableEq Menu] in
theorem classMenus_not_mem {object : Object} {logic : Menu}
    (member : logic ∈ tables.classMenus world object) : logic ∉ tables.objectsList := by
  intro owned
  obtain ⟨name, named⟩ := consistent.classNamed logic (Tables.mem_classMenus.mp member).1
  obtain ⟨owner, object⟩ := consistent.objectsOwned logic owned
  rw [named] at object
  cases object

/-- A new list of class menus, which the objects outside one class see as the old one, is
passed on to the objects of that class that are near. -/
theorem reinstallAll {newList : List Menu} {name : Class} (distinct : newList.Nodup)
    (named : ∀ logic ∈ newList, ∃ name, world.className logic = .name name)
    (sees : ∀ object, world.isOfClass object name = false →
      newList.filter (world.belongs object) = tables.classMenus world object)
    (ranks : ∀ object, world.isOfClass object name = false → ∀ logic,
      world.belongs object logic = true →
        world.classRank newList logic = world.classRank tables.classList logic) :
    ∃ next, { tables with classList := world.mapHierarchy newList }.reinstallAll world name =
        some next ∧ Consistent world next := by
  let sorted : Tables Object Menu Item := { tables with classList := world.mapHierarchy newList }
  have unchanged : ∀ object, world.isOfClass object name = false →
      sorted.classMenus world object = tables.classMenus world object := fun object foreign =>
    World.filter_mapHierarchy consistent.ordered (sees object foreign) (ranks object foreign)
  have treat : ∀ object (state : Tables Object Menu Item),
      (∃ menuVariables, state = { sorted with menuVariables }) →
      (object ∈ tables.cachedList ∧ state.Shows world (object ∈ tables.cachedList)
        (tables.ownMenus world object) (tables.classMenus world object) object) →
      ∃ next, state.reinstall world object = some next ∧
        (∃ menuVariables, next = { sorted with menuVariables }) ∧
        next.Shows world (object ∈ tables.cachedList) (tables.ownMenus world object)
          (sorted.classMenus world object) object ∧
        ∀ other ≠ object,
          ((other ∈ tables.cachedList ∧ state.Shows world (other ∈ tables.cachedList)
              (tables.ownMenus world other) (tables.classMenus world other) other) →
            other ∈ tables.cachedList ∧ next.Shows world (other ∈ tables.cachedList)
              (tables.ownMenus world other) (tables.classMenus world other) other) ∧
          (state.Shows world (other ∈ tables.cachedList) (tables.ownMenus world other)
              (sorted.classMenus world other) other →
            next.Shows world (other ∈ tables.cachedList) (tables.ownMenus world other)
              (sorted.classMenus world other) other) := by
    rintro object state ⟨current, rfl⟩ ⟨near, shows⟩
    obtain ⟨menuVariables, stepped, exchanged⟩ := Tables.reinstall_spec (shows.1 near)
      (fun logic member => (Tables.mem_ownMenus.mp member).1)
      (fun logic member => consistent.classMenus_not_mem member)
    refine ⟨_, stepped, ⟨_, rfl⟩, ⟨fun _ => ?_, fun away => absurd near away⟩, ?_⟩
    · rw [Tables.menuVariables_setVariables_self]
      exact exchanged
    · intro other distinct
      rw [Tables.shows_setVariables_of_ne distinct, Tables.shows_setVariables_of_ne distinct]
      exact ⟨id, id⟩
  obtain ⟨next, folded, ⟨menuVariables, rfl⟩, inside, outside⟩ := foldlM_each treat
    (consistent.cachedDistinct.filter _) ⟨tables.menuVariables, rfl⟩
    (fun object member => ⟨(List.mem_filter.mp member).1, consistent.shows object⟩)
  have shows : ∀ object, Tables.Shows { sorted with menuVariables } world
      (object ∈ tables.cachedList) (tables.ownMenus world object)
      (sorted.classMenus world object) object := by
    intro object
    by_cases member : object ∈ tables.cachedList.filter fun object => world.isOfClass object name
    · exact inside object member
    · apply outside object member
      by_cases near : object ∈ tables.cachedList
      · have foreign : world.isOfClass object name = false := by
          simpa [near] using member
        rw [unchanged object foreign]
        exact consistent.shows object
      · exact ⟨fun held => absurd held near, fun _ => consistent.away object near⟩
  have perm : sorted.classList.Perm newList := World.mapHierarchy_perm
  exact ⟨_, folded, {
    classDistinct := perm.nodup_iff.mpr distinct
    classNamed := fun logic member => named logic (perm.mem_iff.mp member)
    ordered := World.mapHierarchy_pairwise
    objectsDistinct := consistent.objectsDistinct
    objectsOwned := consistent.objectsOwned
    cachedDistinct := consistent.cachedDistinct
    active := consistent.active
    near := fun object member => (shows object).1 member
    away := fun object absent => (shows object).2 absent }⟩

theorem installClass {logic : Menu} {name : Class} (named : world.className logic = .name name)
    (fresh : logic ∉ tables.classList) :
    ∃ next, tables.install world logic = some next ∧ Consistent world next := by
  have sees : ∀ object, world.isOfClass object name = false →
      (logic :: tables.classList).filter (world.belongs object) =
        tables.classMenus world object := fun object foreign =>
    List.filter_cons_of_neg (by simp [World.belongs_of_name named, foreign])
  have ranks : ∀ object, world.isOfClass object name = false → ∀ other,
      world.belongs object other = true →
        world.classRank (logic :: tables.classList) other =
          world.classRank tables.classList other := fun object foreign other belongs =>
    List.countP_cons_of_neg (by simp [World.moreSpecific_eq_false named foreign belongs])
  rw [Tables.install, named]
  exact consistent.reinstallAll (List.nodup_cons.mpr ⟨fresh, consistent.classDistinct⟩)
    (List.forall_mem_cons.mpr ⟨⟨name, named⟩, consistent.classNamed⟩) sees ranks

theorem uninstallClass {logic : Menu} {name : Class}
    (named : world.className logic = .name name) (member : logic ∈ tables.classList) :
    ∃ next, tables.uninstall world logic = some next ∧ Consistent world next := by
  have sees : ∀ object, world.isOfClass object name = false →
      (tables.classList.erase logic).filter (world.belongs object) =
        tables.classMenus world object := by
    intro object foreign
    rw [consistent.classDistinct.erase_eq_filter logic, List.filter_filter]
    apply List.filter_congr
    intro other _
    by_cases same : other = logic
    · simp [same, World.belongs_of_name named, foreign]
    · simp [same]
  have ranks : ∀ object, world.isOfClass object name = false → ∀ other,
      world.belongs object other = true →
        world.classRank (tables.classList.erase logic) other =
          world.classRank tables.classList other := by
    intro object foreign other belongs
    rw [World.classRank, World.classRank, (List.perm_cons_erase member).countP_eq,
      List.countP_cons_of_neg (by simp [World.moreSpecific_eq_false named foreign belongs])]
  rw [Tables.uninstall, named]
  simp only [List.eraseIdx_idxOf_eq_erase]
  exact consistent.reinstallAll (consistent.classDistinct.erase logic)
    (fun other within => consistent.classNamed other (List.mem_of_mem_erase within)) sees ranks

omit [DecidableEq Menu] in
/-- A change to the menus of one object, and to `RTMS_OBJECTS_LIST` where it is about this
object, after which the variables of the object fit again. -/
theorem changeObject {object : Object} {menuVariables : MenuVariables Menu Item}
    {objectsList : List Menu} (distinct : objectsList.Nodup)
    (owned : ∀ logic ∈ objectsList, ∃ object, world.className logic = .object object)
    (others : ∀ other ≠ object, Tables.ownMenus world { tables with objectsList } other =
      tables.ownMenus world other)
    (shows : Tables.Shows { tables.setVariables object menuVariables with objectsList } world
      (object ∈ tables.cachedList) (Tables.ownMenus world { tables with objectsList } object)
      (tables.classMenus world object) object) :
    Consistent world { tables.setVariables object menuVariables with objectsList } := by
  have all : ∀ other, Tables.Shows { tables.setVariables object menuVariables with objectsList }
      world (other ∈ tables.cachedList) (Tables.ownMenus world { tables with objectsList } other)
      (tables.classMenus world other) other := by
    intro other
    by_cases same : other = object
    · subst same
      exact shows
    · rw [others other same]
      exact (Tables.shows_setVariables_of_ne same menuVariables).mpr (consistent.shows other)
  exact {
    classDistinct := consistent.classDistinct
    classNamed := consistent.classNamed
    ordered := consistent.ordered
    objectsDistinct := distinct
    objectsOwned := owned
    cachedDistinct := consistent.cachedDistinct
    active := consistent.active
    near := fun other member => (all other).1 member
    away := fun other absent => (all other).2 absent }

theorem installObject {logic : Menu} {object : Object}
    (owned : world.className logic = .object object) (fresh : logic ∉ tables.objectsList) :
    ∃ next, tables.install world logic = some next ∧ Consistent world next := by
  have shows := consistent.shows object
  rw [Tables.install, owned]
  simp only [shows.uninstall_activeMenu]
  simp only [shows.activeMenu]
  refine ⟨_, rfl, consistent.changeObject ?_ ?_ ?_ ?_⟩
  · exact List.concat_eq_append ▸ consistent.objectsDistinct.concat fresh
  · intro other member
    rcases List.mem_append.mp member with member | member
    · exact consistent.objectsOwned other member
    · exact ⟨object, List.mem_singleton.mp member ▸ owned⟩
  · intro other distinct
    exact Tables.ownMenus_append_of_ne rfl owned distinct
  · have own : Tables.ownMenus world
        { tables with objectsList := tables.objectsList ++ [logic] } object =
          logic :: tables.ownMenus world object := Tables.ownMenus_append_self rfl owned
    rw [own]
    constructor
    · intro near
      simp only [near, if_true, Tables.menuVariables_setVariables_self]
      exact built_install_nil _
    · intro away
      simp only [away, if_false, List.append_nil, Tables.menuVariables_setVariables_self]
      exact .inr ⟨List.cons_ne_nil _ _, built_install_nil _⟩

omit [DecidableEq Menu] in
theorem menus_nodup (object : Object) :
    (tables.ownMenus world object ++ tables.classMenus world object).Nodup := by
  refine List.Nodup.append ?_ (consistent.classDistinct.filter _) ?_
  · exact List.nodup_reverse.mpr (consistent.objectsDistinct.filter _)
  · intro logic own menus
    exact consistent.classMenus_not_mem menus (Tables.mem_ownMenus.mp own).1

/-- A menu of the object is taken away, which is not the last one of an object that is
near. -/
theorem uninstallObject {logic : Menu} {object : Object}
    (owned : world.className logic = .object object) (member : logic ∈ tables.objectsList)
    (keeps : object ∈ tables.cachedList →
      (tables.menuVariables object).activeMenu ≠ some [logic]) :
    ∃ next, tables.uninstall world logic = some next ∧ Consistent world next := by
  have shows := consistent.shows object
  have own : ∀ other, Tables.ownMenus world
      { tables with objectsList := tables.objectsList.erase logic } other =
        (tables.ownMenus world other).filter (· ≠ logic) := fun other =>
    Tables.ownMenus_erase rfl consistent.objectsDistinct other
  rw [Tables.uninstall, owned]
  simp only [List.eraseIdx_idxOf_eq_erase]
  refine ⟨_, rfl, consistent.changeObject ?_ ?_ ?_ ?_⟩
  · exact consistent.objectsDistinct.erase logic
  · exact fun other within => consistent.objectsOwned other (List.mem_of_mem_erase within)
  · intro other distinct
    rw [own, List.filter_eq_self]
    intro menu within
    have owner := (Tables.mem_ownMenus.mp within).2
    simp only [ne_eq, decide_not, Bool.not_eq_true', decide_eq_false_iff_not]
    rintro rfl
    rw [owned, ClassName.object.injEq] at owner
    exact distinct owner.symm
  · rw [own]
    constructor
    · intro near
      rw [Tables.menuVariables_setVariables_self]
      have foreign : ∀ menu ∈ tables.classMenus world object, decide (menu ∉ [logic]) = true := by
        intro menu within
        have other : menu ≠ logic := by
          rintro rfl
          exact consistent.classMenus_not_mem within member
        simpa using other
      have left : (tables.ownMenus world object ++ tables.classMenus world object).filter
          (· ∉ [logic]) = (tables.ownMenus world object).filter (· ≠ logic) ++
            tables.classMenus world object := by
        rw [List.filter_append, List.filter_eq_self.mpr foreign]
        simp
      apply (shows.1 near).uninstall left
      intro none
      rw [none] at left
      apply keeps near
      rw [(shows.1 near).activeMenu]
      exact congrArg some (eq_singleton_of_filter_eq_nil (consistent.menus_nodup object)
        (List.mem_append_left _ (Tables.mem_ownMenus.mpr ⟨member, owned⟩)) left)
    · intro away
      rw [Tables.menuVariables_setVariables_self]
      exact (shows.2 away).uninstall (by simp)

end Consistent

omit [DecidableEq Object] in
theorem sortByAngle_perm {nearObjects : List (ℚ × Object)} :
    (sortByAngle nearObjects).Perm (nearObjects.map Prod.snd) := by
  have sorted := (List.perm_insertionSort Ascending
    (nearObjects.zipIdx.map fun entry => (entry.1.1, entry.2))).filterMap
      fun pair => nearObjects[pair.2]?.map Prod.snd
  have picked : ∀ entry ∈ nearObjects.zipIdx,
      ((fun pair : ℚ × ℕ => nearObjects[pair.2]?.map Prod.snd) ∘ fun entry : (ℚ × Object) × ℕ =>
        (entry.1.1, entry.2)) entry = some ((Prod.snd ∘ Prod.fst) entry) := by
    intro entry member
    exact congrArg (Option.map Prod.snd) (List.mem_zipIdx_iff_getElem?.mp member)
  rw [List.filterMap_map, List.filterMap_congr picked, List.filterMap_eq_map',
    ← List.map_map, List.zipIdx_map_fst] at sorted
  exact sorted

def Tables.Settled (tables : Tables Object Menu Item) (world : World Object Class Menu Item)
    (near : Prop) (own menus : List Menu) (object : Object) : Prop :=
  tables.Shows world near own menus object ∧ (tables.isActive object = true ↔ near)

namespace Tables

variable {near : Prop} {own menus : List Menu} {object other : Object}

omit [DecidableEq Class] [DecidableEq Menu] in
theorem settled_update_of_ne (distinct : other ≠ object)
    (menuVariables : MenuVariables Menu Item) (active : Bool) :
    ((tables.setVariables object menuVariables).setActive object active).Settled world near own
        menus other ↔ tables.Settled world near own menus other := by
  have flag : Function.update tables.isActive object active other = tables.isActive other :=
    Function.update_of_ne distinct ..
  refine and_congr (shows_setVariables_of_ne distinct menuVariables) ?_
  exact flag ▸ Iff.rfl

omit [DecidableEq Class] [DecidableEq Menu] in
theorem settled_update_self (active : Bool) (menuVariables : MenuVariables Menu Item) :
    ((tables.setVariables object menuVariables).setActive object active).Settled world near own
        menus object ↔
      ((near → Built (world.contents object) menuVariables (own ++ menus)) ∧
        (¬near → Resting (world.contents object) menuVariables own)) ∧
          (active = true ↔ near) := by
  simp [Settled, Shows, setActive, setVariables]

omit [DecidableEq Class] in
theorem leave_spec (built : Built (world.contents object) (tables.menuVariables object)
      (own ++ menus)) (ownIn : ∀ logic ∈ own, logic ∈ tables.objectsList)
    (foreign : ∀ logic ∈ menus, logic ∉ tables.objectsList) :
    ∃ menuVariables, tables.leave world object =
        some ((tables.setVariables object menuVariables).setActive object false) ∧
      Resting (world.contents object) menuVariables own := by
  have split := filter_not_mem_left ownIn foreign
  have disjoint : own.Disjoint menus := fun logic member other =>
    foreign logic other (ownIn logic member)
  refine ⟨_, ?_, built.uninstall_rest (filter_not_mem_right disjoint)⟩
  rw [leave, built.activeMenu, Option.map_some, split]

omit [DecidableEq Menu] in
theorem enter_spec (settled : tables.Settled world near own (tables.classMenus world object)
      object) :
    (∃ menuVariables, tables.enter world object =
      (tables.setVariables object menuVariables).setActive object true) ∧
      (tables.enter world object).Settled world True own (tables.classMenus world object)
        object := by
  by_cases held : near
  · have active : tables.isActive object = true := settled.2.mpr held
    rw [enter, if_pos active]
    refine ⟨⟨tables.menuVariables object, ?_⟩, ?_⟩
    · simp [setActive, setVariables, ← active]
    · exact ⟨⟨fun _ => settled.1.1 held, fun none => absurd trivial none⟩, by simp [active]⟩
  · have inactive : tables.isActive object = false := by
      rw [Bool.eq_false_iff]
      exact fun active => held (settled.2.mp active)
    rw [enter, inactive, if_neg Bool.false_ne_true]
    refine ⟨⟨_, rfl⟩, (settled_update_self true _).mpr ⟨⟨fun _ => ?_, fun none => ?_⟩, by simp⟩⟩
    · exact (settled.1.2 held).install _
    · exact absurd trivial none

end Tables

def Tables.SameLists (start tables : Tables Object Menu Item) : Prop :=
  ∃ menuVariables isActive, tables = { start with menuVariables, isActive }

theorem Consistent.scanEnvironment (consistent : Consistent world tables)
    {nearObjects : List (ℚ × Object)} (distinct : (nearObjects.map Prod.snd).Nodup) :
    ∃ next, tables.scanEnvironment world nearObjects = some next ∧ Consistent world next := by
  let near := nearObjects.map Prod.snd
  let start : Tables Object Menu Item := { tables with cachedList := [] }
  let own := tables.ownMenus world
  let menus := tables.classMenus world
  have leaves : ∀ object (state : Tables Object Menu Item),
      start.SameLists state →
      ((object ∈ tables.cachedList ∧ object ∉ near) ∧
        state.Settled world (object ∈ tables.cachedList) (own object) (menus object) object) →
      ∃ next, state.leave world object = some next ∧
        start.SameLists next ∧
        next.Settled world (object ∈ tables.cachedList ∧ object ∈ near) (own object)
          (menus object) object ∧
        ∀ other ≠ object,
          (((other ∈ tables.cachedList ∧ other ∉ near) ∧
            state.Settled world (other ∈ tables.cachedList) (own other) (menus other) other) →
            (other ∈ tables.cachedList ∧ other ∉ near) ∧
              next.Settled world (other ∈ tables.cachedList) (own other) (menus other) other) ∧
          (state.Settled world (other ∈ tables.cachedList ∧ other ∈ near) (own other)
              (menus other) other →
            next.Settled world (other ∈ tables.cachedList ∧ other ∈ near) (own other)
              (menus other) other) := by
    rintro object state ⟨current, active, rfl⟩ ⟨⟨cached, far⟩, settled⟩
    obtain ⟨menuVariables, stepped, resting⟩ := Tables.leave_spec (settled.1.1 cached)
      (fun logic member => (Tables.mem_ownMenus.mp member).1)
      (fun logic member => consistent.classMenus_not_mem member)
    refine ⟨_, stepped, ⟨_, _, rfl⟩, ?_, ?_⟩
    · rw [Tables.settled_update_self]
      exact ⟨⟨fun held => absurd held.2 far, fun _ => resting⟩, by simp [far]⟩
    · intro other distinct
      rw [Tables.settled_update_of_ne distinct, Tables.settled_update_of_ne distinct]
      exact ⟨id, id⟩
  have enters : ∀ object (state next : Tables Object Menu Item), start.SameLists state →
      (object ∈ near ∧ state.Settled world (object ∈ tables.cachedList ∧ object ∈ near)
        (own object) (menus object) object) →
      state.enter world object = next →
      start.SameLists next ∧
        next.Settled world (object ∈ near) (own object) (menus object) object ∧
        ∀ other ≠ object,
          ((other ∈ near ∧ state.Settled world (other ∈ tables.cachedList ∧ other ∈ near)
              (own other) (menus other) other) →
            other ∈ near ∧ next.Settled world (other ∈ tables.cachedList ∧ other ∈ near)
              (own other) (menus other) other) ∧
          (state.Settled world (other ∈ near) (own other) (menus other) other →
            next.Settled world (other ∈ near) (own other) (menus other) other) := by
    rintro object state _ ⟨current, active, rfl⟩ ⟨member, settled⟩ rfl
    obtain ⟨⟨menuVariables, entered⟩, shown⟩ := Tables.enter_spec settled
    rw [entered] at shown ⊢
    refine ⟨⟨_, _, rfl⟩, ?_, ?_⟩
    · rw [eq_true member]
      exact shown
    · intro other distinct
      rw [Tables.settled_update_of_ne distinct, Tables.settled_update_of_ne distinct]
      exact ⟨id, id⟩
  have shown : ∀ object, start.Settled world (object ∈ tables.cachedList) (own object)
      (menus object) object := fun object => ⟨consistent.shows object, consistent.active object⟩
  obtain ⟨middle, left, middleKept, gone, stayed⟩ := foldlM_each leaves
    (consistent.cachedDistinct.filter (· ∉ near))
    ⟨tables.menuVariables, tables.isActive, rfl⟩
    (fun object member => ⟨by simpa using List.mem_filter.mp member, shown object⟩)
  have between : ∀ object, middle.Settled world (object ∈ tables.cachedList ∧ object ∈ near)
      (own object) (menus object) object := by
    intro object
    by_cases leaving : object ∈ tables.cachedList.filter (· ∉ near)
    · exact gone object leaving
    · apply stayed object leaving
      have same : (object ∈ tables.cachedList ∧ object ∈ near) = (object ∈ tables.cachedList) := by
        simpa using leaving
      rw [same]
      exact shown object
  obtain ⟨⟨menuVariables, isActive, kept⟩, came, outside⟩ :=
    foldl_each enters distinct middleKept
      (fun object member => ⟨member, between object⟩)
  have behind : ∀ object, (near.foldl (Tables.enter world) middle).Settled world (object ∈ near)
      (own object) (menus object) object := by
    intro object
    by_cases member : object ∈ near
    · exact came object member
    · apply outside object member
      have same : (object ∈ tables.cachedList ∧ object ∈ near) = (object ∈ near) := by
        simp [member]
      rw [← same]
      exact between object
  have perm : (sortByAngle nearObjects).Perm near := sortByAngle_perm
  refine ⟨{ near.foldl (Tables.enter world) middle with cachedList := sortByAngle nearObjects },
    ?_, ?_⟩
  · exact congrArg (Option.map _) left
  · rw [kept]
    rw [kept] at behind
    exact {
      classDistinct := consistent.classDistinct
      classNamed := consistent.classNamed
      ordered := consistent.ordered
      objectsDistinct := consistent.objectsDistinct
      objectsOwned := consistent.objectsOwned
      cachedDistinct := perm.nodup_iff.mpr distinct
      active := fun object => (behind object).2.trans perm.mem_iff.symm
      near := fun object member => (behind object).1.1 (perm.mem_iff.mp member)
      away := fun object absent => (behind object).1.2 fun member =>
        absent (perm.mem_iff.mpr member) }

omit [DecidableEq Menu] in
theorem Consistent.loadMenuClasses {classes : List Menu} (distinct : classes.Nodup)
    (named : ∀ logic ∈ classes, ∃ name, world.className logic = .name name) :
    Consistent world (Tables.loadMenuClasses world classes : Tables Object Menu Item) where
  classDistinct := World.mapHierarchy_perm.nodup_iff.mpr distinct
  classNamed logic member := named logic (World.mapHierarchy_perm.mem_iff.mp member)
  ordered := World.mapHierarchy_pairwise
  objectsDistinct := List.nodup_nil
  objectsOwned := by simp [Tables.loadMenuClasses]
  cachedDistinct := List.nodup_nil
  active := by simp [Tables.loadMenuClasses]
  near := by simp [Tables.loadMenuClasses]
  away object _ := .inl ⟨rfl, rfl⟩

/-- An uninstall request does not take the last menu of an object that is near. -/
def LeavesOne (world : World Object Class Menu Item) (before : Tables Object Menu Item)
    (label : Event Object Menu) (_after : Tables Object Menu Item) : Prop :=
  match label with
  | .request logic false => ∀ object ∈ before.cachedList,
      world.className logic = .object object →
        (before.menuVariables object).activeMenu ≠ some [logic]
  | _ => True

instance LeavesOne.decidable (before : Tables Object Menu Item) (after : Tables Object Menu Item) :
    (label : Event Object Menu) → Decidable (LeavesOne world before label after)
  | .request logic false => inferInstanceAs (Decidable (∀ object ∈ before.cachedList,
      world.className logic = .object object →
        (before.menuVariables object).activeMenu ≠ some [logic]))
  | .request _ true => .isTrue trivial
  | .scanEnvironment _ => .isTrue trivial

/-- From a consistent state every request and every scan that leaves each object that is near
a menu of its own goes through. -/
theorem Consistent.exists_step (consistent : Consistent world tables)
    {label : Event Object Menu}
    (distinct : ∀ nearObjects, label = .scanEnvironment nearObjects →
      (nearObjects.map Prod.snd).Nodup)
    (leaves : LeavesOne world tables label tables) :
    ∃ next, step world tables label = some next ∧ Consistent world next := by
  cases label with
  | scanEnvironment nearObjects =>
      have distinct := distinct nearObjects rfl
      rw [step, if_pos distinct]
      exact consistent.scanEnvironment distinct
  | request logic method =>
      rw [step, Tables.processRequest]
      cases installed : tables.isInstalled world logic with
      | true =>
          cases method with
          | true => exact ⟨tables, rfl, consistent⟩
          | false =>
              simp only [Bool.false_eq_true, if_false, if_true]
              unfold Tables.isInstalled at installed
              cases name : world.className logic with
              | object object =>
                  rw [name] at installed
                  exact consistent.uninstallObject name (by simpa using installed)
                    (fun near => leaves object near name)
              | name ofClass =>
                  rw [name] at installed
                  exact consistent.uninstallClass name (by simpa using installed)
              | personal =>
                  rw [Tables.uninstall, name]
                  exact ⟨tables, rfl, consistent⟩
      | false =>
          cases method with
          | false => exact ⟨tables, rfl, consistent⟩
          | true =>
              simp only [Bool.false_eq_true, if_false, if_true]
              unfold Tables.isInstalled at installed
              cases name : world.className logic with
              | object object =>
                  rw [name] at installed
                  exact consistent.installObject name (by simpa using installed)
              | name ofClass =>
                  rw [name] at installed
                  exact consistent.installClass name (by simpa using installed)
              | personal =>
                  rw [Tables.install, name]
                  exact ⟨tables, rfl, consistent⟩

/-- The variables of an object are those computed from its menus at once: its own ones and
then those of its classes, of which none comes before a menu of a strict subclass. -/
def Rebuilt (world : World Object Class Menu Item) (tables : Tables Object Menu Item)
    (object : Object) : Prop :=
  ∃ own menus, (tables.menuVariables object).activeMenu = some (own ++ menus) ∧
    (∀ logic, logic ∈ own ↔
      logic ∈ tables.objectsList ∧ world.className logic = .object object) ∧
    menus = tables.classList.filter (world.belongs object) ∧ (own ++ menus).Nodup ∧
    (menus.Pairwise fun first second => world.moreSpecific second first = false) ∧
    (tables.menuVariables object).subMenuList =
      some ((own ++ menus).flatMap (world.itemsOf object)) ∧
    (tables.menuVariables object).distance = some (((own ++ menus).map fun logic =>
      world.adaptDistance object (world.classDistance logic)).foldl max 0)

omit [DecidableEq Menu] in
theorem Consistent.rebuilt (consistent : Consistent world tables) {object : Object}
    (near : object ∈ tables.cachedList) : Rebuilt world tables object := by
  have built := consistent.near object near
  refine ⟨tables.ownMenus world object, tables.classMenus world object, built.activeMenu,
    fun logic => Tables.mem_ownMenus, rfl, consistent.menus_nodup object, ?_,
    built.subMenuList, ?_⟩
  · refine (consistent.ordered.filter _).imp_of_mem ?_
    intro first second firstIn secondIn lower
    rw [Bool.eq_false_iff]
    intro specific
    exact absurd (World.classRank_lt (List.mem_of_mem_filter firstIn) specific) lower.not_gt
  · rw [built.distance, Contents.farthest_eq_foldl_max]
    rfl

theorem Consistent.not_rebuilt_of_takesLast (consistent : Consistent world tables)
    {logic : Menu} {object : Object} (owned : world.className logic = .object object)
    (near : object ∈ tables.cachedList)
    (last : (tables.menuVariables object).activeMenu = some [logic])
    {next : Tables Object Menu Item}
    (stepped : step world tables (.request logic false) = some next) :
    object ∈ next.cachedList ∧ (next.menuVariables object).activeMenu = none := by
  have built := consistent.near object near
  have member : logic ∈ tables.ownMenus world object ++ tables.classMenus world object := by
    rw [built.activeMenu, Option.some.injEq] at last
    rw [last]
    exact List.mem_singleton_self logic
  have installed : logic ∈ tables.objectsList := by
    rcases List.mem_append.mp member with own | menus
    · exact (Tables.mem_ownMenus.mp own).1
    · have belongs := (Tables.mem_classMenus.mp menus).2
      rw [World.belongs_eq_false owned] at belongs
      cases belongs
  have taken : (tables.menuVariables object).uninstallMenuObjects (world.contents object)
      [logic] = .nil := by
    apply built.uninstall_all
    rw [built.activeMenu, Option.some.injEq] at last
    rw [last]
    simp
  have uninstalled : step world tables (.request logic false) = tables.uninstall world logic := by
    simp [step, Tables.processRequest, Tables.isInstalled, owned, installed]
  rw [uninstalled, Tables.uninstall, owned] at stepped
  simp only [taken, Option.some.injEq] at stepped
  subst stepped
  refine ⟨near, ?_⟩
  show ((tables.setVariables object .nil).menuVariables object).activeMenu = none
  rw [Tables.menuVariables_setVariables_self]
  rfl

/-- After every step each object that is near has the variables computed at once, exactly if
no step takes the last menu of such an object. -/
theorem tables_rebuilt_iff {classes : List Menu} (distinct : classes.Nodup)
    (named : ∀ logic ∈ classes, ∃ name, world.className logic = .name name)
    (events : List (Event Object Menu)) :
    Along (step world) (fun _ _ after => ∀ object ∈ after.cachedList, Rebuilt world after object)
        (Tables.loadMenuClasses world classes : Tables Object Menu Item) events ↔
      Along (step world) (LeavesOne world) (Tables.loadMenuClasses world classes) events := by
  have steps : ∀ before label after, Consistent world before → LeavesOne world before label after →
      step world before label = some after → Consistent world after := by
    intro before label after consistent leaves stepped
    have distinct : ∀ nearObjects, label = .scanEnvironment nearObjects →
        (nearObjects.map Prod.snd).Nodup := by
      rintro nearObjects rfl
      exact (Option.ite_none_right_eq_some.mp stepped).1
    obtain ⟨next, same, kept⟩ := consistent.exists_step distinct leaves
    rw [stepped, Option.some.injEq] at same
    exact same ▸ kept
  refine along_iff_of_invariant (Consistent world) steps ?_
    (Consistent.loadMenuClasses distinct named) events
  intro before label after consistent stepped
  constructor
  · intro rebuilt
    unfold LeavesOne
    split
    case h_2 => trivial
    intro object near owned last
    obtain ⟨still, none⟩ := consistent.not_rebuilt_of_takesLast owned near last stepped
    obtain ⟨own, menus, active, -⟩ := rebuilt object still
    rw [none] at active
    cases active
  · intro leaves object near
    exact (steps before label after consistent leaves stepped).rebuilt near

end State

/-- Class 0 has the subclasses 1 and 2; an object is of the class of its number.  Menus 0 to
2 are for these classes, and menu 10 and those behind it for the objects from 0 on. -/
def motorPool : World ℕ ℕ ℕ ℕ where
  isKindOf name other := name = other || other = 0
  refl name := by simp
  trans first second third := by
    simp only [Bool.or_eq_true, decide_eq_true_eq]
    omega
  antisymm first second := by
    simp only [Bool.or_eq_true, decide_eq_true_eq]
    omega
  typeOf object := object
  className menu := if menu < 10 then .name menu else .object (menu - 10)
  menuItems menu := [menu, menu + 100]
  automatic item := item = 0
  classDistance menu := if menu = 2 then .text else .number menu
  isInternal _ := false
  getAutoMenus object _ := [object + 200]
  halfDiagonal object := object + 3

/-- Objects 1 and 2 come near, get menus of their own, and lose a class. -/
def visit : List (Event ℕ ℕ) :=
  [.scanEnvironment [(30, 2), (10, 1)], .request 2 true, .request 11 true, .request 12 true,
    .request 0 false, .request 12 false, .scanEnvironment [(5, 2)]]

theorem tables_rebuilt_iff_visit :
    Along (step motorPool)
      (fun _ _ after => ∀ object ∈ after.cachedList, Rebuilt motorPool after object)
      (Tables.loadMenuClasses motorPool [0, 1]) visit := by
  have named : ∀ logic ∈ [0, 1], ∃ name, motorPool.className logic = .name name := by
    intro logic member
    exact ⟨logic, if_pos (by simp at member; omega)⟩
  exact (tables_rebuilt_iff (by decide) named visit).mpr (by decide +kernel)

/-- The only menu of object 1, which is near, is installed and uninstalled again. -/
theorem last_menu_lost : ∃ finish, run (step motorPool) (Tables.loadMenuClasses motorPool [])
      [.request 11 true, .scanEnvironment [(0, 1)], .request 11 false] = some finish ∧
    1 ∈ finish.cachedList ∧ ¬Rebuilt motorPool finish 1 := by
  have ends : (run (step motorPool) (Tables.loadMenuClasses motorPool [])
      [.request 11 true, .scanEnvironment [(0, 1)], .request 11 false]).map
        (fun tables => (tables.cachedList, (tables.menuVariables 1).activeMenu)) =
      some ([1], none) := by decide +kernel
  obtain ⟨finish, ran, reached⟩ := Option.map_eq_some_iff.mp ends
  rw [Prod.mk.injEq] at reached
  refine ⟨finish, ran, by simp [reached.1], ?_⟩
  rintro ⟨own, menus, active, -⟩
  rw [reached.2] at active
  cases active

end OperationFrontLine.Menus
