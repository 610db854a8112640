import OperationFrontLine.Menus.Requests
import Mathlib.Data.List.TakeWhile

/-!
# The names of the scanned classes

`RTMS_CLASS_NAMES` is meant to hold the classes of the menus in `RTMS_CLASS_LIST`.  A name is
taken out when one menu of the class was counted in the list, but the loop that counts ends at
the menu that is being removed, and does not count this one.  Names are put in by `in`, and counted
and found by `==`.
-/

namespace OperationFrontLine.Menus

open OperationFrontLine.Library

universe u v w x

variable {Object : Type u} {Class : Type v} {Menu : Type w} {Item : Type x}

namespace MenuState

variable [DecidableEq Object] [DecidableEq Class] [DecidableEq Menu]
  (game : Game Object Class Menu Item)

def classRequest (state : MenuState Object Menu Item) (request : Menu × Bool) :
    Option (MenuState Object Menu Item) :=
  match game.className request.1 with
  | .name _ => if state.checkRequest game request then some (state.apply game request) else none
  | _ => none

/-- The name of the class that a menu is for, as it is written. -/
def nameOf (logic : Menu) : Option Text :=
  match game.className logic with
  | .name _ => some (game.classText logic)
  | _ => none

/-- `RTMS_CLASS_NAMES` holds each name of a menu in `RTMS_CLASS_LIST` once, and no other. -/
structure NamesExact (state : MenuState Object Menu Item) : Prop where
  distinct : state.classNames.Nodup
  mem_iff : ∀ name, name ∈ state.classNames ↔
    ∃ logic ∈ state.tables.classList, nameOf game logic = some name

/-- Where the loop returns 1 for the menus of the class that stand before this one, it is the last
menu of its name, and the search comes to this name first; else the list keeps another menu of its
name. -/
def KeepsNames (state : MenuState Object Menu Item) (logic : Menu) : Prop :=
  if game.countLeft (state.sameBefore game logic) = some 1 then
    (state.classNames.find? fun other => game.className logic = .name (game.classOf other)) =
        nameOf game logic ∧
      ∀ other ∈ state.tables.classList.erase logic, nameOf game other ≠ nameOf game logic
  else ∃ other ∈ state.tables.classList.erase logic, nameOf game other = nameOf game logic

variable {game}

omit [DecidableEq Object] [DecidableEq Class] [DecidableEq Menu] in
theorem nameOf_eq {logic : Menu} {name : Class} (named : game.className logic = .name name) :
    nameOf game logic = some (game.classText logic) := by
  rw [nameOf, named]

theorem mem_addClassName {names : List Text} {name other : Text} :
    other ∈ addClassName names name ↔ other ∈ names ∨ other = name := by
  rw [addClassName]
  split
  · rename_i member
    constructor
    · exact .inl
    · rintro (present | rfl)
      · exact present
      · exact member
  · simp

theorem nodup_addClassName {names : List Text} {name : Text} (distinct : names.Nodup) :
    (addClassName names name).Nodup := by
  rw [addClassName]
  split
  · exact distinct
  · rename_i absent
    exact distinct.append (List.nodup_singleton name) (by simpa using absent)

/-- The first place of the name that the search finds is where the search ends. -/
theorem deleteClassName_eq_erase {same : Text → Bool} {names : List Text} {found : Text}
    (isFound : names.find? same = some found) : deleteClassName same names = names.erase found := by
  rw [deleteClassName]
  induction names with
  | nil => simp at isFound
  | cons name names inductionHypothesis =>
      by_cases here : same name = true
      · rw [List.find?_cons_of_pos here, Option.some.injEq] at isFound
        subst isFound
        simp [List.findIdx?_cons, here]
      · rw [List.find?_cons_of_neg here] at isFound
        have other : name ≠ found := by
          rintro rfl
          exact here (List.find?_some isFound)
        obtain ⟨place, isPlace⟩ := Option.isSome_iff_exists.mp
          ((List.findIdx?_isSome).trans (List.any_eq_true.mpr
            ⟨found, List.mem_of_find?_eq_some isFound, List.find?_some isFound⟩))
        have later := inductionHypothesis isFound
        rw [isPlace, Option.getD_some] at later
        rw [List.findIdx?_cons, if_neg here, isPlace, Option.map_some, Option.getD_some,
          List.eraseIdx_cons_succ, later, List.erase_cons_tail (by simpa using other)]

omit [DecidableEq Object] [DecidableEq Class] [DecidableEq Menu] in
theorem foldl_addNameOf (game : Game Object Class Menu Item) (classes : List Menu)
    {names : List Text} (distinct : names.Nodup) :
    (classes.foldl (addNameOf game) names).Nodup ∧
      ∀ name, name ∈ classes.foldl (addNameOf game) names ↔
        name ∈ names ∨ ∃ logic ∈ classes, nameOf game logic = some name := by
  induction classes generalizing names with
  | nil => simpa using distinct
  | cons logic classes inductionHypothesis =>
      rw [List.foldl_cons, addNameOf]
      cases named : game.className logic with
      | name name =>
          obtain ⟨distinctThen, mem⟩ := inductionHypothesis
            (@nodup_addClassName _ (game.classText logic) distinct)
          refine ⟨distinctThen, fun other => ?_⟩
          rw [mem, mem_addClassName]
          simp [nameOf_eq named, or_assoc, eq_comm]
      | object object => simpa [nameOf, named] using inductionHypothesis distinct
      | personal => simpa [nameOf, named] using inductionHypothesis distinct

omit [DecidableEq Object] [DecidableEq Menu] in
theorem namesExact_loadMenuClasses {state : MenuState Object Menu Item}
    (exact : state.NamesExact game) (classes : List Menu) :
    (state.loadMenuClasses game classes).NamesExact game := by
  obtain ⟨distinct, mem⟩ := foldl_addNameOf game classes exact.distinct
  refine ⟨distinct, fun name => (mem name).trans ?_⟩
  rw [exact.mem_iff]
  simp only [loadMenuClasses, World.mapHierarchy_perm.mem_iff, List.mem_append, or_and_right,
    exists_or]

/-! ## One request -/

theorem namesExact_install {state : MenuState Object Menu Item}
    (exact : state.NamesExact game) {logic : Menu} {name : Class}
    (named : game.className logic = .name name) :
    (state.install game logic).NamesExact game := by
  obtain ⟨classList, -, classNames⟩ := install_name named
  refine ⟨by rw [classNames]; exact nodup_addClassName exact.distinct, fun other => ?_⟩
  rw [classNames, classList, mem_addClassName, exact.mem_iff]
  simp [World.mapHierarchy_perm.mem_iff, nameOf_eq named, or_comm, eq_comm]

omit [DecidableEq Object] [DecidableEq Menu] in
theorem exists_found {state : MenuState Object Menu Item} (exact : state.NamesExact game)
    {logic : Menu} {name : Class} (named : game.className logic = .name name)
    (member : logic ∈ state.tables.classList) :
    ∃ found, (state.classNames.find? fun other => name = game.classOf other) = some found := by
  have listed := (exact.mem_iff _).mpr ⟨logic, member, nameOf_eq named⟩
  refine Option.isSome_iff_exists.mp (List.find?_isSome.mpr ⟨_, listed, ?_⟩)
  exact decide_eq_true (game.classOf_classText logic name named).symm

/-- The name goes away when it should stay, or stays when it should go away, unless it is the last
menu of its name where the loop counts exactly one, and not the last one where it does not. -/
theorem namesExact_uninstall_iff {state : MenuState Object Menu Item}
    (exact : state.NamesExact game) {logic : Menu} {name : Class}
    (named : game.className logic = .name name) (member : logic ∈ state.tables.classList) :
    (state.uninstall game logic).NamesExact game ↔ state.KeepsNames game logic := by
  obtain ⟨classList, -, classNames⟩ := uninstall_name named
  rw [deleteFound_of_mem member] at classList
  rw [countSame, if_pos member] at classNames
  have left : ∀ {text}, (∃ other ∈ (state.uninstall game logic).tables.classList,
      nameOf game other = some text) ↔
        ∃ other ∈ state.tables.classList.erase logic, nameOf game other = some text := by
    intro text
    simp only [classList, World.mapHierarchy_perm.mem_iff]
  have before : ∀ text, text ∈ state.classNames ↔ text = game.classText logic ∨
      ∃ other ∈ state.tables.classList.erase logic, nameOf game other = some text := by
    intro text
    rw [exact.mem_iff]
    constructor
    · rintro ⟨other, otherIn, otherNamed⟩
      by_cases equal : other = logic
      · rw [equal, nameOf_eq named, Option.some.injEq] at otherNamed
        exact .inl otherNamed.symm
      · exact .inr ⟨other, (List.mem_erase_of_ne equal).mpr otherIn, otherNamed⟩
    · rintro (rfl | ⟨other, otherIn, otherNamed⟩)
      · exact ⟨logic, member, nameOf_eq named⟩
      · exact ⟨other, List.mem_of_mem_erase otherIn, otherNamed⟩
  rw [KeepsNames, nameOf_eq named]
  simp only [named, ClassName.name.injEq]
  by_cases counted : game.countLeft (state.sameBefore game logic) = some 1
  · rw [if_pos counted] at classNames ⊢
    obtain ⟨found, isFound⟩ := exists_found exact named member
    rw [deleteClassName_eq_erase isFound] at classNames
    rw [isFound, Option.some.injEq]
    have mem : ∀ text, text ∈ (state.uninstall game logic).classNames ↔
        text ≠ found ∧ text ∈ state.classNames := by
      intro text
      rw [classNames, exact.distinct.mem_erase_iff]
    constructor
    · intro exactThen
      -- the name that is gone has no menu any more, so it is that of the menu
      have gone : ¬∃ other ∈ state.tables.classList.erase logic,
          nameOf game other = some found := by
        rw [← left, ← exactThen.mem_iff, mem]
        exact fun present => present.1 rfl
      have isName : found = game.classText logic :=
        ((before found).mp (List.mem_of_find?_eq_some isFound)).resolve_right gone
      refine ⟨isName, fun other otherIn same => gone ⟨other, otherIn, ?_⟩⟩
      rw [same, isName]
    · rintro ⟨rfl, last⟩
      refine ⟨by rw [classNames]; exact exact.distinct.erase _, fun text => ?_⟩
      rw [mem, before, left]
      constructor
      · rintro ⟨other, same | kept⟩
        · exact absurd same other
        · exact kept
      · rintro ⟨other, otherIn, otherNamed⟩
        refine ⟨?_, .inr ⟨other, otherIn, otherNamed⟩⟩
        rintro rfl
        exact last other otherIn otherNamed
  · rw [if_neg counted] at classNames ⊢
    constructor
    · intro exactThen
      rw [← left, ← exactThen.mem_iff, classNames, before]
      exact .inl rfl
    · intro another
      refine ⟨by rw [classNames]; exact exact.distinct, fun text => ?_⟩
      rw [classNames, before, left]
      constructor
      · rintro (rfl | kept)
        · exact another
        · exact kept
      · exact .inr

/-! ## Runs of requests -/

theorem classRequest_cases {state next : MenuState Object Menu Item} {request : Menu × Bool}
    (stepped : state.classRequest game request = some next) :
    ∃ name, game.className request.1 = .name name ∧
      ((request.2 = true ∧ next = state.install game request.1) ∨
        (request.2 = false ∧ request.1 ∈ state.tables.classList ∧
          next = state.uninstall game request.1)) := by
  obtain ⟨logic, method⟩ := request
  simp only [classRequest] at stepped
  split at stepped
  · rename_i name named
    obtain ⟨valid, taken⟩ := Option.ite_none_right_eq_some.mp stepped
    obtain rfl := Option.some.inj taken
    refine ⟨name, named, ?_⟩
    cases method with
    | true => exact .inl ⟨rfl, rfl⟩
    | false =>
        refine .inr ⟨rfl, ?_, rfl⟩
        simpa [checkRequest, isInstalled, named] using valid
  · exact absurd stepped (by simp)

/-- In a run of valid requests for menus of classes, the names are those of the list in every state
exactly when every menu that is uninstalled is the last one of its name, or not, as the loop says
that counts. -/
theorem classNames_exact_iff {state : MenuState Object Menu Item}
    (noMenus : state.tables.classList = []) (noNames : state.classNames = [])
    (classes : List Menu) (requests : List (Menu × Bool)) :
    (state.loadMenuClasses game classes).NamesExact game ∧
      (Along (classRequest game) (fun _ _ after => after.NamesExact game)
          (state.loadMenuClasses game classes) requests ↔
        Along (classRequest game)
          (fun before request _ => request.2 = false → before.KeepsNames game request.1)
          (state.loadMenuClasses game classes) requests) := by
  have empty : state.NamesExact game :=
    ⟨by simp [noNames], by simp [noNames, noMenus]⟩
  have loaded := namesExact_loadMenuClasses empty classes
  have step : ∀ (before : MenuState Object Menu Item) (request : Menu × Bool)
      (after : MenuState Object Menu Item), before.NamesExact game →
      before.classRequest game request = some after →
      (after.NamesExact game ↔ (request.2 = false → before.KeepsNames game request.1)) := by
    intro before request after exact stepped
    obtain ⟨name, named, ⟨isInstall, rfl⟩ | ⟨isUninstall, member, rfl⟩⟩ :=
      classRequest_cases stepped
    · exact iff_of_true (namesExact_install exact named) (by simp [isInstall])
    · rw [namesExact_uninstall_iff exact named member]
      simp [isUninstall]
  exact ⟨loaded, along_iff_of_invariant (fun state => state.NamesExact game)
    (fun before request after exact met stepped =>
      (step before request after exact stepped).mpr met) step loaded requests⟩

instance (state : MenuState Object Menu Item) (logic : Menu) :
    Decidable (state.KeepsNames game logic) := by
  unfold KeepsNames
  infer_instance

/-- The menus of `kitMenus` for boxes of one kind, of which some are spelled with a small letter. -/
def boxMenus : Game ℕ ℕ ℕ ℕ :=
  { kitMenus with
    className := fun logic => .name (logic % 2)
    classText := fun logic => List.replicate (logic % 2) (if logic < 10 then 'I' else 'i')
    classOf_classText := by simp [kitMenus] }

/-- A third menu of a class comes and goes; then one with small letters comes in front of the only
one with capital letters, and this goes. -/
theorem classNames_exact_iff_boxes :
    Along (classRequest boxMenus) (fun _ _ after => after.NamesExact boxMenus)
      (onFoot.loadMenuClasses boxMenus [0, 2, 1])
      [(4, true), (4, false), (11, true), (1, false)] :=
  (classNames_exact_iff rfl rfl [0, 2, 1] [(4, true), (4, false), (11, true), (1, false)]).2.mpr
    (by decide)

/-- A menu is installed and uninstalled again: the name of its class stays. -/
theorem last_menu_keeps_name :
    ¬∀ (classes : List ℕ) (requests : List (ℕ × Bool)) (finish : MenuState ℕ ℕ ℕ),
      run (classRequest kitMenus) (onFoot.loadMenuClasses kitMenus classes) requests = some finish →
        finish.NamesExact kitMenus := by
  intro always
  have exact := always [] [(0, true), (0, false)] (((onFoot.loadMenuClasses kitMenus []).install
    kitMenus 0).uninstall kitMenus 0) rfl
  obtain ⟨logic, member, -⟩ := (exact.mem_iff []).mp (by decide)
  exact absurd member (List.not_mem_nil)

end MenuState

end OperationFrontLine.Menus
