import OperationFrontLine.Builds.Client

/-!
# One thing at a time

The handlers are atomic, so that the flag is taken where it is tested.  The activities release
it with their last statement.
-/

namespace OperationFrontLine.Builds

open OperationFrontLine.Library

variable {Kit Class Object : Type}

def builds (messages : List (Message Class Object)) : List Class :=
  messages.filterMap fun message =>
    match message with
    | .buildObject arguments _ => some arguments
    | .finished _ _ => none

@[simp]
theorem builds_append (first second : List (Message Class Object)) :
    builds (first ++ second) = builds first ++ builds second :=
  List.filterMap_append

@[simp]
theorem builds_object (arguments aimed : Class) :
    builds [(.buildObject arguments aimed : Message Class Object)] = [arguments] := rfl

namespace Clock

def sent : Clock Class → List Class
  | .clear arguments true => [arguments]
  | _ => []

def Agrees (arguments : Option Class) : Clock Class → Prop
  | .wait => True
  | .take | .stopped => arguments.isSome
  | .aim taken | .work taken _ _ | .report taken _ _ | .clear taken _ => arguments = some taken
  | .release => arguments = none

def releases : Clock Class → Bool
  | .release => true
  | _ => false

end Clock

namespace Client

def building (client : Client Kit Class Object) : Bool :=
  client.arguments.isSome || client.clock.releases

def activities (client : Client Kit Class Object) : ℕ :=
  client.modes.length + client.building.toNat

end Client

structure Exclusive (buildings : Kit → List Class) (client : Client Kit Class Object) : Prop where
  one : client.activities = client.busy.toNat
  clock : client.clock.Agrees client.arguments
  progress : ∀ kind person, client.inProgress kind person = true ↔
    ∃ mode ∈ client.modes, mode.kind = kind ∧ mode.person = person ∧ mode.stage ≠ .release
  shown : client.actionState = .selectBuild ↔ client.visualizer.isSome
  offered : ∀ shown ∈ client.visualizer, shown ∈ buildings client.actionsKit
  entries : ∀ entry ∈ client.menuEntries, entry.command ≠ .mainMenu ∧
    (entry.command = .selectBuild →
      ∃ selected ∈ entry.argument, selected ∈ buildings entry.kit)
  accounted : client.accepted.map Prod.snd =
    client.finished.map Prod.fst ++ client.arguments.toList
  fromMenu : ∀ given ∈ client.accepted, given.2 ∈ buildings given.1
  built : builds client.messages =
    (client.finished.filter Prod.snd).map Prod.fst ++ client.clock.sent

variable {buildings : Kit → List Class} {client : Client Kit Class Object}

theorem exclusive_start (kit : Kit) :
    Exclusive buildings (Client.start kit : Client Kit Class Object) := by
  refine ⟨rfl, trivial, ?_, ?_, ?_, ?_, rfl, ?_, rfl⟩ <;> simp [Client.start]

namespace Exclusive

theorem free (exclusive : Exclusive buildings client) (free : client.busy = false) :
    client.modes = [] ∧ client.arguments = none ∧ client.clock.releases = false := by
  have one := exclusive.one
  rw [free, Client.activities, Bool.toNat_false, Nat.add_eq_zero_iff, List.length_eq_zero_iff,
    Client.building] at one
  simpa [Bool.toNat_eq_zero] using one

theorem activities_le (exclusive : Exclusive buildings client) : client.activities ≤ 1 :=
  exclusive.one.trans_le (Bool.toNat_le _)

/-! ## The handler of a frame -/

theorem fillKit (exclusive : Exclusive buildings client) (kit : Option Kit) :
    Exclusive buildings (client.fillKit kit) where
  one := exclusive.one
  clock := exclusive.clock
  progress := exclusive.progress
  shown := by simp [Client.fillKit, Client.buildingActionMenu, Client.clearBuildingActions]
  offered := by simp [Client.fillKit, Client.buildingActionMenu, Client.clearBuildingActions]
  entries := exclusive.entries
  accounted := exclusive.accounted
  fromMenu := exclusive.fromMenu
  built := exclusive.built

theorem closeGui (exclusive : Exclusive buildings client) (alive : Bool) :
    Exclusive buildings (client.closeGui alive) := by
  rw [Client.closeGui]
  split
  · exact { exclusive.fillKit none with }
  · exact { exclusive with }

theorem foldl_fillKit (exclusive : Exclusive buildings client) (kits : List (Option Kit)) :
    Exclusive buildings (kits.foldl Client.fillKit client) := by
  induction kits generalizing client with
  | nil => exact exclusive
  | cons kit kits inductionHypothesis => exact inductionHypothesis (exclusive.fillKit kit)

theorem build (exclusive : Exclusive buildings client) : Exclusive buildings client.build := by
  rw [Client.build]
  split
  · rename_i may
    rw [Bool.and_eq_true, Bool.not_eq_true', decide_eq_true_eq] at may
    obtain ⟨free, selected⟩ := may
    obtain ⟨noModes, noArguments, noRelease⟩ := exclusive.free free
    obtain ⟨shown, isShown⟩ := Option.isSome_iff_exists.mp (exclusive.shown.mp selected)
    rw [if_pos (by rw [noArguments, Option.isNone_none])]
    refine ⟨?_, ?_, exclusive.progress, exclusive.shown, exclusive.offered, exclusive.entries, ?_,
      ?_, exclusive.built⟩
    · simp [Client.activities, Client.building, noModes, isShown]
    · have agrees := exclusive.clock
      rw [noArguments] at agrees
      cases position : client.clock <;> simp_all [Clock.Agrees, Clock.releases]
    · have accounted := exclusive.accounted
      rw [noArguments, Option.toList_none, List.append_nil] at accounted
      simp [accounted, isShown]
    · intro given member
      rcases List.mem_append.mp member with before | now
      · exact exclusive.fromMenu given before
      · rw [isShown] at now
        obtain rfl : given = (client.actionsKit, shown) := by simpa using now
        exact exclusive.offered shown isShown
  · exact exclusive

theorem cancel (exclusive : Exclusive buildings client) : Exclusive buildings client.cancel := by
  rw [Client.cancel]
  split
  · exact { exclusive with shown := by simp, offered := by simp }
  · rename_i inList
    have hidden : ¬client.visualizer.isSome := fun isShown => by
      rw [exclusive.shown.mpr isShown] at inList
      cases inList
    exact { exclusive with shown := by simpa using hidden }
  · exact exclusive

variable [DecidableEq Kit]

theorem menuQueue (exclusive : Exclusive buildings client) {entry : MenuEntry Kit Class}
    (notMain : entry.command ≠ .mainMenu)
    (offers : entry.command = .selectBuild →
      ∃ selected ∈ entry.argument, selected ∈ buildings entry.kit) :
    Exclusive buildings (client.menuQueue entry) := by
  rw [Client.menuQueue]
  split
  · rename_i sameKit
    split
    · rename_i main
      exact absurd main notMain
    · split
      · rename_i inMain
        have hidden : ¬client.visualizer.isSome := fun isShown => by
          rw [exclusive.shown.mpr isShown] at inMain
          cases inMain
        exact { exclusive with shown := by simpa using hidden }
      · exact exclusive
    · rename_i select
      split
      · obtain ⟨selected, isSelected, inMenu⟩ := offers select
        refine { exclusive with shown := ?_, offered := ?_ }
        · simp [Option.mem_def.mp isSelected]
        · intro shown isShown
          obtain rfl := Option.mem_unique isSelected isShown
          exact sameKit ▸ inMenu
      · exact exclusive
    · exact exclusive.build
    · exact exclusive.cancel
  · exact exclusive

theorem foldl_menuQueue {menu : List (MenuEntry Kit Class)}
    (exclusive : Exclusive buildings client)
    (entries : ∀ entry ∈ menu, entry.command ≠ .mainMenu ∧ (entry.command = .selectBuild →
      ∃ selected ∈ entry.argument, selected ∈ buildings entry.kit)) :
    Exclusive buildings (menu.foldl Client.menuQueue client) := by
  induction menu generalizing client with
  | nil => exact exclusive
  | cons entry menu inductionHypothesis =>
      obtain ⟨⟨notMain, offers⟩, rest⟩ := List.forall_mem_cons.mp entries
      exact inductionHypothesis (exclusive.menuQueue notMain offers) rest

theorem frame (exclusive : Exclusive buildings client) : Exclusive buildings client.frame := by
  have filled := exclusive.foldl_fillKit (client.kitEntries.take unscheduledRounds)
  have drained : Exclusive buildings
      ((client.menuEntries.take unscheduledRounds).foldl Client.menuQueue _) :=
    filled.foldl_menuQueue fun entry member =>
      exclusive.entries entry (List.mem_of_mem_take member)
  exact { drained with
    entries := fun entry member => exclusive.entries entry (List.mem_of_mem_drop member) }

omit [DecidableEq Kit] in
theorem append (exclusive : Exclusive buildings client) {entry : MenuEntry Kit Class}
    (notMain : entry.command ≠ .mainMenu)
    (offers : entry.command = .selectBuild →
      ∃ selected ∈ entry.argument, selected ∈ buildings entry.kit) :
    Exclusive buildings (client.append entry) := by
  refine { exclusive with entries := ?_ }
  intro other member
  rcases List.mem_append.mp member with before | now
  · exact exclusive.entries other before
  · obtain rfl := List.mem_singleton.mp now
    exact ⟨notMain, offers⟩

/-! ## The activities -/

variable [DecidableEq Object]

omit [DecidableEq Kit] in
theorem attempt (exclusive : Exclusive buildings client) (kind : Kind)
    (person friendUnit : Object) (allowed : Bool) :
    Exclusive buildings (client.attempt kind person friendUnit allowed) := by
  rw [Client.attempt]
  split
  · rename_i may
    simp only [Bool.and_eq_true, Bool.not_eq_true'] at may
    obtain ⟨noModes, noArguments, noRelease⟩ := exclusive.free may.1.2
    refine { exclusive with one := ?_, progress := ?_ }
    · simp [Client.activities, Client.building, noModes, noArguments, noRelease]
    · intro other someone
      have none : client.inProgress other someone = false := by
        rw [← Bool.not_eq_true, exclusive.progress, noModes]
        simp
      simp only [noModes, List.nil_append, List.mem_singleton, exists_eq_left]
      rcases eq_or_ne other kind with rfl | otherKind
      · rw [Function.update_self]
        rcases eq_or_ne someone person with rfl | otherPerson
        · rw [Function.update_self]
          simp
        · rw [Function.update_of_ne otherPerson, none]
          simp [otherPerson.symm]
      · rw [Function.update_of_ne otherKind, none]
        simp [otherKind.symm]
  · exact exclusive

omit [DecidableEq Kit] in
theorem modeStep (exclusive : Exclusive buildings client) {index : ℕ} {fail : Bool}
    {after : Client Kit Class Object} (stepped : client.modeStep index fail = some after) :
    Exclusive buildings after := by
  have most := exclusive.activities_le
  rw [Client.activities] at most
  rw [Client.modeStep] at stepped
  split at stepped
  · cases stepped
  · rename_i mode found
    obtain ⟨inside, isMode⟩ := List.getElem?_eq_some_iff.mp found
    obtain ⟨only, isOnly⟩ := List.length_eq_one_iff.mp (show client.modes.length = 1 by omega)
    obtain rfl : index = 0 := by omega
    obtain rfl : only = mode := by simpa [isOnly] using isMode
    have notBuilding : client.building = false := by
      rw [isOnly, List.length_singleton] at most
      exact Bool.toNat_eq_zero.mp (by omega)
    have one := exclusive.one
    have progress := exclusive.progress
    rw [Client.activities, isOnly, List.length_singleton] at one
    simp only [isOnly, List.mem_singleton, exists_eq_left] at progress
    split at stepped <;> rename_i stage <;> obtain rfl := Option.some.inj stepped
    · refine { exclusive with one := ?_, progress := ?_ }
      · simpa [Client.activities, Client.building, isOnly] using one
      · simpa [isOnly, stage] using progress
    · rename_i failed
      refine { exclusive with one := ?_, progress := ?_, built := ?_ }
      · simpa [Client.activities, Client.building, isOnly] using one
      · simpa [isOnly, stage] using progress
      · rw [← exclusive.built]
        cases failed <;> simp [builds]
    · refine { exclusive with one := ?_, progress := ?_ }
      · simpa [Client.activities, Client.building, isOnly] using one
      · intro kind person
        have cleared : Function.update client.inProgress only.kind
            (Function.update (client.inProgress only.kind) only.person false) kind person =
              false := by
          rcases eq_or_ne kind only.kind with rfl | otherKind
          · rw [Function.update_self]
            rcases eq_or_ne person only.person with rfl | otherPerson
            · rw [Function.update_self]
            · rw [Function.update_of_ne otherPerson, ← Bool.not_eq_true, progress]
              exact fun running => otherPerson running.2.1.symm
          · rw [Function.update_of_ne otherKind, ← Bool.not_eq_true, progress]
            exact fun running => otherKind running.1.symm
        simp [cleared, isOnly]
    · refine { exclusive with one := ?_, progress := ?_ }
      · simp [Client.activities, Client.building, isOnly] at notBuilding ⊢
        exact notBuilding
      · intro kind person
        have cleared : client.inProgress kind person = false := by
          rw [← Bool.not_eq_true, progress, stage]
          exact fun running => running.2.2 rfl
        simp [cleared, isOnly]

omit [DecidableEq Kit] [DecidableEq Object] in
theorem clockStep (exclusive : Exclusive buildings client) {buildTime : Class → ℕ} {holds : Bool}
    {after : Client Kit Class Object} (stepped : client.clockStep buildTime holds = some after) :
    Exclusive buildings after := by
  have agrees := exclusive.clock
  have built := exclusive.built
  have one := exclusive.one
  rw [Client.activities, Client.building] at one
  rw [Client.clockStep] at stepped
  split at stepped <;> rename_i position <;>
    simp only [position, Clock.Agrees, Clock.sent, Clock.releases] at agrees built one
  · split at stepped
    · rename_i given
      obtain rfl := Option.some.inj stepped
      exact { exclusive with
        one := by simpa [Client.activities, Client.building, Clock.releases] using one
        clock := given
        built := by simpa [Clock.sent] using built }
    · cases stepped
  · split at stepped
    · rename_i arguments given
      obtain rfl := Option.some.inj stepped
      exact { exclusive with
        one := by simpa [Client.activities, Client.building, Clock.releases] using one
        clock := given
        built := by simpa [Clock.sent] using built }
    · rename_i none
      rw [none] at agrees
      cases agrees
  · split at stepped <;> obtain rfl := Option.some.inj stepped
    · exact { exclusive with
        one := by simpa [Client.activities, Client.building, Clock.releases] using one
        clock := agrees
        built := by simpa [Clock.sent] using built }
    · exact { exclusive with
        one := by simpa [Client.activities, Client.building, Clock.releases] using one
        clock := by simp [Clock.Agrees, agrees]
        built := by simpa [Clock.sent] using built }
  · split at stepped <;> obtain rfl := Option.some.inj stepped <;>
      exact { exclusive with
        one := by simpa [Client.activities, Client.building, Clock.releases] using one
        clock := agrees
        built := by simpa [Clock.sent] using built }
  · split at stepped <;> obtain rfl := Option.some.inj stepped
    · exact { exclusive with
        one := by simpa [Client.activities, Client.building, Clock.releases] using one
        clock := agrees
        built := by simp [Clock.sent, built] }
    · exact { exclusive with
        one := by simpa [Client.activities, Client.building, Clock.releases] using one
        clock := agrees
        built := by simpa [Clock.sent] using built }
  · rename_i arguments wasBuilt
    obtain rfl := Option.some.inj stepped
    have accounted := exclusive.accounted
    exact { exclusive with
      one := by simpa [Client.activities, Client.building, Clock.releases, agrees] using one
      clock := rfl
      accounted := by simpa [agrees] using accounted
      built := by cases wasBuilt <;> simpa [Clock.sent] using built }
  · obtain rfl := Option.some.inj stepped
    have one := exclusive.activities_le
    exact { exclusive with
      one := by
        simp only [Client.activities, Client.building, position, Clock.releases, agrees] at one ⊢
        simp at one ⊢
        exact one
      clock := trivial
      built := by simpa [Clock.sent] using built }
  · cases stepped

theorem step [DecidableEq Class] (exclusive : Exclusive buildings client)
    {buildTime : Class → ℕ} {event : Event Kit Class Object} {after : Client Kit Class Object}
    (stepped : step buildings buildTime client event = some after) :
    Exclusive buildings after := by
  cases event with
  | frame => exact Option.some.inj stepped ▸ exclusive.frame
  | kitEntry kit | changeWeapons =>
      obtain rfl := Option.some.inj stepped
      exact { exclusive with }
  | closeGui alive => exact Option.some.inj stepped ▸ exclusive.closeGui alive
  | buildingList kit =>
      exact Option.some.inj stepped ▸ exclusive.append (by simp) (by simp)
  | buildSelectedObject kit selected =>
      rw [Builds.step] at stepped
      split at stepped
      · rename_i offers
        exact Option.some.inj stepped ▸ exclusive.append (by simp) fun _ =>
          ⟨selected, rfl, offers⟩
      · cases stepped
  | objBuild kit inSafeZone =>
      rw [Builds.step] at stepped
      split at stepped <;> obtain rfl := Option.some.inj stepped
      · exact { exclusive with }
      · exact exclusive
  | objBuildAppend index =>
      obtain ⟨kit, -, rfl⟩ := Option.map_eq_some_iff.mp stepped
      have checked : Exclusive buildings
          { client with objBuilds := client.objBuilds.eraseIdx index } := { exclusive with }
      exact checked.append (by simp) (by simp)
  | objCancel kit => exact Option.some.inj stepped ▸ exclusive.append (by simp) (by simp)
  | attempt kind person friendUnit allowed =>
      exact Option.some.inj stepped ▸ exclusive.attempt kind person friendUnit allowed
  | mode index fail => exact exclusive.modeStep stepped
  | clock holds => exact exclusive.clockStep stepped

end Exclusive

variable [DecidableEq Kit] [DecidableEq Object] [DecidableEq Class]

theorem exclusive_run {buildTime : Class → ℕ} {kit : Kit} {events : List (Event Kit Class Object)}
    (ran : run (step buildings buildTime) (Client.start kit) events = some client) :
    Exclusive buildings client :=
  run_invariant (Exclusive buildings) (fun _ _ _ exclusive stepped => exclusive.step stepped)
    (exclusive_start kit) ran

/-- In every run the player does one thing at a time: there is at most one activity, the flag
tells whether there is one, and so do the marks on the objects.  The menu shows an object of its
kit exactly while one is selected.  Each class that was accepted stood in the menu of its kit,
and is built once or given up, in the order of acceptance, before the next one is accepted. -/
theorem activities_exclusive {buildTime : Class → ℕ} {kit : Kit}
    {events : List (Event Kit Class Object)}
    (ran : run (step buildings buildTime) (Client.start kit) events = some client) :
    client.activities ≤ 1 ∧ (client.busy = true ↔ client.activities = 1) ∧
      (∀ kind person, client.inProgress kind person = true ↔
        ∃ mode ∈ client.modes, mode.kind = kind ∧ mode.person = person ∧
          mode.stage ≠ .release) ∧
      (client.actionState = .selectBuild ↔
        ∃ shown ∈ buildings client.actionsKit, client.visualizer = some shown) ∧
      (∀ given ∈ client.accepted, given.2 ∈ buildings given.1) ∧
      client.accepted.map Prod.snd = client.finished.map Prod.fst ++ client.arguments.toList ∧
      builds client.messages =
        (client.finished.filter Prod.snd).map Prod.fst ++ client.clock.sent := by
  have exclusive := exclusive_run ran
  refine ⟨exclusive.activities_le, ?_, exclusive.progress, ?_, exclusive.fromMenu,
    exclusive.accounted, exclusive.built⟩
  · rw [exclusive.one]
    cases client.busy <;> decide
  · rw [exclusive.shown, Option.isSome_iff_exists]
    constructor
    · rintro ⟨shown, isShown⟩
      exact ⟨shown, exclusive.offered shown isShown, isShown⟩
    · rintro ⟨shown, -, isShown⟩
      exact ⟨shown, isShown⟩

/-- A hut is ordered; an attempt to heal in the next frame is refused. -/
def orderEvents : List (Event Bool ℕ ℕ) :=
  [.buildingList true, .buildSelectedObject true 5, .objBuild true false, .objBuildAppend 0, .frame,
    .attempt .heal 0 1 true, .clock true]

def ordered : Client Bool ℕ ℕ :=
  (run (step (fun _ => [5, 6]) fun _ => 2) (Client.start true) orderEvents).get
    (by decide +kernel)

theorem activities_exclusive_ordered :
    ordered.arguments = some 5 ∧
      ordered.activities ≤ 1 ∧ (ordered.busy = true ↔ ordered.activities = 1) ∧
      (∀ kind person, ordered.inProgress kind person = true ↔
        ∃ mode ∈ ordered.modes, mode.kind = kind ∧ mode.person = person ∧
          mode.stage ≠ .release) ∧
      (ordered.actionState = .selectBuild ↔
        ∃ shown ∈ [5, 6], ordered.visualizer = some shown) ∧
      (∀ given ∈ ordered.accepted, given.2 ∈ [5, 6]) ∧
      ordered.accepted.map Prod.snd = ordered.finished.map Prod.fst ++ ordered.arguments.toList ∧
      builds ordered.messages =
        (ordered.finished.filter Prod.snd).map Prod.fst ++ ordered.clock.sent := by
  have ran : run (step (fun _ => [5, 6]) fun _ => 2) (Client.start true) orderEvents =
      some ordered := (Option.some_get _).symm
  exact ⟨by decide +kernel, activities_exclusive ran⟩

end OperationFrontLine.Builds
