import OperationFrontLine.Builds.Exclusive

/-!
# The player becomes free again

The clock takes the direction of a new object from the class that is shown when it comes to it.
If nothing is shown any more, an error stops it, and the player stays busy.
-/

namespace OperationFrontLine.Builds

open OperationFrontLine.Library

variable {Kit Class Object : Type}

namespace Clock

def aims : Clock Class → Bool
  | .wait | .take | .aim _ => true
  | _ => false

def Turned : Clock Class → Prop
  | .work arguments aimed _ | .report arguments aimed _ => arguments = aimed
  | .stopped => False
  | _ => True

end Clock

/-- While a class waits for its direction, no frame hides the object: the player neither gets
a kit nor cancels behind the order to build. -/
structure Patient (client : Client Kit Class Object) : Prop where
  kits : client.arguments.isSome → client.kitEntries = []
  cancels : client.arguments.isSome → ∀ entry ∈ client.menuEntries, entry.command ≠ .cancel
  order : client.menuEntries.Pairwise fun earlier later =>
    earlier.command = .build → later.command ≠ .cancel

instance [DecidableEq Kit] (client : Client Kit Class Object) : Decidable (Patient client) :=
  decidable_of_iff
    ((client.arguments.isSome → client.kitEntries = []) ∧
      (client.arguments.isSome → ∀ entry ∈ client.menuEntries, entry.command ≠ .cancel) ∧
      client.menuEntries.Pairwise fun earlier later =>
        earlier.command = .build → later.command ≠ .cancel)
    ⟨fun holds => ⟨holds.1, holds.2.1, holds.2.2⟩, fun patient =>
      ⟨patient.kits, patient.cancels, patient.order⟩⟩

/-- A handler that runs while a class waits for its direction hides nothing: the armory has no
other weapon to fill in either. -/
def Event.LeavesShown (client : Client Kit Class Object) : Event Kit Class Object → Prop
  | .frame => Patient client
  | .closeGui alive => client.arguments.isSome → (client.needRefill && alive) = false
  | _ => True

instance [DecidableEq Kit] (client : Client Kit Class Object) (event : Event Kit Class Object) :
    Decidable (event.LeavesShown client) := by
  cases event <;> unfold Event.LeavesShown <;> infer_instance

def Shows (client : Client Kit Class Object) : Prop :=
  ∀ arguments ∈ client.arguments, client.visualizer = some arguments

structure Steady (buildings : Kit → List Class) (client : Client Kit Class Object) : Prop where
  exclusive : Exclusive buildings client
  shows : client.clock.aims = true → Shows client
  turned : client.clock.Turned
  messages : ∀ arguments aimed, .buildObject arguments aimed ∈ client.messages → arguments = aimed

variable {buildings : Kit → List Class} {client : Client Kit Class Object}

theorem steady_start (kit : Kit) :
    Steady buildings (Client.start kit : Client Kit Class Object) :=
  ⟨exclusive_start kit, by simp [Client.start, Shows], trivial, by simp [Client.start]⟩

/-! ## The handler of a frame -/

theorem shows_build (shows : Shows client) : Shows client.build := by
  rw [Client.build]
  split
  · split
    · exact fun _ isShown => isShown
    · exact shows
  · exact shows

theorem cancel_arguments (client : Client Kit Class Object) :
    client.cancel.arguments = client.arguments := by
  rw [Client.cancel]
  split <;> rfl

theorem shows_none (none : client.arguments = none) : Shows client := fun _ given => by
  rw [none] at given
  cases given

section Menu

variable [DecidableEq Kit]

theorem Exclusive.menuQueue_shows (exclusive : Exclusive buildings client) (shows : Shows client)
    {entry : MenuEntry Kit Class}
    (stays : client.arguments.isSome → entry.command ≠ .cancel) :
    Shows (client.menuQueue entry) := by
  rw [Client.menuQueue]
  split
  · split
    · split <;> exact shows
    · split <;> exact shows
    · split
      · rename_i inList
        refine shows_none (Option.eq_none_iff_forall_ne_some.mpr fun arguments given => ?_)
        rw [exclusive.shown.mpr (Option.isSome_of_mem (shows arguments given))] at inList
        cases inList
      · exact shows
    · exact shows_build shows
    · rename_i cancels
      refine shows_none ((cancel_arguments client).trans ?_)
      by_contra some
      exact stays (Option.isSome_iff_ne_none.mpr some) cancels
  · exact shows

theorem menuQueue_arguments {entry : MenuEntry Kit Class}
    (given : (client.menuQueue entry).arguments.isSome) :
    client.arguments.isSome ∨ entry.command = .build := by
  rw [Client.menuQueue] at given
  split at given
  · split at given
    · split at given <;> exact .inl given
    · split at given <;> exact .inl given
    · split at given <;> exact .inl given
    · rename_i builds
      exact .inr builds
    · rw [cancel_arguments] at given
      exact .inl given
  · exact .inl given

theorem Exclusive.foldl_menuQueue_shows {menu : List (MenuEntry Kit Class)}
    (exclusive : Exclusive buildings client) (shows : Shows client)
    (entries : ∀ entry ∈ menu, entry.command ≠ .mainMenu ∧ (entry.command = .selectBuild →
      ∃ selected ∈ entry.argument, selected ∈ buildings entry.kit))
    (cancels : client.arguments.isSome → ∀ entry ∈ menu, entry.command ≠ .cancel)
    (order : menu.Pairwise fun earlier later =>
      earlier.command = .build → later.command ≠ .cancel) :
    Shows (menu.foldl Client.menuQueue client) := by
  induction menu generalizing client with
  | nil => exact shows
  | cons entry menu inductionHypothesis =>
      obtain ⟨⟨notMain, offers⟩, entries⟩ := List.forall_mem_cons.mp entries
      obtain ⟨behind, order⟩ := List.pairwise_cons.mp order
      refine inductionHypothesis (exclusive.menuQueue notMain offers)
        (exclusive.menuQueue_shows shows fun given => ?_) entries (fun given => ?_) order
      · exact cancels given entry List.mem_cons_self
      · rcases menuQueue_arguments given with before | builds
        · exact fun other member => cancels before other (List.mem_cons_of_mem _ member)
        · exact fun other member => behind other member builds

/-! ## What the handler leaves -/

omit [DecidableEq Kit] in
theorem foldl_keeps {Entry Field : Type}
    {handle : Client Kit Class Object → Entry → Client Kit Class Object}
    {field : Client Kit Class Object → Field}
    (keeps : ∀ client entry, field (handle client entry) = field client) (entries : List Entry)
    (client : Client Kit Class Object) : field (entries.foldl handle client) = field client := by
  induction entries generalizing client with
  | nil => rfl
  | cons entry entries inductionHypothesis =>
      rw [List.foldl_cons, inductionHypothesis, keeps]

omit [DecidableEq Kit] in
theorem fillKit_keeps (client : Client Kit Class Object) (kit : Option Kit) :
    (client.fillKit kit).arguments = client.arguments ∧
      (client.fillKit kit).clock = client.clock ∧
      (client.fillKit kit).messages = client.messages := ⟨rfl, rfl, rfl⟩

theorem menuQueue_keeps (client : Client Kit Class Object) (entry : MenuEntry Kit Class) :
    (client.menuQueue entry).clock = client.clock ∧
      (client.menuQueue entry).messages = client.messages := by
  simp only [Client.menuQueue, Client.build, Client.cancel]
  repeat' split
  all_goals exact ⟨rfl, rfl⟩

theorem frame_clock (client : Client Kit Class Object) : client.frame.clock = client.clock :=
  (foldl_keeps (fun client entry => (menuQueue_keeps client entry).1) _ _).trans
    (foldl_keeps (fun client kit => (fillKit_keeps client kit).2.1) _ _)

theorem frame_messages (client : Client Kit Class Object) :
    client.frame.messages = client.messages :=
  (foldl_keeps (fun client entry => (menuQueue_keeps client entry).2) _ _).trans
    (foldl_keeps (fun client kit => (fillKit_keeps client kit).2.2) _ _)

theorem Exclusive.frame_shows (exclusive : Exclusive buildings client) (shows : Shows client)
    (patient : Patient client) : Shows client.frame := by
  have sameArguments : ((client.kitEntries.take unscheduledRounds).foldl Client.fillKit
      client).arguments = client.arguments :=
    foldl_keeps (fun client kit => (fillKit_keeps client kit).1) _ _
  have filled := exclusive.foldl_fillKit (client.kitEntries.take unscheduledRounds)
  have showsThen : Shows ((client.kitEntries.take unscheduledRounds).foldl Client.fillKit
      client) := by
    cases given : client.arguments with
    | none => exact shows_none (sameArguments.trans given)
    | some arguments =>
        rw [patient.kits (by simp [given])]
        exact shows
  exact filled.foldl_menuQueue_shows showsThen
    (fun entry member => exclusive.entries entry (List.mem_of_mem_take member))
    (fun given entry member =>
      patient.cancels (sameArguments ▸ given) entry (List.mem_of_mem_take member))
    (patient.order.sublist (List.take_sublist _ _))

end Menu

/-! ## The clock -/

namespace Steady

theorem clockStep (steady : Steady buildings client) {buildTime : Class → ℕ} {holds : Bool}
    {after : Client Kit Class Object} (stepped : client.clockStep buildTime holds = some after) :
    Steady buildings after := by
  have exclusive := steady.exclusive.clockStep stepped
  have agrees := steady.exclusive.clock
  have shows := steady.shows
  have turned := steady.turned
  rw [Client.clockStep] at stepped
  split at stepped <;> rename_i position <;>
    simp only [position, Clock.Agrees, Clock.aims, Clock.Turned] at agrees shows turned
  · split at stepped
    · obtain rfl := Option.some.inj stepped
      exact ⟨exclusive, fun _ => shows trivial, trivial, steady.messages⟩
    · cases stepped
  · split at stepped
    · obtain rfl := Option.some.inj stepped
      exact ⟨exclusive, fun _ => shows trivial, trivial, steady.messages⟩
    · rename_i none
      rw [none] at agrees
      cases agrees
  · rename_i arguments
    have isShown : client.visualizer = some arguments := shows trivial arguments agrees
    rw [isShown] at stepped
    obtain rfl := Option.some.inj stepped
    exact ⟨exclusive, by simp [Clock.aims], rfl, steady.messages⟩
  · split at stepped <;> obtain rfl := Option.some.inj stepped <;>
      exact ⟨exclusive, by simp [Clock.aims], turned, steady.messages⟩
  · split at stepped <;> obtain rfl := Option.some.inj stepped
    · refine ⟨exclusive, by simp [Clock.aims], trivial, ?_⟩
      intro arguments aimed sent
      rcases List.mem_append.mp sent with before | now
      · exact steady.messages arguments aimed before
      · obtain ⟨rfl, rfl⟩ := Message.buildObject.inj (List.mem_singleton.mp now)
        exact turned
    · exact ⟨exclusive, by simp [Clock.aims], trivial, steady.messages⟩
  · obtain rfl := Option.some.inj stepped
    exact ⟨exclusive, by simp [Clock.aims], trivial, steady.messages⟩
  · obtain rfl := Option.some.inj stepped
    exact ⟨exclusive, fun _ => shows_none agrees, trivial, steady.messages⟩

variable [DecidableEq Kit]

theorem frame (steady : Steady buildings client)
    (patient : client.clock.aims = true → Patient client) : Steady buildings client.frame where
  exclusive := steady.exclusive.frame
  shows aims := by
    rw [frame_clock] at aims
    exact steady.exclusive.frame_shows (steady.shows aims) (patient aims)
  turned := by
    rw [frame_clock]
    exact steady.turned
  messages := by
    rw [frame_messages]
    exact steady.messages

omit [DecidableEq Kit] in
theorem closeGui (steady : Steady buildings client) {alive : Bool}
    (leaves : client.clock.aims = true → client.arguments.isSome →
      (client.needRefill && alive) = false) : Steady buildings (client.closeGui alive) := by
  have exclusive := steady.exclusive.closeGui alive
  rw [Client.closeGui] at exclusive ⊢
  split
  · rename_i refills
    rw [if_pos refills] at exclusive
    refine ⟨exclusive, fun aims => shows_none ?_, steady.turned, steady.messages⟩
    by_contra given
    simp [leaves aims (Option.isSome_iff_ne_none.mpr given)] at refills
  · rename_i leaves
    rw [if_neg leaves] at exclusive
    exact ⟨exclusive, steady.shows, steady.turned, steady.messages⟩

variable [DecidableEq Object]

omit [DecidableEq Kit] in
theorem modeStep (steady : Steady buildings client) {index : ℕ} {fail : Bool}
    {after : Client Kit Class Object} (stepped : client.modeStep index fail = some after) :
    Steady buildings after := by
  have exclusive := steady.exclusive.modeStep stepped
  rw [Client.modeStep] at stepped
  split at stepped
  · cases stepped
  · split at stepped <;> obtain rfl := Option.some.inj stepped
    · exact ⟨exclusive, steady.shows, steady.turned, steady.messages⟩
    · rename_i failed _
      refine ⟨exclusive, steady.shows, steady.turned, ?_⟩
      intro arguments aimed sent
      rcases List.mem_append.mp sent with before | now
      · exact steady.messages arguments aimed before
      · cases failed <;> simp at now
    · exact ⟨exclusive, steady.shows, steady.turned, steady.messages⟩
    · exact ⟨exclusive, steady.shows, steady.turned, steady.messages⟩

theorem step [DecidableEq Class] (steady : Steady buildings client) {buildTime : Class → ℕ}
    {event : Event Kit Class Object} {after : Client Kit Class Object}
    (leaves : client.clock.aims = true → event.LeavesShown client)
    (stepped : Builds.step buildings buildTime client event = some after) :
    Steady buildings after := by
  cases event with
  | frame => exact Option.some.inj stepped ▸ steady.frame leaves
  | closeGui alive => exact Option.some.inj stepped ▸ steady.closeGui leaves
  | mode index fail => exact steady.modeStep stepped
  | clock holds => exact steady.clockStep stepped
  | attempt kind person friendUnit allowed =>
      have exclusive := steady.exclusive.step stepped
      obtain rfl := Option.some.inj stepped
      rw [Client.attempt] at exclusive ⊢
      split
      · rename_i may
        rw [if_pos may] at exclusive
        exact ⟨exclusive, steady.shows, steady.turned, steady.messages⟩
      · exact steady
  | buildSelectedObject kit selected =>
      have exclusive := steady.exclusive.step stepped
      rw [Builds.step] at stepped
      split at stepped
      · obtain rfl := Option.some.inj stepped
        exact ⟨exclusive, steady.shows, steady.turned, steady.messages⟩
      · cases stepped
  | objBuild kit inSafeZone =>
      have exclusive := steady.exclusive.step stepped
      rw [Builds.step] at stepped
      split at stepped <;> obtain rfl := Option.some.inj stepped
      · exact ⟨exclusive, steady.shows, steady.turned, steady.messages⟩
      · exact steady
  | objBuildAppend index =>
      have exclusive := steady.exclusive.step stepped
      obtain ⟨kit, -, rfl⟩ := Option.map_eq_some_iff.mp stepped
      exact ⟨exclusive, steady.shows, steady.turned, steady.messages⟩
  | kitEntry kit | changeWeapons =>
      have exclusive := steady.exclusive.step stepped
      obtain rfl := Option.some.inj stepped
      exact ⟨exclusive, steady.shows, steady.turned, steady.messages⟩
  | buildingList kit =>
      have exclusive := steady.exclusive.step stepped
      obtain rfl := Option.some.inj stepped
      exact ⟨exclusive, steady.shows, steady.turned, steady.messages⟩
  | objCancel kit =>
      have exclusive := steady.exclusive.step stepped
      obtain rfl := Option.some.inj stepped
      exact ⟨exclusive, steady.shows, steady.turned, steady.messages⟩

end Steady

/-! ## The last statements -/

def Event.isOwn : Event Kit Class Object → Bool
  | .mode _ _ | .clock _ => true
  | _ => false

def Stage.rest : Stage → ℕ
  | .work => 4
  | .report _ => 3
  | .clear => 2
  | .release => 1

def Clock.rest : Clock Class → ℕ
  | .wait => 7
  | .take => 6
  | .aim _ => 5
  | .work _ _ _ => 4
  | .report _ _ _ => 3
  | .clear _ _ => 2
  | .release => 1
  | .stopped => 0

def Client.rest (client : Client Kit Class Object) : ℕ :=
  (client.modes.map fun mode => mode.stage.rest).sum +
    if client.building then client.clock.rest else 0

variable [DecidableEq Object]

theorem Exclusive.modeStep_rest (exclusive : Exclusive buildings client)
    (running : client.modes ≠ []) :
    ∃ after, client.modeStep 0 false = some after ∧ after.rest < client.rest := by
  have most := exclusive.activities_le
  rw [Client.activities] at most
  obtain ⟨mode, modes, isModes⟩ := List.exists_cons_of_ne_nil running
  rw [isModes, List.length_cons] at most
  have alone : modes = [] := List.length_eq_zero_iff.mp (by omega)
  have notBuilding : client.building = false := Bool.toNat_eq_zero.mp (by omega)
  rw [alone] at isModes
  rw [Client.building] at notBuilding
  obtain ⟨kind, person, friendUnit, stage⟩ := mode
  rw [Client.modeStep, isModes, List.getElem?_cons_zero]
  cases stage <;> refine ⟨_, rfl, ?_⟩ <;>
    simp [Client.rest, Client.building, notBuilding, isModes, Stage.rest]

omit [DecidableEq Object] in
/-- And so does each statement of the clock while a building is under way. -/
theorem Steady.clockStep_rest (steady : Steady buildings client) (buildTime : Class → ℕ)
    (building : client.building = true) (noModes : client.modes = []) :
    ∃ after, client.clockStep buildTime false = some after ∧ after.rest < client.rest := by
  have agrees := steady.exclusive.clock
  have shows := steady.shows
  have turned := steady.turned
  have before : client.rest = client.clock.rest := by simp [Client.rest, noModes, building]
  have most : ∀ next : Client Kit Class Object, next.modes = [] → next.rest ≤ next.clock.rest := by
    intro next none
    rw [Client.rest, none]
    split <;> simp
  rw [before]
  rw [Client.building] at building
  rw [Client.clockStep]
  cases position : client.clock <;>
    simp only [position, Clock.Agrees, Clock.aims, Clock.Turned, Clock.releases, Bool.or_false]
      at agrees shows turned building ⊢
  · exact ⟨_, if_pos building, (most _ (by exact noModes)).trans_lt (by simp [Clock.rest])⟩
  · obtain ⟨arguments, given⟩ := Option.isSome_iff_exists.mp agrees
    rw [given]
    exact ⟨_, rfl, (most _ (by exact noModes)).trans_lt (by simp [Clock.rest])⟩
  · rw [shows trivial _ agrees]
    exact ⟨_, rfl, (most _ (by exact noModes)).trans_lt (by simp [Clock.rest])⟩
  · exact ⟨_, if_neg (by simp), (most _ (by exact noModes)).trans_lt (by simp [Clock.rest])⟩
  · split <;> exact ⟨_, rfl, (most _ (by exact noModes)).trans_lt (by simp [Clock.rest])⟩
  · exact ⟨_, rfl, (most _ (by exact noModes)).trans_lt (by simp [Clock.rest])⟩
  · refine ⟨_, rfl, ?_⟩
    simp [Client.rest, Client.building, noModes, agrees, Clock.releases, Clock.rest]

variable [DecidableEq Kit] [DecidableEq Class]

theorem Steady.released (steady : Steady buildings client) (buildTime : Class → ℕ) :
    ∃ own free, (∀ event ∈ own, event.isOwn = true) ∧
      run (Builds.step buildings buildTime) client own = some free ∧ free.busy = false := by
  have nearer : ∀ client : Client Kit Class Object, Steady buildings client →
      ¬client.busy = false → ∃ event after, event.isOwn = true ∧
        Builds.step buildings buildTime client event = some after ∧
        Steady buildings after ∧ after.rest < client.rest := by
    intro client steady busy
    rw [Bool.not_eq_false] at busy
    by_cases noModes : client.modes = []
    · have building : client.building = true := by
        have one := steady.exclusive.one
        rw [Client.activities, noModes, busy] at one
        exact Bool.toNat_eq_one.mp (by simpa using one)
      obtain ⟨after, stepped, nearer⟩ := steady.clockStep_rest buildTime building noModes
      exact ⟨.clock false, after, rfl, stepped, steady.clockStep stepped, nearer⟩
    · obtain ⟨after, stepped, nearer⟩ := steady.exclusive.modeStep_rest noModes
      exact ⟨.mode 0 false, after, rfl, stepped, steady.modeStep stepped, nearer⟩
  obtain ⟨own, free, isOwn, ran, -, released⟩ := run_until (Steady buildings)
    (fun client => client.busy = false)
    (fun event : Event Kit Class Object => event.isOwn = true) Client.rest nearer steady
  exact ⟨own, free, isOwn, ran, released⟩

omit [DecidableEq Object] [DecidableEq Kit] [DecidableEq Class] in
theorem Exclusive.busy_of_stopped (exclusive : Exclusive buildings client)
    (stopped : client.clock = .stopped) : client.busy = true ∧ client.modes = [] := by
  have agrees := exclusive.clock
  have one := exclusive.one
  have most := exclusive.activities_le
  rw [stopped] at agrees
  rw [Clock.Agrees] at agrees
  have building : client.building = true := by simp [Client.building, agrees]
  rw [Client.activities, building, Bool.toNat_true] at one most
  exact ⟨Bool.toNat_eq_one.mp (le_antisymm (Bool.toNat_le _) (by omega)),
    List.length_eq_zero_iff.mp (by omega)⟩

theorem Exclusive.stopped_step (exclusive : Exclusive buildings client)
    (stopped : client.clock = .stopped) {buildTime : Class → ℕ} {event : Event Kit Class Object}
    {after : Client Kit Class Object}
    (stepped : Builds.step buildings buildTime client event = some after) :
    after.clock = .stopped ∧ after.messages = client.messages := by
  obtain ⟨busy, noModes⟩ := exclusive.busy_of_stopped stopped
  cases event with
  | frame =>
      obtain rfl := Option.some.inj stepped
      exact ⟨(frame_clock client).trans stopped, frame_messages client⟩
  | mode index fail =>
      rw [Builds.step, Client.modeStep, noModes] at stepped
      cases stepped
  | clock holds =>
      rw [Builds.step, Client.clockStep, stopped] at stepped
      cases stepped
  | attempt kind person friendUnit allowed =>
      obtain rfl := Option.some.inj stepped
      rw [Client.attempt, busy, if_neg (by simp)]
      exact ⟨stopped, rfl⟩
  | buildSelectedObject kit selected =>
      rw [Builds.step] at stepped
      split at stepped
      · obtain rfl := Option.some.inj stepped
        exact ⟨stopped, rfl⟩
      · cases stepped
  | objBuild kit inSafeZone =>
      rw [Builds.step] at stepped
      split at stepped <;> obtain rfl := Option.some.inj stepped <;> exact ⟨stopped, rfl⟩
  | objBuildAppend index =>
      obtain ⟨kit, -, rfl⟩ := Option.map_eq_some_iff.mp stepped
      exact ⟨stopped, rfl⟩
  | closeGui alive =>
      obtain rfl := Option.some.inj stepped
      rw [Client.closeGui]
      split <;> exact ⟨stopped, rfl⟩
  | kitEntry kit | changeWeapons =>
      obtain rfl := Option.some.inj stepped
      exact ⟨stopped, rfl⟩
  | buildingList kit =>
      obtain rfl := Option.some.inj stepped
      exact ⟨stopped, rfl⟩
  | objCancel kit =>
      obtain rfl := Option.some.inj stepped
      exact ⟨stopped, rfl⟩

def PatientRun (buildings : Kit → List Class) (buildTime : Class → ℕ) (kit : Kit)
    (events : List (Event Kit Class Object)) : Prop :=
  Along (Builds.step buildings buildTime)
    (fun client event _ => client.clock.aims = true → event.LeavesShown client)
    (Client.start kit) events

/-- In every run in which the player does not hide an object between the order to build it and
the moment its direction is taken, the clock never stops, every object is turned as its own class
says, and from every state the activities alone make the player free again.  Once the clock has
stopped, the player stays busy and no activity sends anything any more. -/
theorem busy_released {buildTime : Class → ℕ} {kit : Kit}
    {events : List (Event Kit Class Object)}
    (ran : run (Builds.step buildings buildTime) (Client.start kit) events = some client) :
    (PatientRun buildings buildTime kit events →
      client.clock ≠ .stopped ∧
      (∀ arguments aimed, .buildObject arguments aimed ∈ client.messages →
        arguments = aimed) ∧
      ∃ own free, (∀ event ∈ own, event.isOwn = true) ∧
        run (Builds.step buildings buildTime) client own = some free ∧ free.busy = false) ∧
    (client.clock = .stopped → ∀ later after,
      run (Builds.step buildings buildTime) client later = some after →
        after.busy = true ∧ after.messages = client.messages) := by
  constructor
  · intro patient
    have keep : ∀ (before : Client Kit Class Object) event after, Steady buildings before →
        (before.clock.aims = true → event.LeavesShown before) →
        Builds.step buildings buildTime before event = some after → Steady buildings after :=
      fun _ _ _ steady leaves stepped => steady.step leaves stepped
    have steady : Steady buildings client :=
      run_invariant_of_along (Steady buildings) keep (steady_start kit) patient ran
    refine ⟨fun stopped => ?_, steady.messages, steady.released buildTime⟩
    have turned := steady.turned
    rw [stopped] at turned
    exact turned
  · intro stopped later after ranOn
    obtain ⟨exclusive, stoppedThen, same⟩ := run_invariant
      (fun state : Client Kit Class Object => Exclusive buildings state ∧
        state.clock = .stopped ∧ state.messages = client.messages)
      (fun _ _ _ holds stepped => ⟨holds.1.step stepped,
        (holds.1.stopped_step holds.2.1 stepped).1,
        (holds.1.stopped_step holds.2.1 stepped).2.trans holds.2.2⟩)
      ⟨exclusive_run ran, stopped, rfl⟩ ranOn
    exact ⟨(exclusive.busy_of_stopped stoppedThen).1, same⟩

/-- A hut is ordered, and built in two seconds; an attempt to repair in between is refused, and
a weapon changed once the direction is taken. -/
def hutEvents : List (Event Bool ℕ ℕ) :=
  [.buildingList true, .frame, .buildSelectedObject true 5, .frame, .objBuild true false,
    .objBuildAppend 0, .frame, .clock true, .clock true, .attempt .repair 0 1 true, .clock true,
    .changeWeapons, .closeGui true, .clock true, .objCancel true, .frame, .clock true, .clock true,
    .clock true]

def withHut : Client Bool ℕ ℕ :=
  (run (Builds.step (fun _ => [5, 6]) fun _ => 2) (Client.start true) hutEvents).get
    (by decide +kernel)

theorem busy_released_hut :
    withHut.messages = [.buildObject 5 5] ∧ withHut.clock ≠ .stopped := by
  have ran : run (Builds.step (fun _ => [5, 6]) fun _ => 2) (Client.start true) hutEvents =
      some withHut := (Option.some_get _).symm
  exact ⟨by decide +kernel, ((busy_released ran).1 (by
    rw [PatientRun]
    decide +kernel)).1⟩

/-- A player who cancels before the clock comes to the direction stays busy. -/
example : (run (Builds.step (fun _ => [5, 6]) fun _ => 2) (Client.start true : Client Bool ℕ ℕ)
    [.buildingList true, .buildSelectedObject true 5, .objBuild true false, .objBuildAppend 0,
      .frame, .clock true, .objCancel true, .frame, .clock true, .clock true]).map
      (fun client => (client.clock, client.busy)) = some (.stopped, true) := by
  decide +kernel

end OperationFrontLine.Builds
