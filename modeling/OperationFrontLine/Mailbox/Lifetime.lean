import OperationFrontLine.Mailbox.Reply

/-!
# The lifetime of sessions

The cleanup thread deletes the two hives of a session once its worker has ended.  As long
as the scripts leave a pair alone once they have committed it, under a name that no living
session uses, nobody touches a hive or a handle that is gone, none is deleted twice, and the
handles of every session that was committed are freed.
-/

namespace OperationFrontLine.Mailbox

open OperationFrontLine.Library

namespace Sessions

/-! ## Calls -/

def Open (before : Sessions) (index : Nat) : Prop :=
  ∃ session ∈ before.sessions[index]?, session.committed = false

instance (before : Sessions) (index : Nat) : Decidable (before.Open index) :=
  inferInstanceAs (Decidable (∃ session ∈ before.sessions[index]?, session.committed = false))

/-- The scripts call with pairs that are open, and a `Commit` names each once. -/
def Asks (before : Sessions) : SessionEvent → Prop
  | .publish index | .getOutput index => before.Open index
  | .commit pairs => pairs.Nodup ∧ ∀ index ∈ pairs, before.Open index
  | _ => True

instance (before : Sessions) (event : SessionEvent) : Decidable (before.Asks event) := by
  cases event <;> unfold Asks <;> infer_instance

/-- The memory of a new input handle does not hold the greatest number for `shares`. -/
def Counts : SessionEvent → Prop
  | .connect _ _ _ _ _ inputGarbage => inputGarbage + 1 ≠ 0
  | _ => True

instance (event : SessionEvent) : Decidable (Counts event) := by
  cases event <;> unfold Counts <;> infer_instance

instance (before : Sessions) (event : SessionEvent) (after : Sessions) :
    Decidable (Unshadowed before event after) :=
  match event with
  | .findReply index => inferInstanceAs (Decidable (∀ session ∈ before.sessions[index]?,
      session.outputName ≠ cleanupO ∧ session.outputName ≠ dllO ∧
      ∀ earlier ∈ before.sessions.take index, earlier.outputName = session.outputName →
        earlier.deleted = true ∧ earlier.garbage = 0))
  | .connect .. | .publish _ | .getOutput _ | .getState | .getDllState | .commit _ | .receive _
  | .sendReply _ | .quit _ | .fail _ | .sendReport _ | .exit _ | .cleanUp => .isTrue trivial

/-- What the callers and the memory are expected to do. -/
def Orderly (before : Sessions) (event : SessionEvent) (after : Sessions) : Prop :=
  before.Asks event ∧ Counts event ∧ Unshadowed before event after

instance (before : Sessions) (event : SessionEvent) (after : Sessions) :
    Decidable (Orderly before event after) :=
  inferInstanceAs (Decidable (_ ∧ _ ∧ _))

/-! ## Input handles -/

end Sessions

namespace Session

def owners (session : Session) : UInt32 :=
  (if session.deleted then 0 else 1) + if session.exited then 0 else 1

/-- What a session has in the list of input handles: nothing once both owners are gone and the
count had started at zero. -/
def inputEntry (session : Session) : Option (Nat × Text × UInt32) :=
  if session.owners = 0 ∧ session.inputGarbage = 0 then none
  else some (session.input, session.inputName, session.inputGarbage + session.owners)

theorem owners_cases (session : Session) :
    session.owners = 0 ∨ session.owners = 1 ∨ session.owners = 2 := by
  rw [owners]
  cases session.deleted <;> cases session.exited <;> simp

theorem inputEntry_of_owned {session : Session}
    (owned : session.deleted = false ∨ session.exited = false) :
    session.inputEntry =
      some (session.input, session.inputName, session.inputGarbage + session.owners) := by
  refine if_neg fun gone => absurd gone.1 ?_
  rcases owned with kept | runs
  · rw [owners, kept]
    cases session.exited <;> decide
  · rw [owners, runs]
    cases session.deleted <;> decide

theorem inputEntry_of_fewer {session changed : Session}
    (counted : session.inputGarbage + 1 ≠ 0) (input : changed.input = session.input)
    (inputName : changed.inputName = session.inputName)
    (garbage : changed.inputGarbage = session.inputGarbage)
    (fewer : session.owners = changed.owners + 1) :
    changed.inputEntry =
      if session.inputGarbage + session.owners - 1 < 1 then none
      else some (session.input, session.inputName, session.inputGarbage + session.owners - 1) := by
  have left : session.inputGarbage + session.owners - 1 =
      session.inputGarbage + changed.owners := by
    rw [fewer, ← UInt32.add_assoc, UInt32.add_sub_cancel]
  have few : changed.owners = 0 ∨ changed.owners = 1 := by
    rcases changed.owners_cases with none | one | two
    · exact .inl none
    · exact .inr one
    · rw [two] at fewer
      rcases session.owners_cases with same | same | same <;>
        exact absurd (fewer.symm.trans same) (by decide)
  have none : session.inputGarbage + changed.owners < 1 ↔
      changed.owners = 0 ∧ session.inputGarbage = 0 := by
    rw [UInt32.lt_one_iff]
    rcases few with zero | one
    · simp [zero]
    · simp [one, counted]
  rw [inputEntry, left, input, inputName, garbage]
  exact if_congr none.symm rfl rfl

end Session

namespace Sessions

/-- The list of input handles is that of the cleanup thread's and the sessions' entries, and a
copy of a hive is gone only once its worker has ended. -/
structure Shared (state : Sessions) : Prop where
  inputs : Listed state.inputs [(0, cleanupT, 2)] Session.inputEntry state.sessions
  counted : ∀ session ∈ state.sessions, session.inputGarbage + 1 ≠ 0
  exited : ∀ session ∈ state.sessions, session.exited = true → session.phase = .ended

theorem shared_start : start.Shared where
  inputs := ⟨by decide, by decide⟩
  counted := by simp [start]
  exited := by simp [start]

theorem Shared.has {state : Sessions} (shared : state.Shared) {index : Nat} {session : Session}
    (found : state.sessions[index]? = some session)
    (owned : session.deleted = false ∨ session.exited = false) :
    Has state.inputs session.input :=
  shared.inputs.has found (Session.inputEntry_of_owned owned)

/-- Each session of `sessions` that is changed keeps the two other facts. -/
theorem Shared.set {state after : Sessions} (shared : state.Shared) {index : Nat}
    {session changed : Session} (found : state.sessions[index]? = some session)
    (sessions : after.sessions = state.sessions.set index changed)
    (inputs : Listed after.inputs [(0, cleanupT, 2)] Session.inputEntry after.sessions)
    (garbage : changed.inputGarbage = session.inputGarbage)
    (exited : changed.exited = true → changed.phase = .ended) : after.Shared where
  inputs := inputs
  counted := by
    intro other member
    rw [sessions] at member
    rcases List.mem_or_eq_of_mem_set member with old | rfl
    · exact shared.counted other old
    · exact garbage ▸ shared.counted session (List.mem_of_getElem? found)
  exited := by
    intro other member
    rw [sessions] at member
    rcases List.mem_or_eq_of_mem_set member with old | rfl
    · exact shared.exited other old
    · exact exited

theorem Shared.change {state after : Sessions} (shared : state.Shared) {index : Nat}
    {session changed : Session} (found : state.sessions[index]? = some session)
    (sessions : after.sessions = state.sessions.set index changed)
    (inputs : after.inputs = state.inputs)
    (same : changed.inputEntry = session.inputEntry)
    (garbage : changed.inputGarbage = session.inputGarbage)
    (exited : changed.exited = true → changed.phase = .ended) : after.Shared :=
  shared.set found sessions (by rw [inputs, sessions]; exact shared.inputs.set found same) garbage
    exited

theorem Shared.release {state after : Sessions} (shared : state.Shared) {index : Nat}
    {session changed : Session} (found : state.sessions[index]? = some session)
    (sessions : after.sessions = state.sessions.set index changed)
    (inputs : after.inputs = releaseThread session.input state.inputs)
    (owned : session.deleted = false ∨ session.exited = false)
    (input : changed.input = session.input) (inputName : changed.inputName = session.inputName)
    (garbage : changed.inputGarbage = session.inputGarbage)
    (fewer : session.owners = changed.owners + 1) (ended : changed.phase = .ended) :
    after.Shared := by
  refine shared.set found sessions ?_ garbage fun _ => ended
  rw [inputs, sessions]
  exact shared.inputs.releaseThread found (Session.inputEntry_of_owned owned)
    (Session.inputEntry_of_fewer (shared.counted session (List.mem_of_getElem? found)) input
      inputName garbage fewer)

theorem Shared.commitPair {state committed : Sessions} (shared : state.Shared) {index : Nat}
    (result : state.commitPair index = some committed) : committed.Shared := by
  obtain ⟨session, found, -, rfl⟩ := commitPair_eq result
  exact shared.change found rfl rfl rfl rfl (shared.exited session (List.mem_of_getElem? found))

theorem Shared.runs {state : Sessions} (shared : state.Shared) {index : Nat} {session : Session}
    (found : state.sessions[index]? = some session) (running : session.phase ≠ .ended) :
    session.exited = false := by
  by_contra gone
  exact running (shared.exited session (List.mem_of_getElem? found) (by simpa using gone))

theorem Shared.step {state after : Sessions} (shared : state.Shared) {event : SessionEvent}
    (counts : Counts event) (stepped : state.step event = some after) : after.Shared := by
  cases stepped_of_step stepped with
  | connect _ unused =>
      refine ⟨?_, ?_, ?_⟩
      · rw [spawnThread_addThread unused]
        refine shared.inputs.addThread unused ?_
        rw [Session.inputEntry_of_owned (.inl rfl), UInt32.add_assoc]
        rfl
      · intro session member
        rcases List.mem_append.mp member with old | new
        · exact shared.counted session old
        · rw [List.mem_singleton.mp new]
          exact counts
      · intro session member
        rcases List.mem_append.mp member with old | new
        · exact shared.exited session old
        · rw [List.mem_singleton.mp new]
          simp
  | queues => exact ⟨shared.inputs, shared.counted, shared.exited⟩
  | commit ran =>
      have kept := run_invariant Shared (fun _ _ _ holds did => holds.commitPair did) shared ran
      exact ⟨kept.inputs, kept.counted, kept.exited⟩
  | works found running =>
      refine shared.change found rfl rfl rfl rfl fun gone => ?_
      simp [shared.runs found running] at gone
  | exit found ended runs =>
      refine shared.release found rfl rfl (.inr runs) rfl rfl rfl ?_ ended
      simp [Session.owners, runs]
  | cleanUp _ found ended kept =>
      refine shared.release found rfl rfl (.inl kept) rfl rfl rfl ?_ ended
      simp [Session.owners, kept, UInt32.add_comm]

/-! ## Commits -/

structure Marked (state : Sessions) (pairs : List Nat) (committed : Sessions) : Prop where
  hive : committed.hive = state.hive
  inputs : committed.inputs = state.inputs
  waiting : committed.pairs = state.pairs
  sessions : ∀ index, committed.sessions[index]? = state.sessions[index]?.map fun session =>
    if index ∈ pairs then { session with committed := true } else session

theorem commitPair_marked {state committed : Sessions} {index : Nat}
    (result : state.commitPair index = some committed) : Marked state [index] committed := by
  obtain ⟨session, found, -, rfl⟩ := commitPair_eq result
  refine ⟨rfl, rfl, rfl, fun other => ?_⟩
  rw [setSession, List.getElem?_set]
  by_cases same : index = other
  · subst same
    rw [if_pos rfl, if_pos (List.getElem?_eq_some_iff.mp found).1, found]
    simp
  · simp [same, Ne.symm same]

theorem foldlM_commitPair_marked {state committed : Sessions} {pairs : List Nat}
    (result : pairs.foldlM commitPair state = some committed) : Marked state pairs committed := by
  induction pairs generalizing state with
  | nil =>
      obtain rfl := Option.some.inj result
      exact ⟨rfl, rfl, rfl, fun index => by simp⟩
  | cons index pairs inductionHypothesis =>
      rw [List.foldlM_cons] at result
      obtain ⟨next, first, rest⟩ := Option.bind_eq_some_iff.mp result
      have here := commitPair_marked first
      have later := inductionHypothesis rest
      refine ⟨later.hive.trans here.hive, later.inputs.trans here.inputs,
        later.waiting.trans here.waiting, fun other => ?_⟩
      rw [later.sessions, here.sessions, Option.map_map]
      refine congrArg (Option.map · _) (funext fun session => ?_)
      simp only [Function.comp, List.mem_cons]
      by_cases head : other = index <;> by_cases tail : other ∈ pairs <;> simp [head, tail]

theorem foldlM_commitPair_isSome {state : Sessions} {pairs : List Nat}
    (alive : ∀ index ∈ pairs, ∃ session ∈ state.sessions[index]?, session.deleted = false ∧
      Has state.inputs session.input) :
    (pairs.foldlM commitPair state).isSome := by
  induction pairs generalizing state with
  | nil => rfl
  | cons index pairs inductionHypothesis =>
      obtain ⟨session, found, kept⟩ := alive index (by simp)
      obtain ⟨next, first⟩ : ∃ next, state.commitPair index = some next := by
        rw [commitPair, Option.mem_def.mp found, Option.bind_some, publishData, if_pos kept]
        exact ⟨_, rfl⟩
      have marked := commitPair_marked first
      rw [List.foldlM_cons, first]
      refine inductionHypothesis fun other member => ?_
      obtain ⟨session, found, kept⟩ := alive other (by simp [member])
      refine ⟨_, by rw [marked.sessions, Option.mem_def.mp found]; rfl, ?_⟩
      rw [marked.inputs]
      split <;> exact kept

/-! ## The invariant -/

/-- Who holds what: the pairs that wait for the cleanup thread are the sessions that were
committed and not deleted, and a worker that reports a crash does it to `CLEANUP_O`. -/
structure Tracked (state : Sessions) : Prop where
  homing : state.Homing
  reports : ∀ session ∈ state.sessions, ∀ target, session.phase = .reporting target → target = 0
  once : state.pairs.Nodup
  waiting : ∀ index ∈ state.pairs, ∃ session ∈ state.sessions[index]?, session.committed = true
  deleted : ∀ index, ∀ session ∈ state.sessions[index]?,
    session.deleted = true ↔ session.committed = true ∧ index ∉ state.pairs

theorem tracked_start : start.Tracked where
  homing := homing_start
  reports := by simp [start]
  once := List.nodup_nil
  waiting := by simp [start]
  deleted := by simp [start]

theorem Registered.first {state : Sessions} (registered : state.Registered) :
    getThreadHandle cleanupO state.hive = some 0 ∧ Has state.hive 0 ∧ Has state.hive 1 := by
  obtain ⟨cleanup, rest, split, entry, others⟩ :=
    List.map_eq_cons_iff.mp (registered.outputs.entries.trans (List.cons_append ..))
  obtain ⟨dll, later, rfl, second, -⟩ := List.map_eq_cons_iff.mp others
  obtain ⟨address, name, -⟩ : cleanup.address = 0 ∧ cleanup.threadName = cleanupO ∧
      cleanup.shares = 1 := by simpa [Handle.entry] using entry
  have dllAddress : dll.address = 1 := congrArg Prod.fst second
  rw [split]
  exact ⟨by rw [getThreadHandle, name, if_pos rfl, address], by simp [Has, address],
    by simp [Has, dllAddress]⟩

theorem Tracked.same {state after : Sessions} (tracked : state.Tracked) (homing : after.Homing)
    (sessions : after.sessions = state.sessions) (pairs : after.pairs = state.pairs) :
    after.Tracked := by
  obtain ⟨-, reports, once, waiting, deleted⟩ := tracked
  rw [← sessions, ← pairs] at *
  exact ⟨homing, reports, once, waiting, deleted⟩

theorem Tracked.change {state after : Sessions} (tracked : state.Tracked) (homing : after.Homing)
    {index : Nat} {session changed : Session} (found : state.sessions[index]? = some session)
    (sessions : after.sessions = state.sessions.set index changed)
    (pairs : after.pairs = state.pairs) (committed : changed.committed = session.committed)
    (deleted : changed.deleted = session.deleted)
    (reports : ∀ target, changed.phase = .reporting target → target = 0) : after.Tracked where
  homing := homing
  reports := by
    intro other member
    rw [sessions] at member
    rcases List.mem_or_eq_of_mem_set member with old | rfl
    · exact tracked.reports other old
    · exact reports
  once := pairs ▸ tracked.once
  waiting := by
    intro other member
    rw [pairs] at member
    obtain ⟨waits, there, isCommitted⟩ := tracked.waiting other member
    rw [sessions, List.getElem?_set]
    by_cases same : index = other
    · subst same
      obtain rfl : session = waits := Option.some.inj (found.symm.trans there)
      exact ⟨changed, by simp [(List.getElem?_eq_some_iff.mp found).1],
        committed.trans isCommitted⟩
    · exact ⟨waits, by simpa [same] using there, isCommitted⟩
  deleted := by
    intro other waits there
    rw [sessions, List.getElem?_set] at there
    rw [pairs]
    by_cases same : index = other
    · subst same
      obtain rfl : changed = waits := by
        simpa [(List.getElem?_eq_some_iff.mp found).1] using there
      rw [committed, deleted]
      exact tracked.deleted index session found
    · exact tracked.deleted other waits (by simpa [same] using there)

theorem Tracked.connect {state : Sessions} (tracked : state.Tracked) {after : Sessions}
    (homing : after.Homing) {session : Session} (connecting : session.phase = .connecting)
    (open' : session.committed = false) (kept : session.deleted = false)
    (sessions : after.sessions = state.sessions ++ [session])
    (pairs : after.pairs = state.pairs) : after.Tracked where
  homing := homing
  reports := by
    intro other member
    rw [sessions] at member
    rcases List.mem_append.mp member with old | new
    · exact tracked.reports other old
    · rw [List.mem_singleton.mp new, connecting]
      simp
  once := pairs ▸ tracked.once
  waiting := by
    intro index member
    rw [pairs] at member
    obtain ⟨waits, there, isCommitted⟩ := tracked.waiting index member
    refine ⟨waits, ?_, isCommitted⟩
    rw [sessions]
    exact List.getElem?_append_left (List.getElem?_eq_some_iff.mp there).1 ▸ there
  deleted := by
    intro index waits there
    rw [sessions] at there
    rw [pairs]
    rcases Nat.lt_or_ge index state.sessions.length with old | new
    · exact tracked.deleted index waits (List.getElem?_append_left old ▸ there)
    · rw [Option.mem_def, List.getElem?_append_right new] at there
      have isNew := List.mem_singleton.mp (List.mem_of_getElem? there)
      simp [isNew, open', kept]

theorem Tracked.commit {state committed : Sessions} (tracked : state.Tracked) {pairs : List Nat}
    (onceMore : pairs.Nodup)
    (openPairs : ∀ index ∈ pairs, state.Open index)
    (marked : Marked state pairs committed)
    (homing : Homing { committed with pairs := committed.pairs ++ pairs }) :
    Tracked { committed with pairs := committed.pairs ++ pairs } where
  homing := homing
  reports := by
    intro session member target
    obtain ⟨index, there⟩ := List.mem_iff_getElem?.mp member
    rw [marked.sessions] at there
    obtain ⟨before, found, rfl⟩ := Option.map_eq_some_iff.mp there
    have same := tracked.reports before (List.mem_of_getElem? found) target
    split <;> exact same
  once := by
    rw [marked.waiting]
    refine List.nodup_append.mpr ⟨tracked.once, onceMore, ?_⟩
    rintro index waits _ named rfl
    obtain ⟨session, found, isCommitted⟩ := tracked.waiting index waits
    obtain ⟨other, there, isOpen⟩ := openPairs index named
    obtain rfl := Option.some.inj (found.symm.trans there)
    simp [isCommitted] at isOpen
  waiting := by
    intro index member
    obtain ⟨session, found, isCommitted⟩ : ∃ session ∈ state.sessions[index]?,
        session.committed = true ∨ index ∈ pairs := by
      rw [marked.waiting] at member
      rcases List.mem_append.mp member with waits | named
      · obtain ⟨session, found, isCommitted⟩ := tracked.waiting index waits
        exact ⟨session, found, .inl isCommitted⟩
      · obtain ⟨session, found, -⟩ := openPairs index named
        exact ⟨session, found, .inr named⟩
    refine ⟨_, by rw [marked.sessions, Option.mem_def.mp found]; rfl, ?_⟩
    split
    case isTrue => rfl
    case isFalse unnamed => exact isCommitted.resolve_right unnamed
  deleted := by
    intro index session there
    rw [Option.mem_def, marked.sessions] at there
    obtain ⟨before, found, rfl⟩ := Option.map_eq_some_iff.mp there
    have same := tracked.deleted index before found
    rw [marked.waiting, List.mem_append, not_or]
    by_cases named : index ∈ pairs
    · obtain ⟨other, also, isOpen⟩ := openPairs index named
      obtain rfl := Option.some.inj (found.symm.trans also)
      simpa [named, isOpen] using same
    · simpa [named] using same

theorem Tracked.cleanUp {state : Sessions} (tracked : state.Tracked) {index : Nat}
    {pairs : List Nat} (first : state.pairs = index :: pairs) {session : Session}
    (found : state.sessions[index]? = some session) (ended : session.phase = .ended)
    {after : Sessions} (homing : after.Homing)
    (sessions : after.sessions = state.sessions.set index { session with deleted := true })
    (left : after.pairs = pairs) : after.Tracked where
  homing := homing
  reports := by
    intro other member
    rw [sessions] at member
    rcases List.mem_or_eq_of_mem_set member with old | rfl
    · exact tracked.reports other old
    · simp [ended]
  once := by
    rw [left]
    exact (List.nodup_cons.mp (first ▸ tracked.once)).2
  waiting := by
    intro other member
    rw [left] at member
    have distinct : index ≠ other := fun same =>
      (List.nodup_cons.mp (first ▸ tracked.once)).1 (same ▸ member)
    obtain ⟨waits, there, isCommitted⟩ := tracked.waiting other (by simp [first, member])
    exact ⟨waits, by rwa [sessions, List.getElem?_set_ne distinct], isCommitted⟩
  deleted := by
    intro other waits there
    rw [sessions] at there
    have once := List.nodup_cons.mp (first ▸ tracked.once)
    by_cases same : index = other
    · subst same
      obtain ⟨inList, there', isCommitted⟩ := tracked.waiting index (by simp [first])
      obtain rfl := Option.some.inj (found.symm.trans there')
      rw [Option.mem_def, List.getElem?_set_self (List.getElem?_eq_some_iff.mp found).1,
        Option.some.injEq] at there
      simp [← there, left, isCommitted, once.1]
    · rw [List.getElem?_set_ne same] at there
      rw [tracked.deleted other waits there, left, first, List.mem_cons, not_or]
      simp [Ne.symm same]

theorem Tracked.step {state after : Sessions} (tracked : state.Tracked) {event : SessionEvent}
    (orderly : Orderly state event after) (stepped : state.step event = some after) :
    after.Tracked := by
  have homing := tracked.homing.step orderly.2.2 stepped
  cases stepped_of_step stepped with
  | connect => exact tracked.connect homing rfl rfl rfl rfl rfl
  | queues => exact tracked.same homing rfl rfl
  | commit ran =>
      exact tracked.commit orderly.1.1 orderly.1.2 (foldlM_commitPair_marked ran) homing
  | works found _ _ _ reports =>
      refine tracked.change homing found rfl rfl rfl rfl fun target same => ?_
      exact Option.some.inj ((reports target same).symm.trans tracked.homing.registered.first.1)
  | exit found ended => exact tracked.change homing found rfl rfl rfl rfl (by simp [ended])
  | cleanUp first found ended => exact tracked.cleanUp first found ended homing rfl rfl

/-! ## No step is undefined -/

/-- The calls of the scripts, and the statements that come next, of every worker and of the
cleanup thread, use only hives and handles that exist. -/
structure Defined (state : Sessions) : Prop where
  publishes : ∀ index, state.Open index → (state.step (.publish index)).isSome
  outputs : ∀ index, state.Open index → (state.step (.getOutput index)).isSome
  states : (state.step .getState).isSome
  dllStates : (state.step .getDllState).isSome
  commits : ∀ pairs, state.Asks (.commit pairs) → (state.step (.commit pairs)).isSome
  receives : ∀ index, ∀ session ∈ state.sessions[index]?,
    session.phase = .connecting ∨ session.phase = .serving → (state.step (.receive index)).isSome
  looks : ∀ index, ∀ session ∈ state.sessions[index]?, session.phase = .connecting →
    (state.step (.findReply index)).isSome
  replies : ∀ index, ∀ session ∈ state.sessions[index]?, ∀ target,
    session.phase = .replying target → (state.step (.sendReply index)).isSome
  fails : ∀ index, ∀ session ∈ state.sessions[index]?,
    session.phase = .connecting ∨ session.phase = .serving → (state.step (.fail index)).isSome
  reports : ∀ index, ∀ session ∈ state.sessions[index]?, ∀ target,
    session.phase = .reporting target → (state.step (.sendReport index)).isSome
  exits : ∀ index, ∀ session ∈ state.sessions[index]?, session.phase = .ended →
    session.exited = false → (state.step (.exit index)).isSome
  cleansUp : ∀ index pairs, state.pairs = index :: pairs → ∀ session ∈ state.sessions[index]?,
    session.phase = .ended → (state.step .cleanUp).isSome

theorem Registered.getThreadHandle_isSome {state : Sessions} (registered : state.Registered)
    {index : Nat} {session : Session} (found : state.sessions[index]? = some session)
    (kept : session.deleted = false) :
    Has state.hive session.output ∧ (getThreadHandle session.outputName state.hive).isSome := by
  refine ⟨registered.outputs.has found (Session.outputEntry_of_kept kept), ?_⟩
  obtain ⟨earlier, own, later, split, entry, -, -⟩ :=
    registered.outputs.own found (Session.outputEntry_of_kept kept)
  obtain ⟨-, name, -⟩ : own.address = session.output ∧
      own.threadName = session.outputName ∧ own.shares = session.garbage + 1 := by
    simpa [Handle.entry] using entry
  rw [split]
  clear split
  induction earlier with
  | nil => simp [getThreadHandle, name]
  | cons current earlier inductionHypothesis =>
      rw [List.cons_append, getThreadHandle]
      split
      · rfl
      · exact inductionHypothesis

theorem Tracked.kept_of_open {state : Sessions} (tracked : state.Tracked) {index : Nat}
    (isOpen : state.Open index) :
    ∃ session, state.sessions[index]? = some session ∧ session.deleted = false := by
  obtain ⟨session, found, uncommitted⟩ := isOpen
  have tells := tracked.deleted index session found
  exact ⟨session, found, by simpa [uncommitted] using tells⟩

theorem Tracked.defined {state : Sessions} (tracked : state.Tracked) (shared : state.Shared) :
    state.Defined := by
  have registered := tracked.homing.registered
  have uses {target : Nat} (change : List Report → List Report) (listed : Has state.hive target) :
      (state.use target change).isSome := by
    rw [Sessions.use, if_pos listed]
    rfl
  constructor
  case publishes =>
    intro index isOpen
    obtain ⟨session, found, kept⟩ := tracked.kept_of_open isOpen
    simp [Sessions.step, publishData, found, kept, shared.has found (.inl kept)]
  case outputs =>
    intro index isOpen
    obtain ⟨session, found, kept⟩ := tracked.kept_of_open isOpen
    have listed := (registered.getThreadHandle_isSome found kept).1
    simpa [Sessions.step, found, kept] using uses List.tail listed
  case states => exact uses _ registered.first.2.1
  case dllStates => exact uses _ registered.first.2.2
  case commits =>
    rintro pairs ⟨-, openPairs⟩
    refine Option.isSome_map.trans (foldlM_commitPair_isSome fun index member => ?_)
    obtain ⟨session, found, kept⟩ := tracked.kept_of_open (openPairs index member)
    exact ⟨session, found, kept, shared.has found (.inl kept)⟩
  case receives =>
    intro index session found busy
    have runs := shared.runs found (by rcases busy with busy | busy <;> simp [busy])
    simp [Sessions.step, Option.mem_def.mp found, busy, shared.has found (.inr runs)]
  case looks =>
    intro index session found connecting
    have kept := registered.not_deleted found (by simp [connecting])
    have named := (registered.getThreadHandle_isSome found kept).2
    simp [Sessions.step, Option.mem_def.mp found, connecting, named]
  case replies =>
    intro index session found target replying
    have kept := registered.not_deleted found (by simp [replying])
    have own := tracked.homing.targets session (List.mem_of_getElem? found) target replying
    have listed := (registered.getThreadHandle_isSome found kept).1
    simp [Sessions.step, Option.mem_def.mp found, replying, send, uses _ (own ▸ listed)]
  case fails =>
    intro index session found busy
    simp [Sessions.step, Option.mem_def.mp found, busy, registered.first.1]
  case reports =>
    intro index session found target reporting
    have own := tracked.reports session (List.mem_of_getElem? found) target reporting
    have listed := registered.first.2.1
    simp [Sessions.step, Option.mem_def.mp found, reporting, send, uses _ (own ▸ listed)]
  case exits =>
    intro index session found ended runs
    simp [Sessions.step, Option.mem_def.mp found, ended, runs, shared.has found (.inr runs)]
  case cleansUp =>
    intro index pairs first session found ended
    have tells := tracked.deleted index session found
    have kept : session.deleted = false := by simpa [first] using tells
    simp [Sessions.step, first, Option.mem_def.mp found, ended, kept, shared.has found (.inl kept)]

theorem tracked_run {events : List SessionEvent} {state : Sessions}
    (orderly : Along step Orderly start events) (ran : run step start events = some state) :
    state.Tracked ∧ state.Shared :=
  run_invariant_of_along (fun state => state.Tracked ∧ state.Shared)
    (fun _ _ _ holds met stepped =>
      ⟨holds.1.step met stepped, holds.2.step met.2.1 stepped⟩)
    ⟨tracked_start, shared_start⟩ orderly ran

/-- In every orderly run of calls, workers and the cleanup thread, nobody uses a hive or a handle
that is gone, each look by name finds a handle, and no hive is deleted twice. -/
theorem sessions_defined {events : List SessionEvent} {state : Sessions}
    (orderly : Along step Orderly start events) (ran : run step start events = some state) :
    state.Defined :=
  (tracked_run orderly ran).1.defined (tracked_run orderly ran).2

/-! ## What is left -/

end Sessions

/-- The addresses in a list of handles, when a session's entry is there or not as `kept` says. -/
theorem Listed.addresses {Queue : Type} {hive : List (Handle Queue)}
    {first : List (Nat × Text × UInt32)} {entryOf : Session → Option (Nat × Text × UInt32)}
    {sessions : List Session} (listed : Listed hive first entryOf sessions)
    {kept : Session → Bool} {address : Session → Nat}
    (each : ∀ session ∈ sessions, (entryOf session).map Prod.fst =
      if kept session then some (address session) else none) :
    hive.map Handle.address =
      first.map Prod.fst ++ (sessions.filter kept).map address := by
  have split : hive.map Handle.address = (hive.map Handle.entry).map Prod.fst := by
    rw [List.map_map]
    rfl
  rw [split, listed.entries, List.map_append, List.map_filterMap]
  refine congrArg _ ?_
  clear split listed
  induction sessions with
  | nil => rfl
  | cons session sessions inductionHypothesis =>
      obtain ⟨here, others⟩ := List.forall_mem_cons.mp each
      rw [List.filterMap_cons, here, inductionHypothesis others, List.filter_cons]
      cases kept session <;> rfl

namespace Sessions

/-- The output handles in the list are those of the first call and of the sessions not deleted. -/
theorem Registered.addresses {state : Sessions} (registered : state.Registered)
    (zero : ∀ session ∈ state.sessions, session.garbage = 0) :
    state.hive.map Handle.address =
      [0, 1] ++ (state.sessions.filter fun session => !session.deleted).map Session.output :=
  registered.outputs.addresses fun session member => by
    cases gone : session.deleted <;> simp [Session.outputEntry, gone, zero session member]

/-- The input handles in the list are the cleanup thread's and those that have an owner. -/
theorem Shared.addresses {state : Sessions} (shared : state.Shared)
    (zero : ∀ session ∈ state.sessions, session.inputGarbage = 0) :
    state.inputs.map Handle.address =
      [0] ++ (state.sessions.filter fun session => !(session.deleted && session.exited)).map
        Session.input :=
  shared.inputs.addresses fun session member => by
    cases gone : session.deleted <;> cases left : session.exited <;>
      simp [Session.inputEntry, Session.owners, gone, left, zero session member]

/-- A pass of the cleanup thread over pairs whose workers have ended changes nothing of the
sessions but the flag. -/
theorem Tracked.drains {state : Sessions} (tracked : state.Tracked) (shared : state.Shared)
    (ended : ∀ index ∈ state.pairs, ∀ session ∈ state.sessions[index]?, session.phase = .ended) :
    ∃ cleaned, run Sessions.step state (List.replicate state.pairs.length .cleanUp) = some cleaned ∧
      cleaned.Tracked ∧ cleaned.Shared ∧ cleaned.pairs = [] ∧
      cleaned.sessions.map (fun session => { session with deleted := false }) =
        state.sessions.map fun session => { session with deleted := false } := by
  induction waiting : state.pairs generalizing state with
  | nil => exact ⟨state, rfl, tracked, shared, waiting, rfl⟩
  | cons index pairs inductionHypothesis =>
      obtain ⟨session, found, -⟩ := tracked.waiting index (by simp [waiting])
      have isEnded := ended index (by simp [waiting]) session found
      have tells := tracked.deleted index session found
      have kept : session.deleted = false := by simpa [waiting] using tells
      have stepped : state.step .cleanUp = some
          { hive := releaseThread session.output state.hive
            inputs := releaseThread session.input state.inputs
            sessions := state.sessions.set index { session with deleted := true }
            pairs := pairs } := by
        simp [Sessions.step, waiting, Option.mem_def.mp found, isEnded, kept,
          shared.has found (.inl kept)]
      have next := @Tracked.step _ _ tracked .cleanUp ⟨trivial, trivial, trivial⟩ stepped
      have sharedNext := @Shared.step _ _ shared .cleanUp trivial stepped
      have endedThen : ∀ other ∈ pairs, ∀ later ∈
          (state.sessions.set index { session with deleted := true })[other]?,
          later.phase = .ended := by
        intro other member later there
        have distinct : index ≠ other := fun here =>
          (List.nodup_cons.mp (waiting ▸ tracked.once)).1 (here ▸ member)
        rw [List.getElem?_set_ne distinct] at there
        exact ended other (by simp [waiting, member]) later there
      obtain ⟨cleaned, ran, trackedThen, sharedThen, none, same⟩ :=
        inductionHypothesis next sharedNext endedThen rfl
      refine ⟨cleaned, ?_, trackedThen, sharedThen, none, same.trans ?_⟩
      · rw [List.length_cons, List.replicate_succ, run_cons, stepped]
        exact ran
      · obtain ⟨inside, rfl⟩ := List.getElem?_eq_some_iff.mp found
        rw [List.map_set]
        exact List.ext_getElem (by simp) fun other _ _ => by
          by_cases here : index = other <;> simp [here]

/-- What does not read the flag is the same for sessions that differ in nothing else. -/
theorem filter_map_of_undeleted {first second : List Session}
    (same : first.map (fun session => { session with deleted := false }) =
      second.map fun session => { session with deleted := false })
    {Value : Type} (chosen : Session → Bool) (value : Session → Value)
    (blind : ∀ session : Session, chosen { session with deleted := false } = chosen session)
    (blindValue : ∀ session : Session,
      value { session with deleted := false } = value session) :
    (first.filter chosen).map value = (second.filter chosen).map value := by
  have through (sessions : List Session) : (sessions.filter chosen).map value =
      ((sessions.map fun session => { session with deleted := false }).filter chosen).map
        value := by
    simp [List.filter_map, Function.comp_def, blind, blindValue]
  rw [through, same, ← through]

/-- After every orderly run, once the workers of the waiting pairs have ended, the cleanup
thread empties its list.  The output handles left are those of the first call and of the sessions
that were not committed; the input handles left are the cleanup thread's and those of the
sessions that were not committed or whose thread is not over.  Counts are taken to start at
zero. -/
theorem sessions_freed {events : List SessionEvent} {state : Sessions}
    (orderly : Along step Orderly start events) (ran : run step start events = some state)
    (zero : ∀ session ∈ state.sessions, session.garbage = 0 ∧ session.inputGarbage = 0)
    (ended : ∀ index ∈ state.pairs, ∀ session ∈ state.sessions[index]?, session.phase = .ended) :
    ∃ cleaned, run step state (List.replicate state.pairs.length .cleanUp) = some cleaned ∧
      cleaned.pairs = [] ∧
      cleaned.hive.map Handle.address =
        [0, 1] ++ (state.sessions.filter fun session => !session.committed).map
          Session.output ∧
      cleaned.inputs.map Handle.address =
        [0] ++ (state.sessions.filter fun session => !(session.committed && session.exited)).map
          Session.input := by
  obtain ⟨tracked, shared⟩ := tracked_run orderly ran
  obtain ⟨cleaned, drained, trackedThen, sharedThen, none, same⟩ := tracked.drains shared ended
  have zeroThen : ∀ session ∈ cleaned.sessions,
      session.garbage = 0 ∧ session.inputGarbage = 0 := by
    intro session member
    have inMap := List.mem_map_of_mem (f := fun session : Session =>
      { session with deleted := false }) member
    rw [same] at inMap
    obtain ⟨before, there, equal⟩ := List.mem_map.mp inMap
    have isZero := zero before there
    have garbage : before.garbage = session.garbage := (Session.mk.inj equal).2.2.2.1
    have inputGarbage : before.inputGarbage = session.inputGarbage :=
      (Session.mk.inj equal).2.2.2.2.2.1
    rwa [garbage, inputGarbage] at isZero
  have flags : ∀ session ∈ cleaned.sessions, session.deleted = session.committed := by
    intro session member
    obtain ⟨index, there⟩ := List.mem_iff_getElem?.mp member
    have tells := trackedThen.deleted index session there
    rw [none] at tells
    cases gone : session.deleted <;> cases done : session.committed <;> simp_all
  refine ⟨cleaned, drained, none, ?_, ?_⟩
  · rw [trackedThen.homing.registered.addresses fun session member => (zeroThen session member).1,
      List.filter_congr fun session member => by rw [flags session member],
      filter_map_of_undeleted same _ _ (fun _ => rfl) fun _ => rfl]
  · rw [sharedThen.addresses fun session member => (zeroThen session member).2,
      List.filter_congr fun session member => by rw [flags session member],
      filter_map_of_undeleted same _ _ (fun _ => rfl) fun _ => rfl]

/-- Two sessions, of which the first ends by a `Commit` and the second by a dead connection. -/
def twoSessions : List SessionEvent :=
  [.connect "2".toList "1".toList 2 0 1 0, .connect "4".toList "3".toList 3 0 2 0, .receive 0,
    .findReply 0, .fail 1, .sendReply 0, .getOutput 0, .publish 0, .receive 0, .commit [0],
    .sendReport 1, .exit 1, .getState, .quit 0]

def twoSessionsLeft : Sessions :=
  { hive :=
      [⟨0, cleanupO, 1, []⟩, ⟨1, dllO, 1, []⟩, ⟨2, "1".toList, 1, []⟩, ⟨3, "3".toList, 1, []⟩]
    inputs := [⟨0, cleanupT, 2, ()⟩, ⟨1, "2".toList, 2, ()⟩, ⟨2, "4".toList, 1, ()⟩]
    sessions :=
      [⟨"2".toList, "1".toList, 2, 0, 1, 0, .ended, true, false, false⟩,
        ⟨"4".toList, "3".toList, 3, 0, 2, 0, .ended, false, false, true⟩]
    pairs := [0] }

theorem sessions_defined_two : twoSessionsLeft.Defined :=
  @sessions_defined twoSessions twoSessionsLeft (by decide +kernel) (by decide +kernel)

theorem sessions_freed_two :
    ∃ cleaned, run step twoSessionsLeft [.cleanUp] = some cleaned ∧ cleaned.pairs = [] ∧
      cleaned.hive.map Handle.address = [0, 1, 3] ∧
      cleaned.inputs.map Handle.address = [0, 1, 2] :=
  @sessions_freed twoSessions twoSessionsLeft (by decide +kernel) (by decide +kernel)
    (by decide) (by decide)

end Sessions

end OperationFrontLine.Mailbox
