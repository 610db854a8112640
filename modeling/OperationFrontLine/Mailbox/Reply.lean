import OperationFrontLine.Mailbox.Session

/-!
# Which session a reply reaches

The list holds the two handles of the first call, then those of the sessions in
order of their `Connect` calls, except those that were deleted.  So a reply finds
its own handle exactly when no earlier one still has the same name.
-/

namespace OperationFrontLine.Mailbox

open OperationFrontLine.Library

/-! ## The list of handles -/

section Hive

variable {Queue : Type}

def Handle.entry (handle : Handle Queue) : Nat × Text × UInt32 :=
  (handle.address, handle.threadName, handle.shares)

/-- The lookup stops at a handle exactly when none before it has its name. -/
theorem getThreadHandle_eq_own_iff {earlier later : List (Handle Queue)} {own : Handle Queue}
    (distinct : ((earlier ++ own :: later).map Handle.address).Nodup) :
    getThreadHandle own.threadName (earlier ++ own :: later) = some own.address ↔
      ∀ handle ∈ earlier, handle.threadName ≠ own.threadName := by
  induction earlier with
  | nil => simp [getThreadHandle]
  | cons current earlier inductionHypothesis =>
      simp only [List.cons_append, List.map_cons, List.nodup_cons] at distinct
      have other : current.address ≠ own.address := fun same =>
        distinct.1 (same ▸ List.mem_map_of_mem (by simp))
      rw [List.cons_append, getThreadHandle]
      by_cases named : own.threadName = current.threadName
      · simp [named, other]
      · rw [if_neg named, inductionHypothesis distinct.2]
        simp [Ne.symm named]

theorem releaseThread_split {earlier later : List (Handle Queue)} {own : Handle Queue}
    (absent : own.address ∉ earlier.map Handle.address) :
    releaseThread own.address (earlier ++ own :: later) =
      earlier ++ (if own.shares - 1 < 1 then [] else [{ own with shares := own.shares - 1 }]) ++
        later := by
  induction earlier with
  | nil =>
      simp only [List.nil_append, releaseThread, if_true]
      split <;> rfl
  | cons current earlier inductionHypothesis =>
      simp only [List.map_cons, List.mem_cons, not_or] at absent
      rw [List.cons_append, releaseThread, if_neg (Ne.symm absent.1),
        inductionHypothesis absent.2, List.cons_append, List.cons_append]

@[simp]
theorem entry_onQueue (target : Nat) (change : Queue → Queue) (hive : List (Handle Queue)) :
    (onQueue target change hive).map Handle.entry = hive.map Handle.entry := by
  rw [onQueue, List.map_map]
  refine List.map_congr_left fun handle _ => ?_
  simp only [Function.comp]
  split <;> rfl

theorem find_onQueue (target : Nat) (change : Queue → Queue) (hive : List (Handle Queue))
    (address : Nat) :
    (onQueue target change hive).find? (fun handle => handle.address = address) =
      (hive.find? fun handle => handle.address = address).map fun handle =>
        if handle.address = target then
          { handle with msgQueue := change handle.msgQueue }
        else
          handle := by
  rw [onQueue, List.find?_map]
  have same : ((fun handle : Handle Queue => decide (handle.address = address)) ∘ fun handle =>
      if handle.address = target then
        { handle with msgQueue := change handle.msgQueue }
      else
        handle) = fun handle => decide (handle.address = address) := by
    funext handle
    simp only [Function.comp]
    split <;> rfl
  rw [same]

theorem addresses_of_entries {hive other : List (Handle Queue)}
    (same : hive.map Handle.entry = other.map Handle.entry) :
    hive.map Handle.address = other.map Handle.address := by
  have firsts := congrArg (List.map Prod.fst) same
  simpa [List.map_map, Function.comp_def, Handle.entry] using firsts

theorem spawnThread_addThread {hive : List (Handle Queue)} {address : Nat}
    (fresh : ¬Has hive address) (threadName : Text) (garbage : UInt32) (empty : Queue) :
    spawnThread address (addThread hive address threadName garbage empty) =
      addThread hive address threadName (garbage + 1) empty := by
  have kept : spawnThread address hive = hive := by
    refine (List.map_congr_left fun handle member => if_neg fun same => fresh ?_).trans
      (List.map_id' hive)
    exact same ▸ List.mem_map_of_mem member
  rw [spawnThread] at kept
  rw [addThread, addThread, spawnThread, List.map_append, kept]
  simp

end Hive

/-! ## The handles of the sessions -/

theorem sessions_split {sessions : List Session} {index : Nat} {session : Session}
    (found : sessions[index]? = some session) :
    sessions = sessions.take index ++ session :: sessions.drop (index + 1) := by
  obtain ⟨inside, rfl⟩ := List.getElem?_eq_some_iff.mp found
  rw [List.getElem_cons_drop, List.take_append_drop]

theorem set_split {sessions : List Session} {index : Nat} {session changed : Session}
    (found : sessions[index]? = some session) :
    sessions.set index changed =
      sessions.take index ++ changed :: sessions.drop (index + 1) := by
  obtain ⟨inside, -⟩ := List.getElem?_eq_some_iff.mp found
  rw [List.set_eq_take_append_cons_drop, if_pos inside]

/-- A list of handles: those of the first call, then what each session has in it, in order, at
different addresses. -/
structure Listed {Queue : Type} (hive : List (Handle Queue)) (first : List (Nat × Text × UInt32))
    (entryOf : Session → Option (Nat × Text × UInt32)) (sessions : List Session) : Prop where
  entries : hive.map Handle.entry = first ++ sessions.filterMap entryOf
  distinct : (hive.map Handle.address).Nodup

namespace Listed

variable {Queue : Type} {hive : List (Handle Queue)} {first : List (Nat × Text × UInt32)}
  {entryOf : Session → Option (Nat × Text × UInt32)} {sessions : List Session}

theorem own (listed : Listed hive first entryOf sessions) {index : Nat} {session : Session}
    (found : sessions[index]? = some session) {entry : Nat × Text × UInt32}
    (has : entryOf session = some entry) :
    ∃ earlier own later, hive = earlier ++ own :: later ∧ own.entry = entry ∧
      earlier.map Handle.entry = first ++ (sessions.take index).filterMap entryOf ∧
      later.map Handle.entry = (sessions.drop (index + 1)).filterMap entryOf := by
  have entries := listed.entries
  rw [sessions_split found, List.filterMap_append, ← List.append_assoc] at entries
  obtain ⟨earlier, rest, split, before, after⟩ := List.map_eq_append_iff.mp entries
  rw [List.filterMap_cons_some has] at after
  obtain ⟨own, later, rfl, here, others⟩ := List.map_eq_cons_iff.mp after
  exact ⟨earlier, own, later, split, here, before, others⟩

theorem has (listed : Listed hive first entryOf sessions) {index : Nat} {session : Session}
    (found : sessions[index]? = some session) {address : Nat} {name : Text} {shares : UInt32}
    (has : entryOf session = some (address, name, shares)) : Has hive address := by
  obtain ⟨earlier, own, later, split, entry, -, -⟩ := listed.own found has
  have same : own.address = address := congrArg Prod.fst entry
  simp [Has, split, ← same]

theorem of_entries (listed : Listed hive first entryOf sessions) {other : List (Handle Queue)}
    (same : other.map Handle.entry = hive.map Handle.entry) :
    Listed other first entryOf sessions :=
  ⟨same.trans listed.entries, addresses_of_entries same ▸ listed.distinct⟩

theorem set (listed : Listed hive first entryOf sessions) {index : Nat} {session changed : Session}
    (found : sessions[index]? = some session) (same : entryOf changed = entryOf session) :
    Listed hive first entryOf (sessions.set index changed) where
  entries := by
    have entries := listed.entries
    rw [sessions_split found] at entries
    rw [set_split found, entries]
    simp [List.filterMap_cons, same]
  distinct := listed.distinct

theorem addThread (listed : Listed hive first entryOf sessions) {address : Nat}
    (fresh : ¬Has hive address) {name : Text} {garbage : UInt32} {empty : Queue}
    {session : Session} (has : entryOf session = some (address, name, garbage + 1)) :
    Listed (Mailbox.addThread hive address name garbage empty) first entryOf
      (sessions ++ [session]) where
  entries := by
    rw [Mailbox.addThread, List.map_append, listed.entries, List.filterMap_append,
      List.filterMap_cons_some has, List.append_assoc]
    rfl
  distinct := by
    rw [Mailbox.addThread, List.map_append]
    refine List.nodup_append.mpr ⟨listed.distinct, List.nodup_singleton _, ?_⟩
    intro other member last new same
    rw [List.map_singleton, List.mem_singleton] at new
    rw [same, new] at member
    exact fresh member

theorem releaseThread (listed : Listed hive first entryOf sessions) {index : Nat}
    {session changed : Session} (found : sessions[index]? = some session)
    {address : Nat} {name : Text} {shares : UInt32}
    (has : entryOf session = some (address, name, shares))
    (left : entryOf changed = if shares - 1 < 1 then none else some (address, name, shares - 1)) :
    Listed (Mailbox.releaseThread address hive) first entryOf (sessions.set index changed) := by
  obtain ⟨earlier, own, later, rfl, entry, before, after⟩ := listed.own found has
  obtain ⟨rfl, named, shared⟩ : own.address = address ∧ own.threadName = name ∧
      own.shares = shares := by simpa [Handle.entry] using entry
  have distinct := listed.distinct
  rw [List.map_append, List.map_cons] at distinct
  have absent : own.address ∉ earlier.map Handle.address := fun member =>
    (List.nodup_append.mp distinct).2.2 _ member _ (by simp) rfl
  rw [releaseThread_split absent, shared]
  split
  case isTrue last =>
    rw [if_pos last] at left
    refine ⟨?_, ?_⟩
    · simp [set_split found, List.filterMap_append, before, after, List.filterMap_cons_none left]
    · rw [List.append_nil, List.map_append]
      exact distinct.sublist (List.Sublist.append_left (List.sublist_cons_self _ _) _)
  case isFalse more =>
    rw [if_neg more] at left
    refine ⟨?_, ?_⟩
    · simp [set_split found, List.filterMap_append, before, after, List.filterMap_cons_some left,
        Handle.entry, named]
    · simpa using distinct

end Listed

/-! ## The invariant -/

/-- What a session has in the list of output handles: nothing once its handle was freed, which
takes a delete and a count that started at zero. -/
def Session.outputEntry (session : Session) : Option (Nat × Text × UInt32) :=
  if session.deleted then
    if session.garbage = 0 then none else some (session.output, session.outputName, session.garbage)
  else
    some (session.output, session.outputName, session.garbage + 1)

theorem Session.outputEntry_of_kept {session : Session} (kept : session.deleted = false) :
    session.outputEntry = some (session.output, session.outputName, session.garbage + 1) := by
  simp [Session.outputEntry, kept]

namespace Sessions

/-- The list of output handles is that of the first call's handles and the sessions' entries, and
only an ended session was deleted. -/
structure Registered (state : Sessions) : Prop where
  outputs : Listed state.hive [(0, cleanupO, 1), (1, dllO, 1)] Session.outputEntry state.sessions
  alive : ∀ session ∈ state.sessions, session.deleted = true → session.phase = .ended

theorem registered_start : start.Registered where
  outputs := ⟨by decide, by decide⟩
  alive := by simp [start]

theorem Registered.not_deleted {state : Sessions} (registered : state.Registered) {index : Nat}
    {session : Session} (found : state.sessions[index]? = some session)
    (running : session.phase ≠ .ended) : session.deleted = false := by
  by_contra deleted
  exact running (registered.alive session (List.mem_of_getElem? found) (by simpa using deleted))

theorem Registered.change {state : Sessions} (registered : state.Registered) {index : Nat}
    {session changed : Session} (found : state.sessions[index]? = some session)
    (sameEntry : changed.outputEntry = session.outputEntry)
    (alive : changed.deleted = true → changed.phase = .ended) :
    (state.setSession index changed).Registered where
  outputs := registered.outputs.set found sameEntry
  alive := by
    intro other member
    rcases List.mem_or_eq_of_mem_set member with old | rfl
    · exact registered.alive other old
    · exact alive

theorem use_eq {state used : Sessions} {target : Nat} {change : List Report → List Report}
    (result : state.use target change = some used) :
    used = { state with hive := onQueue target change state.hive } := by
  obtain ⟨-, same⟩ := Option.ite_none_right_eq_some.mp result
  exact (Option.some.inj same).symm

theorem publishData_eq {state sent : Sessions} {session : Session}
    (result : state.publishData session = some sent) :
    sent = state ∧ session.deleted = false ∧ Has state.inputs session.input := by
  obtain ⟨open', same⟩ := Option.ite_none_right_eq_some.mp result
  exact ⟨(Option.some.inj same).symm, open'⟩

theorem commitPair_eq {state committed : Sessions} {index : Nat}
    (result : state.commitPair index = some committed) :
    ∃ session, state.sessions[index]? = some session ∧ session.deleted = false ∧
      committed = state.setSession index { session with committed := true } := by
  obtain ⟨session, found, rest⟩ := Option.bind_eq_some_iff.mp result
  obtain ⟨sent, published, rfl⟩ := Option.map_eq_some_iff.mp rest
  obtain ⟨rfl, kept, -⟩ := publishData_eq published
  exact ⟨session, found, kept, rfl⟩

theorem Registered.commitPair {state committed : Sessions} (registered : state.Registered)
    {index : Nat} (result : state.commitPair index = some committed) :
    committed.Registered := by
  obtain ⟨session, found, kept, rfl⟩ := commitPair_eq result
  exact registered.change found rfl fun deleted => by simp [kept] at deleted

/-- Deleting an ended session's handle drops its entry or leaves it for good. -/
theorem Registered.cleanUp {state : Sessions} (registered : state.Registered) {index : Nat}
    {session : Session} {inputs : List (Handle Unit)} {pairs : List Nat}
    (found : state.sessions[index]? = some session)
    (ended : session.phase = .ended) (kept : session.deleted = false) :
    Registered
      { hive := releaseThread session.output state.hive
        inputs := inputs
        sessions := state.sessions.set index { session with deleted := true }
        pairs := pairs } where
  outputs := by
    refine registered.outputs.releaseThread found (Session.outputEntry_of_kept kept) ?_
    have freed : session.garbage < 1 ↔ session.garbage = 0 := by
      rw [UInt32.lt_iff_toNat_lt, ← UInt32.toNat_inj]
      simp
    simp [Session.outputEntry, freed]
  alive := by
    intro other member
    rcases List.mem_or_eq_of_mem_set member with old | rfl
    · exact registered.alive other old
    · exact fun _ => ended

/-- What a step does.  A call or a receive changes no more than queues; a worker goes on, with a
handle that it has looked up. -/
inductive Stepped (state : Sessions) : SessionEvent → Sessions → Prop
  | connect {inputName outputName : Text} {address : Nat} {garbage : UInt32} {input : Nat}
      {inputGarbage : UInt32} (fresh : ¬Has state.hive address)
      (unused : ¬Has state.inputs input) :
      Stepped state (.connect inputName outputName address garbage input inputGarbage)
        { state with
          hive := addThread state.hive address outputName garbage []
          inputs := spawnThread input (addThread state.inputs input inputName inputGarbage ())
          sessions := state.sessions ++
            [{ inputName, outputName, output := address, garbage, input, inputGarbage,
               phase := .connecting, committed := false, deleted := false, exited := false }] }
  | queues {event : SessionEvent} {hive : List (Handle (List Report))}
      (entries : hive.map Handle.entry = state.hive.map Handle.entry) :
      Stepped state event { state with hive := hive }
  | commit {pairs : List Nat} {committed : Sessions}
      (ran : pairs.foldlM commitPair state = some committed) :
      Stepped state (.commit pairs) { committed with pairs := committed.pairs ++ pairs }
  | works {event : SessionEvent} {index : Nat} {session : Session}
      {hive : List (Handle (List Report))} {phase : Phase}
      (found : state.sessions[index]? = some session) (running : session.phase ≠ .ended)
      (entries : hive.map Handle.entry = state.hive.map Handle.entry)
      (replies : ∀ target, phase = .replying target → event = .findReply index ∧
        getThreadHandle session.outputName state.hive = some target)
      (reports : ∀ target, phase = .reporting target →
        getThreadHandle cleanupO state.hive = some target) :
      Stepped state event
        { state with
          hive := hive
          sessions := state.sessions.set index { session with phase := phase } }
  | exit {index : Nat} {session : Session} (found : state.sessions[index]? = some session)
      (ended : session.phase = .ended) (runs : session.exited = false) :
      Stepped state (.exit index)
        { state with
          inputs := releaseThread session.input state.inputs
          sessions := state.sessions.set index { session with exited := true } }
  | cleanUp {index : Nat} {pairs : List Nat} {session : Session}
      (first : state.pairs = index :: pairs) (found : state.sessions[index]? = some session)
      (ended : session.phase = .ended) (kept : session.deleted = false) :
      Stepped state .cleanUp
        { hive := releaseThread session.output state.hive
          inputs := releaseThread session.input state.inputs
          sessions := state.sessions.set index { session with deleted := true }
          pairs := pairs }

theorem stepped_of_step {state after : Sessions} {event : SessionEvent}
    (stepped : state.step event = some after) : Stepped state event after := by
  have busy {session : Session} (busy : session.phase = .connecting ∨ session.phase = .serving) :
      session.phase ≠ .ended := by
    rcases busy with connecting | serving
    · simp [connecting]
    · simp [serving]
  cases event with
  | connect inputName outputName address garbage input inputGarbage =>
      obtain ⟨free, same⟩ := Option.ite_none_left_eq_some.mp stepped
      obtain rfl := Option.some.inj same
      exact .connect (fun held => free (.inl held)) fun held => free (.inr held)
  | publish index =>
      obtain ⟨session, -, sent⟩ := Option.bind_eq_some_iff.mp stepped
      obtain ⟨rfl, -⟩ := publishData_eq sent
      exact .queues rfl
  | getOutput index =>
      obtain ⟨session, -, rest⟩ := Option.bind_eq_some_iff.mp stepped
      obtain ⟨-, used⟩ := Option.ite_none_left_eq_some.mp rest
      obtain rfl := use_eq used
      exact .queues (entry_onQueue ..)
  | getState | getDllState =>
      obtain rfl := use_eq stepped
      exact .queues (entry_onQueue ..)
  | commit pairs =>
      obtain ⟨committed, ran, rfl⟩ := Option.map_eq_some_iff.mp stepped
      exact .commit ran
  | receive index =>
      obtain ⟨session, -, rest⟩ := Option.bind_eq_some_iff.mp stepped
      obtain ⟨-, same⟩ := Option.ite_none_right_eq_some.mp rest
      obtain rfl := Option.some.inj same
      exact .queues rfl
  | findReply index =>
      obtain ⟨session, found, rest⟩ := Option.bind_eq_some_iff.mp stepped
      obtain ⟨connecting, rest⟩ := Option.ite_none_right_eq_some.mp rest
      obtain ⟨target, looked, rfl⟩ := Option.map_eq_some_iff.mp rest
      refine .works found (busy (.inl connecting)) rfl (fun other same => ?_) (by simp)
      obtain rfl := Phase.replying.inj same
      exact ⟨rfl, looked⟩
  | sendReply index =>
      obtain ⟨session, found, rest⟩ := Option.bind_eq_some_iff.mp stepped
      split at rest
      case h_2 => cases rest
      case h_1 target replying =>
        obtain ⟨sent, did, rfl⟩ := Option.map_eq_some_iff.mp rest
        obtain rfl := use_eq did
        exact .works found (by simp [replying]) (by simp) (by simp) (by simp)
  | quit index =>
      obtain ⟨session, found, rest⟩ := Option.bind_eq_some_iff.mp stepped
      obtain ⟨⟨-, waits⟩, same⟩ := Option.ite_none_right_eq_some.mp rest
      obtain rfl := Option.some.inj same
      exact .works found (busy waits) rfl (by simp) (by simp)
  | fail index =>
      obtain ⟨session, found, rest⟩ := Option.bind_eq_some_iff.mp stepped
      obtain ⟨waits, rest⟩ := Option.ite_none_right_eq_some.mp rest
      obtain ⟨target, looked, rfl⟩ := Option.map_eq_some_iff.mp rest
      refine .works found (busy waits) rfl (by simp) fun other same => ?_
      obtain rfl := Phase.reporting.inj same
      exact looked
  | sendReport index =>
      obtain ⟨session, found, rest⟩ := Option.bind_eq_some_iff.mp stepped
      split at rest
      case h_2 => cases rest
      case h_1 target reporting =>
        obtain ⟨sent, did, rfl⟩ := Option.map_eq_some_iff.mp rest
        obtain rfl := use_eq did
        exact .works found (by simp [reporting]) (by simp) (by simp) (by simp)
  | exit index =>
      obtain ⟨session, found, rest⟩ := Option.bind_eq_some_iff.mp stepped
      obtain ⟨⟨ended, runs, -⟩, same⟩ := Option.ite_none_right_eq_some.mp rest
      obtain rfl := Option.some.inj same
      exact .exit found ended runs
  | cleanUp =>
      simp only [Sessions.step] at stepped
      split at stepped
      case h_1 => cases stepped
      case h_2 index pairs first =>
        obtain ⟨session, found, rest⟩ := Option.bind_eq_some_iff.mp stepped
        obtain ⟨⟨ended, kept, -⟩, same⟩ := Option.ite_none_right_eq_some.mp rest
        obtain rfl := Option.some.inj same
        exact .cleanUp first found ended kept

theorem Registered.step {state after : Sessions} (registered : state.Registered)
    {event : SessionEvent} (stepped : state.step event = some after) : after.Registered := by
  cases stepped_of_step stepped with
  | connect fresh =>
      refine ⟨registered.outputs.addThread fresh rfl, ?_⟩
      intro session member
      rcases List.mem_append.mp member with old | new
      · exact registered.alive session old
      · rw [List.mem_singleton.mp new]
        simp
  | queues entries => exact ⟨registered.outputs.of_entries entries, registered.alive⟩
  | commit ran =>
      have kept := run_invariant Registered (fun _ _ _ holds did => holds.commitPair did)
        registered ran
      exact ⟨kept.outputs, kept.alive⟩
  | @works _ index session _ phase found running entries =>
      have changed : (state.setSession index { session with phase := phase }).Registered :=
        registered.change found rfl fun deleted =>
          absurd (registered.alive session (List.mem_of_getElem? found) deleted) running
      exact ⟨changed.outputs.of_entries entries, changed.alive⟩
  | @exit index session found ended =>
      have changed : (state.setSession index { session with exited := true }).Registered :=
        registered.change found rfl fun _ => ended
      exact ⟨changed.outputs, changed.alive⟩
  | cleanUp _ found ended kept => exact registered.cleanUp found ended kept

/-! ## The handle that a reply finds -/

/-- A reply goes home: the worker finds its own session's handle, and the account
is put into the queue of that handle and of no other. -/
def GoesHome (before : Sessions) : SessionEvent → Sessions → Prop
  | .findReply index, after => ∀ session, before.sessions[index]? = some session →
      after.sessions[index]? = some { session with phase := .replying session.output }
  | .sendReply index, after => ∀ session, before.sessions[index]? = some session →
      ∀ address, after.queue address = before.queue address ++
        if address = session.output then [.account index] else []
  | _, _ => True

/-- When a worker looks for its handle, the name is not one of the first call's,
and of the earlier sessions with the same name none still has a handle: each was
deleted, and its count had started at zero. -/
def Unshadowed (before : Sessions) : SessionEvent → Sessions → Prop
  | .findReply index, _ => ∀ session, before.sessions[index]? = some session →
      session.outputName ≠ cleanupO ∧ session.outputName ≠ dllO ∧
      ∀ earlier ∈ before.sessions.take index, earlier.outputName = session.outputName →
        earlier.deleted = true ∧ earlier.garbage = 0
  | _, _ => True

theorem shadow_iff {Queue : Type} {hive : List (Handle Queue)} {sessions : List Session}
    (name : Text) (listed : hive.map Handle.entry =
      [(0, cleanupO, 1), (1, dllO, 1)] ++ sessions.filterMap Session.outputEntry) :
    (∀ handle ∈ hive, handle.threadName ≠ name) ↔
      name ≠ cleanupO ∧ name ≠ dllO ∧
        ∀ earlier ∈ sessions, earlier.outputName = name →
          earlier.deleted = true ∧ earlier.garbage = 0 := by
  have names : (∀ handle ∈ hive, handle.threadName ≠ name) ↔
      ∀ entry ∈ hive.map Handle.entry, entry.2.1 ≠ name := by
    simp [Handle.entry]
  have freed (session : Session) : (∀ entry, session.outputEntry = some entry → entry.2.1 ≠ name) ↔
      (session.outputName = name → session.deleted = true ∧ session.garbage = 0) := by
    unfold Session.outputEntry
    split
    case isTrue deleted =>
      split
      case isTrue zero => simp [deleted, zero]
      case isFalse nonzero => simp [deleted, nonzero]
    case isFalse kept => simp [kept]
  rw [names, listed, List.forall_mem_append, List.forall_mem_cons, List.forall_mem_singleton,
    and_assoc]
  refine and_congr ne_comm (and_congr ne_comm ?_)
  constructor
  · intro clear earlier member
    refine (freed earlier).mp fun entry same => clear entry ?_
    exact List.mem_filterMap.mpr ⟨earlier, member, same⟩
  · intro clear entry listedEntry
    obtain ⟨earlier, member, same⟩ := List.mem_filterMap.mp listedEntry
    exact (freed earlier).mpr (clear earlier member) entry same

/-- A worker finds its own handle exactly when no earlier one has its name. -/
theorem Registered.getThreadHandle_iff {state : Sessions} (registered : state.Registered)
    {index : Nat} {session : Session} (found : state.sessions[index]? = some session)
    (kept : session.deleted = false) :
    getThreadHandle session.outputName state.hive = some session.output ↔
      session.outputName ≠ cleanupO ∧ session.outputName ≠ dllO ∧
      ∀ earlier ∈ state.sessions.take index, earlier.outputName = session.outputName →
        earlier.deleted = true ∧ earlier.garbage = 0 := by
  obtain ⟨earlier, own, later, split, entry, before, -⟩ :=
    registered.outputs.own found (Session.outputEntry_of_kept kept)
  obtain ⟨address, name, -⟩ : own.address = session.output ∧
      own.threadName = session.outputName ∧ own.shares = session.garbage + 1 := by
    simpa [Handle.entry] using entry
  have distinct := registered.outputs.distinct
  rw [split] at distinct
  rw [split, ← name, ← address, getThreadHandle_eq_own_iff distinct, name,
    shadow_iff session.outputName before]

theorem queue_send {state sent : Sessions} {target : Nat} {report : Report}
    (result : state.send target report = some sent) (address : Nat) :
    sent.queue address =
      state.queue address ++ if address = target then [report] else [] := by
  obtain ⟨listed, same⟩ := Option.ite_none_right_eq_some.mp result
  obtain rfl := Option.some.inj same
  simp only [queue, find_onQueue]
  cases there : state.hive.find? fun handle => handle.address = address with
  | none =>
      have missing : address ≠ target := by
        rintro rfl
        obtain ⟨handle, member, same⟩ := List.mem_map.mp listed
        exact List.find?_eq_none.mp there handle member (by simpa using same)
      simp [missing]
  | some handle =>
      have same : handle.address = address := by
        simpa using List.find?_some there
      by_cases here : address = target
      · simp [same, here]
      · simp [same, here]

structure Homing (state : Sessions) : Prop where
  registered : state.Registered
  targets : ∀ session ∈ state.sessions, ∀ target, session.phase = .replying target →
    target = session.output

theorem Homing.change {state : Sessions} (homing : state.Homing) {index : Nat}
    {changed : Session} {after : Sessions} (registered : after.Registered)
    (sessions : after.sessions = state.sessions.set index changed)
    (own : ∀ target, changed.phase = .replying target → target = changed.output) :
    after.Homing where
  registered := registered
  targets := by
    intro session member
    rw [sessions] at member
    rcases List.mem_or_eq_of_mem_set member with old | rfl
    · exact homing.targets session old
    · exact own

theorem Homing.commitPair {state committed : Sessions} {index : Nat} (homing : state.Homing)
    (result : state.commitPair index = some committed) : committed.Homing := by
  have registered := homing.registered.commitPair result
  obtain ⟨session, found, -, rfl⟩ := commitPair_eq result
  exact homing.change registered rfl (homing.targets session (List.mem_of_getElem? found))

/-- A step keeps the workers' handles their own, if a worker that looks for its
handle finds it. -/
theorem Homing.step {state after : Sessions} (homing : state.Homing) {event : SessionEvent}
    (clear : Unshadowed state event after) (stepped : state.step event = some after) :
    after.Homing := by
  have registered := homing.registered.step stepped
  cases stepped_of_step stepped with
  | connect =>
      refine ⟨registered, fun session member => ?_⟩
      rcases List.mem_append.mp member with old | new
      · exact homing.targets session old
      · rw [List.mem_singleton.mp new]
        simp
  | queues => exact ⟨registered, homing.targets⟩
  | commit ran =>
      have kept := run_invariant Homing (fun _ _ _ holds did => holds.commitPair did) homing ran
      exact ⟨registered, kept.targets⟩
  | works found running _ replies =>
      refine homing.change registered rfl fun target same => ?_
      obtain ⟨rfl, looked⟩ := replies target same
      have kept := homing.registered.not_deleted found running
      have own := (homing.registered.getThreadHandle_iff found kept).mpr (clear _ found)
      exact Option.some.inj (looked.symm.trans own)
  | exit found | cleanUp _ found =>
      have own := homing.targets _ (List.mem_of_getElem? found)
      exact homing.change registered rfl own

/-- A reply step goes home exactly when nothing shadows the session's name. -/
theorem Homing.goesHome_iff {state after : Sessions} (homing : state.Homing)
    {event : SessionEvent} (stepped : state.step event = some after) :
    GoesHome state event after ↔ Unshadowed state event after := by
  cases event with
  | findReply index =>
      obtain ⟨session, found, rest⟩ := Option.bind_eq_some_iff.mp stepped
      split at rest
      case isFalse => cases rest
      case isTrue connecting =>
        obtain ⟨target, lookup, rfl⟩ := Option.map_eq_some_iff.mp rest
        have kept := homing.registered.not_deleted found (by simp [connecting])
        have exactly := homing.registered.getThreadHandle_iff found kept
        have inside := (List.getElem?_eq_some_iff.mp found).1
        simp only [GoesHome, Unshadowed, found, Option.some.injEq, forall_eq', setSession,
          List.getElem?_set_self inside, ← exactly, lookup]
        simp
  | sendReply index =>
      obtain ⟨session, found, rest⟩ := Option.bind_eq_some_iff.mp stepped
      split at rest
      case h_2 => cases rest
      case h_1 target replying =>
        obtain ⟨sent, did, rfl⟩ := Option.map_eq_some_iff.mp rest
        refine iff_of_true (fun other same address => ?_) trivial
        rw [found, Option.some.injEq] at same
        subst same
        rw [← homing.targets session (List.mem_of_getElem? found) target replying]
        exact queue_send did address
  | _ => exact Iff.rfl

theorem homing_start : start.Homing where
  registered := registered_start
  targets := by simp [start]

/-- In every run of calls, workers and the cleanup thread, every reply goes home
exactly when no worker looks for its handle while an earlier one has its name. -/
theorem replies_home_iff (events : List SessionEvent) :
    Along step GoesHome start events ↔ Along step Unshadowed start events :=
  along_iff_of_invariant Homing
    (fun _ event _ homing clear stepped => @Homing.step _ _ homing event clear stepped)
    (fun _ event _ homing stepped => @Homing.goesHome_iff _ _ homing event stepped)
    homing_start events

/-- Two missions in a row: the second starts its names again while the first's
session with those names has not been committed. -/
def restarted : List SessionEvent :=
  [.connect "2".toList "1".toList 2 0 2 0, .findReply 0, .sendReply 0,
    .connect "2".toList "1".toList 3 0 3 0, .findReply 1, .sendReply 1]

/-- The second session's account is put into the first session's queue. -/
theorem replies_restarted : ¬ Along step GoesHome start restarted ∧
    (run step start restarted).map (fun state => (state.queue 2, state.queue 3)) =
      some ([.account 0, .account 1], []) := by
  refine ⟨fun home => ?_, by decide +kernel⟩
  -- the second session owns the handle at 3 and is about to reply through the one at 2
  have looked : ((run step start (restarted.take 4)).bind fun state =>
      (state.step (.findReply 1)).map fun after =>
        (state.sessions[1]?.map Session.output, after.sessions[1]?.map Session.phase)) =
      some (some 3, some (.replying 2)) := by decide +kernel
  obtain ⟨state, connected, rest⟩ := Option.bind_eq_some_iff.mp looked
  obtain ⟨after, stepped, same⟩ := Option.map_eq_some_iff.mp rest
  obtain ⟨own, target⟩ := Prod.mk.injEq _ _ _ _ ▸ same
  obtain ⟨session, found, output⟩ := Option.map_eq_some_iff.mp own
  have split : restarted = restarted.take 4 ++ restarted.drop 4 := by decide +kernel
  rw [split] at home
  have later := ((along_append.mp home).2 state connected after stepped).1 session found
  rw [later, Option.map_some, output] at target
  simp at target

end Sessions

end OperationFrontLine.Mailbox
