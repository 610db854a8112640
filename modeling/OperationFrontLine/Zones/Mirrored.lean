import OperationFrontLine.Zones.RallyLists

/-!
# The clients' rally points are the server's

A client that has handled its messages has the rally points of the server, for all units
that are known to live, in the digits with which the answer to its request was written.  It
is enough that it sees the units of that answer: for one that it does not see the list gets an
element without a flag, and this element makes every later frame fail.
-/

namespace OperationFrontLine.Zones

open OperationFrontLine.Library

variable {Flag : Type}

/-! ## Digits -/

namespace RallyMark

variable (format : FieldStrings Person ℚ)

structure WrittenAlike (copy mark : RallyMark) : Prop where
  vote : format.printNumber copy.vote = format.printNumber mark.vote
  position : copy.position.map format.printNumber = mark.position.map format.printNumber

def reread (mark : RallyMark) : RallyMark where
  vote := format.parseNumber (format.printNumber mark.vote)
  position := mark.position.map fun coordinate =>
    format.parseNumber (format.printNumber coordinate)

variable {format}

theorem writtenAlike_refl (marks : List RallyMark) :
    List.Forall₂ (WrittenAlike format) marks marks :=
  List.forall₂_same.mpr fun _ _ => ⟨rfl, rfl⟩

theorem writtenAlike_reread
    (rereads : ∀ number, format.printNumber (format.parseNumber (format.printNumber number)) =
      format.printNumber number) (marks : List RallyMark) :
    List.Forall₂ (WrittenAlike format) (marks.map (reread format)) marks := by
  rw [List.forall₂_map_left_iff, List.forall₂_same]
  refine fun mark _ => ⟨rereads mark.vote, ?_⟩
  rw [reread, List.map_map]
  exact List.map_congr_left fun coordinate _ => rereads coordinate

/-- A message changes two lists that are written alike in the same way. -/
theorem writtenAlike_on {person : Person} {copy marks : List RallyMark}
    (alike : List.Forall₂ (WrittenAlike format) copy marks) (change : RallyChange) :
    List.Forall₂ (WrittenAlike format) (change.on person copy) (change.on person marks) := by
  cases change with
  | createRP owner position =>
      simp only [RallyChange.on]
      split
      · exact List.rel_append alike (writtenAlike_refl _)
      · exact alike
  | updateRP owner vote =>
      simp only [RallyChange.on]
      split
      · cases alike with
        | nil => exact .nil
        | cons head tail => exact .cons ⟨rfl, head.position⟩ tail
      · exact alike
  | deleteRP owner =>
      simp only [RallyChange.on]
      split
      · exact .nil
      · exact alike

end RallyMark

/-! ## The server -/

section Server

variable {format : FieldStrings Person ℚ} {world : World} {state : State Flag} {person : Person}

/-- What is read from the elements of a unit is read as often as it is listed. -/
theorem filterMap_person (entries : List RallyEntry) (mark : Option RallyMark) :
    (entries.filterMap fun entry => if entry.person = person then mark else none) =
      (List.replicate (occurrences entries person) mark.toList).flatten := by
  induction entries with
  | nil => rfl
  | cons entry rest inductionHypothesis =>
      rw [List.filterMap_cons, occurrences_cons]
      by_cases same : entry.person = person
      · rw [if_pos same, if_pos same, inductionHypothesis, List.replicate_succ, List.flatten_cons]
        cases mark <;> rfl
      · rw [if_neg same, if_neg same, inductionHypothesis, Nat.add_zero]

theorem rallyRecord_mark (isPresent : world.present person = true) (entry : RallyEntry) :
    ((rallyRecord world state entry).bind fun record =>
      if record.person = person then
        some (⟨record.vote, [record.x, record.y, record.z]⟩ : RallyMark) else none) =
      if entry.person = person then (state.marks person).head? else none := by
  by_cases same : entry.person = person
  · rw [if_pos same, rallyRecord, State.marks, State.hasRP, same, isPresent, Bool.true_and]
    cases (state.person person).rpPos with
    | none => rfl
    | some position =>
        cases (state.person person).rpVote <;> simp [Position.coordinates]
  · rw [if_neg same]
    unfold rallyRecord
    split <;> simp [same]

theorem blckMarks_activeRP (tracked : state.Tracked world.present state.rpList)
    (isPresent : world.present person = true) :
    blckMarks person ((activeRP world state).map RallyRecord.blck) = state.marks person := by
  have read : blckMarks person ((activeRP world state).map RallyRecord.blck) =
      state.rpList.filterMap fun entry =>
        if entry.person = person then (state.marks person).head? else none := by
    rw [blckMarks, List.filterMap_map, activeRP, List.filterMap_filterMap]
    exact List.filterMap_congr fun entry _ => rallyRecord_mark isPresent entry
  rw [read, filterMap_person, tracked.listed person isPresent]
  have single : (state.marks person).head?.toList = state.marks person := by
    unfold State.marks
    split <;> rfl
  by_cases timed : (state.person person).rpTime.isSome
  · simp [timed, single]
  · have noPos : (state.person person).rpPos = none := by
      by_contra hasPos
      have complete := tracked.complete person isPresent (Option.isSome_iff_ne_none.mpr hasPos)
      exact timed complete.time
    rw [State.marks_of_rpPos_none noPos, if_neg timed]
    rfl

theorem blckMarks_reread (records : List (RallyRecord Person ℚ)) :
    blckMarks person ((records.map (·.reread format)).map RallyRecord.blck) =
      (blckMarks person (records.map RallyRecord.blck)).map (RallyMark.reread format) := by
  rw [blckMarks, blckMarks, List.map_map, List.filterMap_map, List.filterMap_map,
    List.map_filterMap]
  apply List.filterMap_congr
  intro record _
  by_cases owned : record.person = person
  · simp [RallyRecord.blck, RallyRecord.reread, RallyMark.reread, owned]
  · simp [RallyRecord.blck, RallyRecord.reread, owned]

/-- The answer to a client says what the server has, as it is read from its string. -/
theorem blckMarks_requestAllRP (tracked : state.Tracked world.present state.rpList)
    (isPresent : world.present person = true) :
    blckMarks person (synchAllRP format (requestAllRP format world state)) =
      (state.marks person).map (RallyMark.reread format) := by
  rw [requestAllRP_eq format tracked, synchAllRP_sendString, blckMarks_reread,
    blckMarks_activeRP tracked isPresent]

end Server

namespace RallySession

variable [DecidableEq Flag] (settings : Settings Flag)

/-- The sides of the elements are those of the rally points. -/
def Sided (session : RallySession Flag) : Prop :=
  session.zones.Sided session.present

theorem sided_zonesAfter {session : RallySession Flag} (tracked : session.Tracked)
    (sided : session.Sided) (event : RallyEvent Flag) :
    (session.zonesAfter settings event).Sided session.present := by
  have timed (time : ℚ) : (session.zones.atTime time).Tracked session.present
      (session.zones.atTime time).rpList := ⟨tracked.listed, tracked.complete⟩
  have sidedThen (time : ℚ) : (session.zones.atTime time).Sided session.present := sided
  cases event with
  | remove person => exact sided
  | flags zone => exact sided
  | deployRP time world person positionPlayer originalPos =>
      exact State.sided_deployRP settings (session.answers world) _ person positionPlayer
        originalPos (timed time) (sidedThen time)
  | fortifyRP time world person unitId positionPlayer =>
      exact State.sided_fortifyRP settings (session.answers world) _ person unitId
        positionPlayer (sidedThen time)
  | destroyFlagZone time world flag destroyingSide =>
      exact State.sided_destroyFlagZone settings (session.answers world) _ flag destroyingSide
        (sidedThen time)
  | track time world =>
      exact State.Sided.sweepRP
        (fun state entry => State.handled_trackRP settings (session.answers world) state entry)
        (sidedThen time)

omit [DecidableEq Flag] in
theorem present_of_presentAfter {session : RallySession Flag} {event : RallyEvent Flag}
    {person : Person} (isPresent : session.presentAfter event person = true) :
    session.present person = true := by
  cases event with
  | remove other =>
      by_cases same : person = other
      · simp [presentAfter, same] at isPresent
      · simpa [presentAfter, same] using isPresent
  | flags zone => exact isPresent
  | deployRP time world owner positionPlayer originalPos => exact isPresent
  | fortifyRP time world owner unitId positionPlayer => exact isPresent
  | destroyFlagZone time world flag destroyingSide => exact isPresent
  | track time world => exact isPresent

theorem sided_step {session after : RallySession Flag} {event : RallyEvent Flag}
    (tracked : session.Tracked) (sided : session.Sided)
    (stepped : step settings session event = some after) : after.Sided := by
  cases stepped
  intro entry member isPresent
  exact sided_zonesAfter settings tracked sided event entry member
    (present_of_presentAfter isPresent)

/-- What an operation does to the rally point of a living unit is what it tells. -/
theorem told_zonesAfter {session : RallySession Flag} (tracked : session.Tracked)
    (sided : session.Sided) (alive : Person → Bool) (event : RallyEvent Flag)
    {person : Person} (isPresent : session.present person = true)
    (isAlive : alive person = true) :
    (session.zonesAfter settings (event.seen alive)).marks person =
      (session.tells settings (event.seen alive)).foldl (RallyChange.on person)
        (session.zones.marks person) := by
  have timed (time : ℚ) : (session.zones.atTime time).Tracked session.present
      (session.zones.atTime time).rpList := ⟨tracked.listed, tracked.complete⟩
  have sidedThen (time : ℚ) : (session.zones.atTime time).Sided session.present := sided
  cases event with
  | remove other => rfl
  | flags zone => rfl
  | deployRP time world owner positionPlayer originalPos =>
      exact State.told_deployRP settings (session.answers { world with alive := alive }) _ owner
        positionPlayer originalPos (timed time) person isPresent isAlive
  | fortifyRP time world owner unitId positionPlayer =>
      exact State.told_fortifyRP settings (session.answers { world with alive := alive }) _ owner
        unitId positionPlayer (timed time) (sidedThen time) person isPresent isAlive
  | destroyFlagZone time world flag destroyingSide =>
      exact State.told_destroyFlagZone settings (session.answers { world with alive := alive }) _
        flag destroyingSide person isPresent isAlive
  | track time world =>
      exact State.told_sweepRP
        (State.told_trackRP settings (session.answers { world with alive := alive })) _ person
        isPresent isAlive

end RallySession

/-! ## Runs -/

namespace RallyNetwork

variable {format : FieldStrings Person ℚ} {net : RallyNetwork Flag}

def sighted (format : FieldStrings Person ℚ) (net : RallyNetwork Flag) :
    RallyNetworkEvent Flag → Bool
  | .deliver index => (net.clients[index]?).all fun client => client.sighted format
  | _ => true

/-- A client is on the way to the server's rally points. -/
def Mirrored (format : FieldStrings Person ℚ) (net : RallyNetwork Flag) (client : RallyClient) :
    Prop :=
  ∀ person, net.session.present person = true → net.alive person = true →
    client.sees person = true →
      Mirrors (List.Forall₂ (RallyMark.WrittenAlike format)) (RallyChange.on person)
        (net.session.zones.marks person) (client.list.map (marksOf person))
        (client.channel.map (RallyMessage.notice format person))

structure Faithful (format : FieldStrings Person ℚ) (net : RallyNetwork Flag) : Prop where
  tracked : net.session.Tracked
  sided : net.session.Sided
  clean : ∀ client ∈ net.clients, client.Clean
  mirrored : ∀ client ∈ net.clients, net.Mirrored format client

/-- A client of the changed network is another client, or it is the one that was changed. -/
theorem mem_update {index : ℕ} {change : RallyClient → RallyClient} {client : RallyClient}
    (member : client ∈ (net.update index change).clients) :
    client ∈ net.clients ∨ ∃ before, net.clients[index]? = some before ∧
      client = change before := by
  obtain ⟨place, found⟩ := List.mem_iff_getElem?.mp member
  rw [update, List.getElem?_modify] at found
  obtain ⟨before, atPlace, isChanged⟩ := Option.map_eq_some_iff.mp found
  split at isChanged
  · rename_i same
    exact .inr ⟨before, same ▸ atPlace, isChanged.symm⟩
  · exact .inl (isChanged ▸ List.mem_of_getElem? atPlace)

theorem mem_update_of_getElem? {index : ℕ} {change : RallyClient → RallyClient}
    {before : RallyClient} (found : net.clients[index]? = some before) :
    change before ∈ (net.update index change).clients := by
  refine List.mem_iff_getElem?.mpr ⟨index, ?_⟩
  rw [update, List.getElem?_modify, found]
  simp

theorem mem_update_or {index : ℕ} (change : RallyClient → RallyClient) {client : RallyClient}
    (member : client ∈ net.clients) :
    client ∈ (net.update index change).clients ∨ net.clients[index]? = some client := by
  obtain ⟨place, found⟩ := List.mem_iff_getElem?.mp member
  by_cases same : index = place
  · exact .inr (same ▸ found)
  · refine .inl (List.mem_iff_getElem?.mpr ⟨place, ?_⟩)
    rw [update, List.getElem?_modify, found]
    simp [same]

theorem Faithful.update (faithful : net.Faithful format) {index : ℕ}
    {change : RallyClient → RallyClient}
    (clean : ∀ client, net.clients[index]? = some client → client.Clean → (change client).Clean)
    (mirrored : ∀ client, net.clients[index]? = some client → client.Clean →
      net.Mirrored format client → net.Mirrored format (change client)) :
    (net.update index change).Faithful format where
  tracked := faithful.tracked
  sided := faithful.sided
  clean client member := by
    rcases mem_update member with other | ⟨before, found, rfl⟩
    · exact faithful.clean client other
    · exact clean before found (faithful.clean before (List.mem_of_getElem? found))
  mirrored client member := by
    rcases mem_update member with other | ⟨before, found, rfl⟩
    · exact faithful.mirrored client other
    · have listed := List.mem_of_getElem? found
      exact mirrored before found (faithful.clean before listed) (faithful.mirrored before listed)

theorem Mirrored.fades {client : RallyClient} (mirrored : net.Mirrored format client)
    {present alive : Person → Bool}
    (fewer : ∀ person, (present person && alive person) = true → client.sees person = true) :
    net.Mirrored format { client with present := present, alive := alive } :=
  fun person isPresent isAlive sees => mirrored person isPresent isAlive (fewer person sees)

theorem true_of_update {known : Person → Bool} {person other : Person}
    (holds : Function.update known person false other = true) : known other = true := by
  by_cases same : other = person
  · simp [same] at holds
  · rwa [Function.update_of_ne same] at holds

theorem Mirrored.answer {client : RallyClient} (mirrored : net.Mirrored format client)
    (rereads : ∀ number, format.printNumber (format.parseNumber (format.printNumber number)) =
      format.printNumber number) (tracked : net.session.Tracked) (world : World) :
    net.Mirrored format { client with
      channel := client.channel ++
        [.synchAllRP (requestAllRP format (net.session.answers world) net.session.zones)] } := by
  intro person isPresent isAlive sees
  have answered := (mirrored person isPresent isAlive sees).answer
    (RallyMark.writtenAlike_reread rereads (net.session.zones.marks person))
  have same : blckMarks person (synchAllRP format
      (requestAllRP format (net.session.answers world) net.session.zones)) =
        (net.session.zones.marks person).map (RallyMark.reread format) :=
    blckMarks_requestAllRP tracked isPresent
  rw [List.map_append, List.map_singleton, RallyMessage.notice, same]
  exact answered

theorem Mirrored.deliver {client : RallyClient} (mirrored : net.Mirrored format client)
    (clean : client.Clean) {message : RallyMessage} {rest : List RallyMessage}
    (next : client.channel = message :: rest) :
    net.Mirrored format
      (({ client with channel := rest } : RallyClient).handle format message) := by
  intro person isPresent isAlive sees
  have arrived : ({ client with channel := rest } : RallyClient).Clean :=
    ⟨clean.whole, clean.flags, clean.fresh, clean.distinct⟩
  obtain ⟨channel, present, alive⟩ := @RallyClient.handle_keeps { client with channel := rest }
    format message
  have seen : client.sees person = true := by
    rw [RallyClient.sees, present, alive] at sees
    exact sees
  have before := mirrored person isPresent isAlive seen
  rw [next, List.map_cons] at before
  rw [channel, RallyClient.marks_handle arrived seen]
  exact before.deliver

variable [DecidableEq Flag] (settings : Settings Flag)

omit [DecidableEq Flag] in
theorem faithful_start (zone : Flag → FlagZone) :
    (start settings zone).Faithful format where
  tracked := RallySession.tracked_start settings zone
  sided entry member := by cases member
  clean client member := by cases member
  mirrored client member := by cases member

theorem Faithful.operation (faithful : net.Faithful format) (event : RallyEvent Flag) :
    (({ net with session := ⟨net.session.zonesAfter settings (event.seen net.alive),
        net.session.presentAfter (event.seen net.alive)⟩ } : RallyNetwork Flag).broadcast
          (net.session.tells settings (event.seen net.alive))).Faithful format where
  tracked := RallySession.tracked_step settings faithful.tracked rfl
  sided := RallySession.sided_step settings faithful.tracked faithful.sided rfl
  clean client member := by
    obtain ⟨before, listed, rfl⟩ := List.mem_map.mp member
    obtain ⟨whole, flags, fresh, distinct⟩ := faithful.clean before listed
    exact ⟨whole, flags, fresh, distinct⟩
  mirrored client member := by
    obtain ⟨before, listed, rfl⟩ := List.mem_map.mp member
    intro person isPresent isAlive sees
    have present : net.session.present person = true :=
      RallySession.present_of_presentAfter isPresent
    have told := RallySession.told_zonesAfter settings faithful.tracked faithful.sided net.alive
      event present isAlive
    have mirrored := faithful.mirrored before listed person present isAlive sees
    have next := mirrored.tell (fun _ _ change alike => RallyMark.writtenAlike_on alike change)
      (net.session.tells settings (event.seen net.alive))
    rw [← told] at next
    rw [List.map_append, List.map_map]
    exact next

/-- An event keeps the promise when the client that takes an answer sees its units. -/
theorem faithful_step {after : RallyNetwork Flag} {event : RallyNetworkEvent Flag}
    (rereads : ∀ number, format.printNumber (format.parseNumber (format.printNumber number)) =
      format.printNumber number) (faithful : net.Faithful format)
    (sighted : net.sighted format event = true)
    (stepped : step settings format net event = some after) : after.Faithful format := by
  cases event with
  | operation event =>
      cases stepped
      exact faithful.operation settings event
  | die person =>
      cases stepped
      refine ⟨faithful.tracked, faithful.sided, faithful.clean, ?_⟩
      intro client member other isPresent isAlive sees
      exact faithful.mirrored client member other isPresent (true_of_update isAlive) sees
  | join =>
      cases stepped
      refine ⟨faithful.tracked, faithful.sided, ?_, ?_⟩
      · intro client member
        rcases List.mem_append.mp member with before | new
        · exact faithful.clean client before
        · rw [List.mem_singleton.mp new]
          exact RallyClient.clean_joined
      · intro client member
        rcases List.mem_append.mp member with before | new
        · exact faithful.mirrored client before
        · rw [List.mem_singleton.mp new]
          exact fun _ _ _ _ => Mirrors.start
  | requestAllRP world index =>
      cases stepped
      apply faithful.update
      · exact fun client _ clean => ⟨clean.whole, clean.flags, clean.fresh, clean.distinct⟩
      · exact fun client _ _ mirrored => mirrored.answer rereads faithful.tracked _
  | deliver index =>
      simp only [step] at stepped
      split at stepped
      · rename_i message rest found
        cases stepped
        obtain ⟨present, atIndex, channel⟩ := Option.map_eq_some_iff.mp found
        have isIt (client : RallyClient) (foundClient : net.clients[index]? = some client) :
            client.channel = message :: rest ∧ client.sighted format = true := by
          rw [atIndex] at foundClient
          cases foundClient
          rw [RallyNetwork.sighted, atIndex] at sighted
          exact ⟨channel, sighted⟩
        apply faithful.update
        · exact fun client foundClient clean =>
            clean.deliver (isIt client foundClient).1 (isIt client foundClient).2
        · exact fun client foundClient clean mirrored =>
            mirrored.deliver clean (isIt client foundClient).1
      · cases stepped
  | frame index zoomed =>
      cases stepped
      apply faithful.update
      · exact fun client _ clean => (clean.frame zoomed).2.1
      · intro client _ clean mirrored person isPresent isAlive sees
        obtain ⟨channel, present, alive⟩ := @RallyClient.frame_keeps client zoomed
        have seen : client.sees person = true := by
          rw [RallyClient.sees, present, alive] at sees
          exact sees
        rw [channel, RallyClient.marks_frame clean seen]
        exact mirrored person isPresent isAlive seen
  | seeDeath index person =>
      cases stepped
      apply faithful.update
      · exact fun client _ clean => ⟨clean.whole, clean.flags, clean.fresh, clean.distinct⟩
      · intro client _ _ mirrored
        apply mirrored.fades
        intro other sees
        rw [Bool.and_eq_true] at sees
        rw [RallyClient.sees, sees.1, true_of_update sees.2]
        rfl
  | seeRemoval index person =>
      cases stepped
      apply faithful.update
      · exact fun client _ clean => ⟨clean.whole, clean.flags, clean.fresh, clean.distinct⟩
      · intro client _ _ mirrored
        apply mirrored.fades
        intro other sees
        rw [Bool.and_eq_true] at sees
        rw [RallyClient.sees, sees.2, true_of_update sees.1]
        rfl

end RallyNetwork

/-- Every client that takes an answer sees the units that it names. -/
def SightedRun [DecidableEq Flag] (settings : Settings Flag) (format : FieldStrings Person ℚ)
    (zone : Flag → FlagZone) (events : List (RallyNetworkEvent Flag)) : Prop :=
  Along (RallyNetwork.step settings format) (fun net event _ => net.sighted format event = true)
    (.start settings zone) events

/-- Whatever the server does, whenever clients join, ask, hear the broadcasts or see units die:
each local flag belongs to one element of its client's list, no frame fails, a frame leaves
only units that the client sees, and a client with no message under way has for every unit
that is known to live just the rally point that the server has, its votes and its place written
with the same digits.  What is read from the digits of a number is written with them again. -/
theorem rally_points_mirrored [DecidableEq Flag] (settings : Settings Flag)
    (format : FieldStrings Person ℚ)
    (rereads : ∀ number, format.printNumber (format.parseNumber (format.printNumber number)) =
      format.printNumber number) (zone : Flag → FlagZone)
    {events : List (RallyNetworkEvent Flag)} {net : RallyNetwork Flag}
    (ran : run (RallyNetwork.step settings format) (.start settings zone) events = some net)
    (sighted : SightedRun settings format zone events) {client : RallyClient}
    (member : client ∈ net.clients) :
    (client.flags.Nodup ∧ client.flags = flagsOf (client.list.getD [])) ∧
      (∀ zoomed, (client.frame zoomed).2 = true ∧
        ∀ left, (client.frame zoomed).1.list = some left → ∀ element ∈ left,
          ∃ entry, element = some entry ∧ client.seesOwner entry = true) ∧
      ∀ entries, client.list = some entries → client.channel = [] → ∀ person,
        net.session.present person = true → net.alive person = true →
          client.sees person = true →
            List.Forall₂ (RallyMark.WrittenAlike format) (marksOf person entries)
              (net.session.zones.marks person) := by
  have keep : ∀ (before : RallyNetwork Flag) event after, before.Faithful format →
      before.sighted format event = true →
        RallyNetwork.step settings format before event = some after → after.Faithful format :=
    fun _ _ _ faithful met stepped =>
      RallyNetwork.faithful_step settings rereads faithful met stepped
  have faithful : net.Faithful format := run_invariant_of_along _ keep
    (RallyNetwork.faithful_start settings zone) sighted ran
  have clean := faithful.clean client member
  refine ⟨⟨clean.distinct, clean.flags⟩, fun zoomed => ?_, ?_⟩
  · obtain ⟨ended, cleanThen, frame⟩ := clean.frame zoomed
    refine ⟨ended, fun left isLeft element inLeft => ?_⟩
    obtain ⟨entry, flag, rfl, -⟩ := cleanThen.whole left isLeft element inLeft
    rw [frame, Option.map_eq_some_iff] at isLeft
    obtain ⟨entries, -, rfl⟩ := isLeft
    exact ⟨entry, rfl, (List.mem_filter.mp inLeft).2⟩
  · intro entries listed idle person isPresent isAlive sees
    have mirrored := faithful.mirrored client member person isPresent isAlive sees
    rw [listed, idle] at mirrored
    exact mirrored.caught

/-! ## Frames that fail -/

namespace RallyNetwork

variable {format : FieldStrings Person ℚ} {net : RallyNetwork Flag}

def Damaged (net : RallyNetwork Flag) : Prop :=
  ∃ client ∈ net.clients, client.Broken

/-- Each client is whole or broken. -/
def Divided (net : RallyNetwork Flag) : Prop :=
  ∀ client ∈ net.clients, client.Clean ∨ client.Broken

theorem damaged_update {index : ℕ} {change : RallyClient → RallyClient}
    (clean : ∀ client, net.clients[index]? = some client → client.Clean → (change client).Clean)
    (broken : ∀ client, client.Broken → (change client).Broken) (divided : net.Divided) :
    (net.update index change).Divided ∧ ((net.update index change).Damaged ↔ net.Damaged) := by
  refine ⟨fun client member => ?_, ?_, ?_⟩
  · rcases mem_update member with other | ⟨before, found, rfl⟩
    · exact divided client other
    · exact (divided before (List.mem_of_getElem? found)).imp (clean before found) (broken before)
  · rintro ⟨client, member, isBroken⟩
    rcases mem_update member with other | ⟨before, found, rfl⟩
    · exact ⟨client, other, isBroken⟩
    · have listed := List.mem_of_getElem? found
      rcases divided before listed with wasClean | wasBroken
      · exact absurd isBroken (clean before found wasClean).not_broken
      · exact ⟨before, listed, wasBroken⟩
  · rintro ⟨client, member, isBroken⟩
    rcases mem_update_or change member with other | found
    · exact ⟨client, other, isBroken⟩
    · exact ⟨change client, mem_update_of_getElem? found, broken client isBroken⟩

theorem clean_congr {client after : RallyClient} (list : after.list = client.list)
    (flags : after.flags = client.flags) (nextFlag : after.nextFlag = client.nextFlag)
    (clean : client.Clean) : after.Clean where
  whole entries listed := clean.whole entries (list ▸ listed)
  flags := by rw [flags, list, clean.flags]
  fresh := by rw [flags, nextFlag]; exact clean.fresh
  distinct := by rw [flags]; exact clean.distinct

variable [DecidableEq Flag] (settings : Settings Flag)

/-- A client breaks exactly when it takes an answer with a unit that it does not see. -/
theorem damaged_step {after : RallyNetwork Flag} {event : RallyNetworkEvent Flag}
    (divided : net.Divided) (stepped : step settings format net event = some after) :
    after.Divided ∧ (after.Damaged ↔ net.Damaged ∨ ¬net.sighted format event = true) := by
  have same (index : ℕ) (change : RallyClient → RallyClient)
      (list : ∀ client, (change client).list = client.list)
      (flags : ∀ client, (change client).flags = client.flags)
      (nextFlag : ∀ client, (change client).nextFlag = client.nextFlag)
      (broken : ∀ client, client.Broken → (change client).Broken) :=
    @damaged_update _ net index change
      (fun client _ clean => clean_congr (list client) (flags client) (nextFlag client) clean)
      broken divided
  cases event with
  | operation event =>
      cases stepped
      simp only [RallyNetwork.sighted, not_true_eq_false, or_false]
      refine ⟨fun client member => ?_, ?_, ?_⟩
      · obtain ⟨before, listed, rfl⟩ := List.mem_map.mp member
        rcases divided before listed with clean | broken
        · exact .inl (@clean_congr before _ rfl rfl rfl clean)
        · exact .inr broken
      · rintro ⟨client, member, isBroken⟩
        obtain ⟨before, listed, rfl⟩ := List.mem_map.mp member
        exact ⟨before, listed, isBroken⟩
      · rintro ⟨client, member, isBroken⟩
        exact ⟨_, List.mem_map_of_mem member, isBroken⟩
  | die person =>
      cases stepped
      simp only [RallyNetwork.sighted, not_true_eq_false, or_false]
      exact ⟨divided, Iff.rfl⟩
  | join =>
      cases stepped
      simp only [RallyNetwork.sighted, not_true_eq_false, or_false]
      refine ⟨fun client member => ?_, ?_, ?_⟩
      · rcases List.mem_append.mp member with before | new
        · exact divided client before
        · rw [List.mem_singleton.mp new]
          exact .inl RallyClient.clean_joined
      · rintro ⟨client, member, isBroken⟩
        rcases List.mem_append.mp member with before | new
        · exact ⟨client, before, isBroken⟩
        · rw [List.mem_singleton.mp new] at isBroken
          exact absurd isBroken RallyClient.clean_joined.not_broken
      · rintro ⟨client, member, isBroken⟩
        exact ⟨client, List.mem_append_left _ member, isBroken⟩
  | requestAllRP world index =>
      cases stepped
      simp only [RallyNetwork.sighted, not_true_eq_false, or_false]
      exact same index _ (fun _ => rfl) (fun _ => rfl) (fun _ => rfl) fun _ broken => broken
  | deliver index =>
      simp only [step] at stepped
      split at stepped
      · rename_i message rest found
        cases stepped
        obtain ⟨client, atIndex, next⟩ := Option.map_eq_some_iff.mp found
        have isIt (other : RallyClient) (foundOther : net.clients[index]? = some other) :
            other = client := Option.some.inj (foundOther.symm.trans atIndex)
        rw [RallyNetwork.sighted, atIndex, Option.all_some]
        have broken (other : RallyClient) (isBroken : other.Broken) :
            (({ other with channel := rest } : RallyClient).handle format message).Broken :=
          isBroken.imp fun owner lacks =>
            @RallyClient.Lacks.handle { other with channel := rest } format owner lacks message
        by_cases seen : client.sighted format = true
        · simp only [seen, not_true_eq_false, or_false]
          refine damaged_update (fun other foundOther clean => ?_) broken divided
          cases isIt other foundOther
          exact clean.deliver next seen
        · have isBroken := RallyClient.broken_of_not_sighted next (by simpa using seen)
          refine ⟨fun other member => ?_, fun _ => .inr seen, fun _ =>
            ⟨_, mem_update_of_getElem? atIndex, isBroken⟩⟩
          rcases mem_update member with before | ⟨before, foundBefore, rfl⟩
          · exact divided other before
          · cases isIt before foundBefore
            exact .inr isBroken
      · cases stepped
  | frame index zoomed =>
      cases stepped
      simp only [RallyNetwork.sighted, not_true_eq_false, or_false]
      exact damaged_update (fun client _ clean => (clean.frame zoomed).2.1)
        (fun client broken => broken.imp fun _ lacks => (lacks.frame zoomed).2) divided
  | seeDeath index person =>
      cases stepped
      simp only [RallyNetwork.sighted, not_true_eq_false, or_false]
      exact same index _ (fun _ => rfl) (fun _ => rfl) (fun _ => rfl) fun _ broken => broken
  | seeRemoval index person =>
      cases stepped
      simp only [RallyNetwork.sighted, not_true_eq_false, or_false]
      exact same index _ (fun _ => rfl) (fun _ => rfl) (fun _ => rfl) fun _ broken => broken

/-- The element of a client that has no flag stays, whatever happens. -/
theorem lacks_step {after : RallyNetwork Flag} {event : RallyNetworkEvent Flag} {place : ℕ}
    {client : RallyClient} {owner : Option Person} (atPlace : net.clients[place]? = some client)
    (lacks : client.Lacks owner) (stepped : step settings format net event = some after) :
    ∃ next, after.clients[place]? = some next ∧ next.Lacks owner := by
  have updated (index : ℕ) {change : RallyClient → RallyClient}
      (keeps : ∀ client, client.Lacks owner → (change client).Lacks owner) :
      ∃ next, (net.update index change).clients[place]? = some next ∧ next.Lacks owner := by
    rw [update, List.getElem?_modify, atPlace]
    refine ⟨_, rfl, ?_⟩
    dsimp only
    split
    · exact keeps client lacks
    · exact lacks
  cases event with
  | operation event =>
      cases stepped
      rw [broadcast, List.getElem?_map, atPlace]
      exact ⟨_, rfl, lacks⟩
  | die person =>
      cases stepped
      exact ⟨client, atPlace, lacks⟩
  | join =>
      cases stepped
      have inside := (List.getElem?_eq_some_iff.mp atPlace).1
      exact ⟨client, (List.getElem?_append_left inside).trans atPlace, lacks⟩
  | requestAllRP world index =>
      cases stepped
      exact updated index fun _ lacks => lacks
  | deliver index =>
      simp only [step] at stepped
      split at stepped
      · rename_i message rest _
        cases stepped
        exact updated index fun client lacks =>
          @RallyClient.Lacks.handle { client with channel := rest } format owner lacks message
      · cases stepped
  | frame index zoomed =>
      cases stepped
      exact updated index fun _ lacks => (lacks.frame zoomed).2
  | seeDeath index person =>
      cases stepped
      exact updated index fun _ lacks => lacks
  | seeRemoval index person =>
      cases stepped
      exact updated index fun _ lacks => lacks

/-- A client that lacks a flag lacks it in all later states, and its frames fail. -/
theorem lacks_run {events : List (RallyNetworkEvent Flag)} {last : RallyNetwork Flag} {place : ℕ}
    {client : RallyClient} {owner : Option Person} (atPlace : net.clients[place]? = some client)
    (lacks : client.Lacks owner) (ran : run (step settings format) net events = some last) :
    ∃ next, last.clients[place]? = some next ∧ next.Lacks owner ∧
      ∀ zoomed, (next.frame zoomed).2 = false := by
  let Inv (net : RallyNetwork Flag) : Prop :=
    ∃ next, net.clients[place]? = some next ∧ next.Lacks owner
  have stays (before : RallyNetwork Flag) event after (holds : Inv before)
      (stepped : step settings format before event = some after) : Inv after := by
    obtain ⟨next, here, stillLacks⟩ := holds
    exact lacks_step settings here stillLacks stepped
  obtain ⟨next, here, stillLacks⟩ := run_invariant Inv stays ⟨client, atPlace, lacks⟩ ran
  exact ⟨next, here, stillLacks, fun zoomed => (stillLacks.frame zoomed).1⟩

/-- The client that takes an answer with a unit that it does not see lacks a flag then. -/
theorem lacks_of_not_sighted {after : RallyNetwork Flag} {place : ℕ}
    (unsighted : net.sighted format (.deliver place) = false)
    (stepped : step settings format net (.deliver place) = some after) :
    ∃ client, after.clients[place]? = some client ∧ client.Broken := by
  simp only [step] at stepped
  split at stepped
  · rename_i message rest found
    cases stepped
    obtain ⟨client, atPlace, next⟩ := Option.map_eq_some_iff.mp found
    rw [sighted, atPlace, Option.all_some] at unsighted
    refine ⟨_, ?_, RallyClient.broken_of_not_sighted next unsighted⟩
    rw [update, List.getElem?_modify, atPlace]
    simp
  · cases stepped

end RallyNetwork

/-- At the end of a run every client's frames come to their end exactly when in the whole run
each client has seen the units of the answer that it took.  For one that it did not see it gets
an element without a flag, which stays on its list and makes all its later frames fail. -/
theorem frames_intact_iff [DecidableEq Flag] (settings : Settings Flag)
    (format : FieldStrings Person ℚ) (zone : Flag → FlagZone)
    {events : List (RallyNetworkEvent Flag)} {net : RallyNetwork Flag}
    (ran : run (RallyNetwork.step settings format) (.start settings zone) events = some net) :
    ((∀ client ∈ net.clients, ∀ zoomed, (client.frame zoomed).2 = true) ↔
      SightedRun settings format zone events) ∧
    ∀ (place : ℕ) (after : RallyNetwork Flag), net.sighted format (.deliver place) = false →
      RallyNetwork.step settings format net (.deliver place) = some after →
        ∃ owner, ∀ (later : List (RallyNetworkEvent Flag)) (last : RallyNetwork Flag),
          run (RallyNetwork.step settings format) after later = some last →
            ∃ client, last.clients[place]? = some client ∧ client.Lacks owner ∧
              ∀ zoomed, (client.frame zoomed).2 = false := by
  have divided : (RallyNetwork.start settings zone).Divided := List.forall_mem_nil _
  have whole : ¬(RallyNetwork.start settings zone).Damaged := by
    rintro ⟨client, member, -⟩
    cases member
  have keep : ∀ (before : RallyNetwork Flag) event after, before.Divided →
      RallyNetwork.step settings format before event = some after → after.Divided :=
    fun _ _ _ divided stepped => (RallyNetwork.damaged_step settings divided stepped).1
  have intact : (∀ client ∈ net.clients, ∀ zoomed, (client.frame zoomed).2 = true) ↔
      ¬net.Damaged := by
    have reached : net.Divided := run_invariant _ keep divided ran
    constructor
    · rintro frames ⟨client, member, owner, lacks⟩
      have failed := (lacks.frame false).1
      rw [frames client member false] at failed
      cases failed
    · intro undamaged client member zoomed
      rcases reached client member with clean | broken
      · exact (clean.frame zoomed).1
      · exact absurd ⟨client, member, broken⟩ undamaged
  refine ⟨intact.trans ?_, fun place after unsighted stepped => ?_⟩
  · exact along_iff_of_flag RallyNetwork.Divided RallyNetwork.Damaged
      (fun before event after divided _ stepped => keep before event after divided stepped)
      (fun _ _ _ divided _ stepped => (RallyNetwork.damaged_step settings divided stepped).2)
      divided whole (along_of_forall_mem (fun _ _ _ _ _ => trivial) _) ran
  · obtain ⟨client, atPlace, owner, lacks⟩ :=
      RallyNetwork.lacks_of_not_sighted settings unsighted stepped
    exact ⟨owner, fun later last ranOn => RallyNetwork.lacks_run settings atPlace lacks ranOn⟩

/-! ## A match of one client -/

/-- A whole number as it is, another one as a fraction. -/
def printFraction (number : ℚ) : Text :=
  if number.den = 1 then printInteger number.num
  else printInteger number.num ++ '/' :: printNatural 10 number.den

def parseFraction (text : Text) : ℚ :=
  match readInteger 10 text with
  | some (numerator, []) => numerator
  | some (numerator, _ :: rest) =>
      mkRat numerator (((readNatural 10 rest).map Prod.fst).getD 1)
  | none => 0

theorem parseFraction_printFraction (number : ℚ) :
    parseFraction (printFraction number) = number := by
  unfold printFraction
  split
  · rename_i whole
    have read := readInteger_printInteger number.num (stops_nil 10)
    rw [List.append_nil] at read
    rw [parseFraction, read]
    exact Rat.den_eq_one_iff number |>.mp whole
  · have slash : Stops 10 ('/' :: printNatural 10 number.den) :=
      (stops_cons 10 '/' _).mpr (by decide)
    have read := readNatural_printNatural (by decide : 1 < 10) (by decide) number.den
      (stops_nil 10)
    rw [List.append_nil] at read
    rw [parseFraction, readInteger_printInteger number.num slash]
    simp [read, Rat.mkRat_self]

theorem pipe_notMem_printFraction (number : ℚ) : pipe ∉ printFraction number := by
  have noPipe := wholeFormat.pipe_notMem_printNumber number.num
  unfold printFraction
  split
  · exact noPipe
  · intro member
    rcases List.mem_append.mp member with sign | rest
    · exact noPipe sign
    · rcases List.mem_cons.mp rest with isSlash | digit
      · cases isSlash
      · cases printNatural_digits (by decide) (by decide) _ pipe digit

/-- Network IDs as the engine prints them, and fractions. -/
def fractionFormat : FieldStrings Person ℚ where
  netId := wholeFormat.netId
  objectFromNetId := wholeFormat.objectFromNetId
  printNumber := printFraction
  parseNumber := parseFraction
  objectFromNetId_netId := wholeFormat.objectFromNetId_netId
  netId_ne_nil := wholeFormat.netId_ne_nil
  printNumber_ne_nil number := by
    unfold printFraction
    split
    · exact printInteger_ne_nil number.num
    · simp
  pipe_notMem_netId := wholeFormat.pipe_notMem_netId
  pipe_notMem_printNumber := pipe_notMem_printFraction

/-- A player deploys a rally point, and another one joins and asks for it. -/
def lateJoin : List (RallyNetworkEvent Side) :=
  [.operation (.deployRP 130 (quiet (fun _ => true) ⟨0, 60, 0⟩) (some 1) ⟨0, 60, 0⟩
      (altisBunker .west)),
    .join, .requestAllRP (quiet (fun _ => true) ⟨0, 60, 0⟩) 0, .deliver 0]

def lateJoined : RallyNetwork Side :=
  (run (RallyNetwork.step altis fractionFormat) (.start altis readyFlags) lateJoin).get
    (by decide +kernel)

theorem lateJoined_ran : run (RallyNetwork.step altis fractionFormat) (.start altis readyFlags)
    lateJoin = some lateJoined := (Option.some_get _).symm

theorem lateJoin_sighted : SightedRun altis fractionFormat readyFlags lateJoin := by
  unfold SightedRun
  decide +kernel

theorem rally_points_mirrored_lateJoin :
    ∃ client ∈ lateJoined.clients, ∃ entries, client.list = some entries ∧
      List.Forall₂ (RallyMark.WrittenAlike fractionFormat) (marksOf 1 entries)
        (lateJoined.session.zones.marks 1) ∧
      lateJoined.session.zones.marks 1 = [⟨0, [0, 60, 0]⟩] := by
  have one : lateJoined.clients.map (fun client =>
      (client.list.isSome, client.channel, client.sees 1)) = [(true, [], true)] := by
    decide +kernel
  obtain ⟨client, isClient, found⟩ := List.map_eq_singleton_iff.mp one
  simp only [Prod.mk.injEq] at found
  obtain ⟨entries, listed⟩ := Option.isSome_iff_exists.mp found.1
  have member : client ∈ lateJoined.clients := by rw [isClient]; exact List.mem_singleton_self _
  have mirrored := (rally_points_mirrored altis fractionFormat
    (fun number => congrArg printFraction (parseFraction_printFraction number)) readyFlags
    lateJoined_ran lateJoin_sighted member).2.2 entries listed found.2.1 1 (by decide +kernel)
    (by decide +kernel) found.2.2
  exact ⟨client, member, entries, listed, mirrored, by decide +kernel⟩

theorem frames_intact_iff_lateJoin :
    lateJoined.clients.length = 1 ∧
      ∀ client ∈ lateJoined.clients, ∀ zoomed, (client.frame zoomed).2 = true :=
  ⟨by decide +kernel,
    (frames_intact_iff altis fractionFormat readyFlags lateJoined_ran).1.mpr lateJoin_sighted⟩

/-- The rally point of a unit that the client takes for dead: no frame ends. -/
example : (run (RallyNetwork.step altis fractionFormat) (.start altis readyFlags)
    (lateJoin.take 3 ++ [.seeDeath 0 1, .deliver 0])).map (fun net =>
      net.clients.map fun client => (client.frame false).2) = some [false] := by
  decide +kernel

end OperationFrontLine.Zones
