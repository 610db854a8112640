import OperationFrontLine.Zones.RallyClients

/-!
# What the messages do to a client's list

On a list in which every element has its flag each message does what it says.  An element
without a flag stays for good, and no frame comes to its end behind it.
-/

namespace OperationFrontLine.Zones

open OperationFrontLine.Library

variable {Flag : Type}

def marksOf (person : Person) (entries : List (Option LocalRP)) : List RallyMark :=
  entries.filterMap fun element => element.bind fun entry =>
    if entry.person = some person then some ⟨entry.vote, entry.position⟩ else none

def Whole (entries : List (Option LocalRP)) : Prop :=
  ∀ element ∈ entries, ∃ entry flag, element = some entry ∧ entry.flag = some flag

section Lists

@[simp]
theorem flagsOf_nil : flagsOf [] = [] := rfl

@[simp]
theorem flagsOf_append (first second : List (Option LocalRP)) :
    flagsOf (first ++ second) = flagsOf first ++ flagsOf second :=
  List.filterMap_append

@[simp]
theorem marksOf_append (person : Person) (first second : List (Option LocalRP)) :
    marksOf person (first ++ second) = marksOf person first ++ marksOf person second :=
  List.filterMap_append

theorem flagsOf_cons (entry : LocalRP) (rest : List (Option LocalRP)) :
    flagsOf (some entry :: rest) = entry.flag.toList ++ flagsOf rest := by
  cases flagged : entry.flag <;> simp [flagsOf, flagged]

theorem marksOf_cons (person : Person) (entry : LocalRP) (rest : List (Option LocalRP)) :
    marksOf person (some entry :: rest) =
      (if entry.person = some person then [⟨entry.vote, entry.position⟩] else []) ++
        marksOf person rest := by
  by_cases owned : entry.person = some person <;> simp [marksOf, owned]

theorem whole_cons {element : Option LocalRP} {rest : List (Option LocalRP)} :
    Whole (element :: rest) ↔
      (∃ entry flag, element = some entry ∧ entry.flag = some flag) ∧ Whole rest :=
  List.forall_mem_cons

variable {entries : List (Option LocalRP)}

theorem Whole.filter (whole : Whole entries) (keeps : Option LocalRP → Bool) :
    Whole (entries.filter keeps) :=
  fun element member => whole element (List.mem_of_mem_filter member)

theorem strikeEach_whole (strikes reads : LocalRP → Bool) (whole : Whole entries) :
    (strikeEach strikes reads entries).ended = true ∧
      (strikeEach strikes reads entries).list.filter Option.isSome =
        entries.filter (fun element => !element.any strikes) ∧
      (strikeEach strikes reads entries).deleted =
        flagsOf (entries.filter fun element => element.any strikes) := by
  induction entries with
  | nil => exact ⟨rfl, rfl, rfl⟩
  | cons element rest inductionHypothesis =>
      obtain ⟨⟨entry, flag, rfl, flagged⟩, wholeRest⟩ := whole_cons.mp whole
      obtain ⟨ended, list, deleted⟩ := inductionHypothesis wholeRest
      rw [strikeEach, flagged]
      cases struck : strikes entry <;> cases read : reads entry <;>
        simp [struck, ended, list, deleted, flagsOf_cons, flagged]

theorem marksOf_filter_keep {person : Person} {keeps : Option LocalRP → Bool}
    (kept : ∀ entry : LocalRP, entry.person = some person → keeps (some entry) = true) :
    marksOf person (entries.filter keeps) = marksOf person entries := by
  rw [marksOf, List.filterMap_filter, marksOf]
  apply List.filterMap_congr
  intro element _
  cases element with
  | none => simp
  | some entry =>
      by_cases owned : entry.person = some person
      · simp [kept entry owned]
      · simp [owned]

theorem marksOf_filter_drop {person : Person} {keeps : Option LocalRP → Bool}
    (dropped : ∀ entry : LocalRP, entry.person = some person → keeps (some entry) = false) :
    marksOf person (entries.filter keeps) = [] := by
  rw [marksOf, List.filterMap_filter, List.filterMap_eq_nil_iff]
  intro element _
  cases element with
  | none => simp
  | some entry =>
      by_cases owned : entry.person = some person
      · simp [dropped entry owned]
      · simp [owned]

/-- The flags that are not deleted are those of the elements that stay. -/
theorem flagsOf_filter (distinct : (flagsOf entries).Nodup) (whole : Whole entries)
    (strikes : LocalRP → Bool) :
    (flagsOf entries).filter (· ∉ flagsOf (entries.filter fun element => element.any strikes)) =
      flagsOf (entries.filter fun element => !element.any strikes) := by
  induction entries with
  | nil => rfl
  | cons element rest inductionHypothesis =>
      obtain ⟨⟨entry, flag, rfl, flagged⟩, wholeRest⟩ := whole_cons.mp whole
      rw [flagsOf_cons, flagged, Option.toList_some, List.singleton_append,
        List.nodup_cons] at distinct
      have later := inductionHypothesis distinct.2 wholeRest
      have absent (keeps : Option LocalRP → Bool) : flag ∉ flagsOf (rest.filter keeps) :=
        fun member => distinct.1 ((List.filter_sublist.filterMap _).subset member)
      cases struck : strikes entry with
      | true =>
          have others : (flagsOf rest).filter
                (· ∉ flag :: flagsOf (rest.filter fun element => element.any strikes)) =
              (flagsOf rest).filter
                (· ∉ flagsOf (rest.filter fun element => element.any strikes)) := by
            apply List.filter_congr
            intro other member
            have different : other ≠ flag := fun same => distinct.1 (same ▸ member)
            simp [different]
          simp [flagsOf_cons, flagged, struck] at others later ⊢
          rw [others, later]
      | false =>
          have kept := absent fun element => element.any strikes
          simp [flagsOf_cons, flagged, struck, kept] at later ⊢
          exact later

/-- A vote changes the first rally point of the person, and nothing else. -/
theorem voteEach_whole (person : Person) (vote : ℚ) (whole : Whole entries) :
    Whole (voteEach person vote entries) ∧
      flagsOf (voteEach person vote entries) = flagsOf entries ∧
      ∀ other, marksOf other (voteEach person vote entries) =
        if person = other then
          (marksOf other entries).modifyHead fun mark => { mark with vote := vote }
        else marksOf other entries := by
  induction entries with
  | nil =>
      refine ⟨whole, rfl, fun other => ?_⟩
      split <;> rfl
  | cons element rest inductionHypothesis =>
      obtain ⟨⟨entry, flag, rfl, flagged⟩, wholeRest⟩ := whole_cons.mp whole
      obtain ⟨stillWhole, flags, marks⟩ := inductionHypothesis wholeRest
      rw [voteEach]
      by_cases owned : entry.person = some person
      · rw [if_pos owned]
        refine ⟨whole_cons.mpr ⟨⟨_, flag, rfl, flagged⟩, wholeRest⟩, ?_, fun other => ?_⟩
        · rw [flagsOf_cons, flagsOf_cons]
        · by_cases same : person = other
          · subst same
            simp [marksOf_cons, owned]
          · have foreign : entry.person ≠ some other := by
              rw [owned]
              exact fun equal => same (Option.some.inj equal)
            simp [marksOf_cons, foreign, same]
      · rw [if_neg owned]
        refine ⟨whole_cons.mpr ⟨⟨_, flag, rfl, flagged⟩, stillWhole⟩, ?_, fun other => ?_⟩
        · rw [flagsOf_cons, flagsOf_cons, flags]
        · rw [marksOf_cons, marksOf_cons, marks]
          by_cases same : person = other
          · subst same
            simp [owned]
          · simp [same]

end Lists

/-! ## A client -/

/-- Every element has a flag of its own, and there are no other flags. -/
structure RallyClient.Clean (client : RallyClient) : Prop where
  whole : ∀ entries, client.list = some entries → Whole entries
  flags : client.flags = flagsOf (client.list.getD [])
  fresh : ∀ flag ∈ client.flags, flag < client.nextFlag
  distinct : client.flags.Nodup

/-- There is an element without a flag for a unit; `none` is a null object. -/
def RallyClient.Lacks (client : RallyClient) (person : Option Person) : Prop :=
  ∃ entries entry, client.list = some entries ∧ some entry ∈ entries ∧
    entry.person = person ∧ entry.flag = none

def RallyClient.Broken (client : RallyClient) : Prop := ∃ person, client.Lacks person

def blckMarks (person : Person) (blcks : List (Blck Person ℚ)) : List RallyMark :=
  blcks.filterMap fun blck =>
    match blck with
    | .rally object vote coordinates =>
        if object = person then some ⟨vote, coordinates⟩ else none
    | .person object => if object = person then some ⟨0, []⟩ else none
    | .empty => none

/-- What a message says about the rally points of a unit. -/
def RallyMessage.notice (format : FieldStrings Person ℚ) (person : Person) :
    RallyMessage → Notice RallyChange (List RallyMark)
  | told change => .told change
  | synchAllRP data => .snapshot (blckMarks person (Zones.synchAllRP format data))

namespace RallyClient

variable {client : RallyClient} {person : Person}

theorem clean_joined : joined.Clean where
  whole _ ended := by cases ended
  flags := rfl
  fresh _ member := by cases member
  distinct := List.nodup_nil

theorem present_of_sees (sees : client.sees person = true) : client.present person = true :=
  (Bool.and_eq_true _ _ ▸ sees).1

section Strikes

variable {entries : List (Option LocalRP)}

theorem Clean.of_list (clean : client.Clean) (listed : client.list = some entries) :
    client.flags = flagsOf entries ∧ (flagsOf entries).Nodup := by
  have flags := clean.flags
  rw [listed] at flags
  exact ⟨flags, flags ▸ clean.distinct⟩

theorem Clean.afterStrikes (clean : client.Clean) (listed : client.list = some entries)
    (strikes reads : LocalRP → Bool) :
    (client.afterStrikes (strikeEach strikes reads entries)).Clean ∧
      (client.afterStrikes (strikeEach strikes reads entries)).list =
        some (entries.filter fun element => !element.any strikes) := by
  obtain ⟨ended, list, deleted⟩ := strikeEach_whole strikes reads (clean.whole entries listed)
  obtain ⟨flags, distinct⟩ := clean.of_list listed
  have left : (client.afterStrikes (strikeEach strikes reads entries)).list =
      some (entries.filter fun element => !element.any strikes) := by
    rw [RallyClient.afterStrikes, ended, list]
    rfl
  refine ⟨⟨?_, ?_, ?_, clean.distinct.filter _⟩, left⟩
  · intro others same
    rw [left] at same
    cases same
    exact (clean.whole entries listed).filter _
  · rw [left, Option.getD_some, ← flagsOf_filter distinct (clean.whole entries listed),
      ← deleted, ← flags]
    rfl
  · exact fun flag member => clean.fresh flag (List.mem_of_mem_filter member)

end Strikes

section Handling

variable {format : FieldStrings Person ℚ}

theorem Clean.createRP (clean : client.Clean) (owner : Person) (position : Position) :
    (client.createRP owner position).Clean := by
  unfold RallyClient.createRP
  split
  · exact clean
  · rename_i entries listed
    obtain ⟨flags, -⟩ := clean.of_list listed
    split
    · constructor
      · intro others same
        cases same
        intro element member
        rcases List.mem_append.mp member with before | new
        · exact clean.whole entries listed element before
        · exact ⟨_, client.nextFlag, List.mem_singleton.mp new, rfl⟩
      · simp [flags, flagsOf_cons]
      · intro flag member
        rcases List.mem_append.mp member with before | new
        · exact (clean.fresh flag before).trans (Nat.lt_succ_self _)
        · rw [List.mem_singleton.mp new]
          exact Nat.lt_succ_self _
      · refine List.nodup_append.mpr ⟨clean.distinct, List.nodup_singleton _, ?_⟩
        intro flag before other new same
        rw [List.mem_singleton.mp new] at same
        exact absurd (clean.fresh flag before) (by omega)
    · exact clean

theorem marks_createRP (sees : client.sees person = true) (owner : Person) (position : Position) :
    (client.createRP owner position).list.map (marksOf person) =
      (client.list.map (marksOf person)).map fun marks =>
        RallyChange.on person marks (.createRP owner position) := by
  unfold RallyClient.createRP
  split
  · rename_i nil
    rw [nil]
    rfl
  · rename_i entries listed
    rw [listed, Option.map_some, Option.map_some]
    split
    · simp only [Option.map_some, marksOf_append, marksOf_cons, RallyChange.on]
      by_cases same : owner = person <;> simp [same, marksOf]
    · rename_i unseen
      have different : owner ≠ person := fun same => unseen (same ▸ sees)
      simp [listed, RallyChange.on, different]

theorem Clean.updateRP (clean : client.Clean) (owner : Person) (vote : ℕ) :
    (client.updateRP owner vote).Clean := by
  unfold RallyClient.updateRP
  split
  · exact clean
  · rename_i entries listed
    obtain ⟨flags, -⟩ := clean.of_list listed
    split
    · obtain ⟨whole, same, -⟩ := voteEach_whole owner vote (clean.whole entries listed)
      constructor
      · intro others isList
        cases isList
        exact whole
      · rw [Option.getD_some, same]
        exact flags
      · exact clean.fresh
      · exact clean.distinct
    · exact clean

theorem marks_updateRP (clean : client.Clean) (sees : client.sees person = true) (owner : Person)
    (vote : ℕ) :
    (client.updateRP owner vote).list.map (marksOf person) =
      (client.list.map (marksOf person)).map fun marks =>
        RallyChange.on person marks (.updateRP owner vote) := by
  unfold RallyClient.updateRP
  split
  · rename_i nil
    rw [nil]
    rfl
  · rename_i entries listed
    rw [listed, Option.map_some, Option.map_some]
    split
    · have marks := (voteEach_whole owner vote (clean.whole entries listed)).2.2 person
      rw [Option.map_some, marks]
      rfl
    · rename_i absent
      have different : owner ≠ person := fun same => absent (same ▸ present_of_sees sees)
      simp [listed, RallyChange.on, different]

theorem Clean.deleteRP (clean : client.Clean) (owner : Person) :
    (client.deleteRP owner).Clean := by
  unfold RallyClient.deleteRP
  split
  · exact clean
  · rename_i entries listed
    exact (clean.afterStrikes listed _ _).1

theorem marks_deleteRP (clean : client.Clean) (sees : client.sees person = true)
    (owner : Person) :
    (client.deleteRP owner).list.map (marksOf person) =
      (client.list.map (marksOf person)).map fun marks =>
        RallyChange.on person marks (.deleteRP owner) := by
  unfold RallyClient.deleteRP
  split
  · rename_i nil
    rw [nil]
    rfl
  · rename_i entries listed
    rw [(clean.afterStrikes listed _ _).2, listed, Option.map_some, Option.map_some,
      Option.map_some, RallyChange.on]
    have owned (entry : LocalRP) (isOwner : entry.person = some person) :
        client.deletes owner entry = (person == owner) := by
      rw [deletes, isOwner]
      simp [present_of_sees sees]
    by_cases same : owner = person
    · subst same
      rw [if_pos rfl, marksOf_filter_drop]
      intro entry isOwner
      simp [owned entry isOwner]
    · rw [if_neg same, marksOf_filter_keep]
      intro entry isOwner
      simp [owned entry isOwner, Ne.symm same]

theorem flagsOf_flagEach (next : ℕ) {entries : List LocalRP}
    (bare : ∀ entry ∈ entries, entry.flag = none) :
    flagsOf (client.flagEach next entries) =
      List.range' next (flagsOf (client.flagEach next entries)).length := by
  induction entries generalizing next with
  | nil => rfl
  | cons entry rest inductionHypothesis =>
      have bareRest := fun other member => bare other (List.mem_cons_of_mem entry member)
      rw [flagEach]
      split
      · rw [flagsOf_cons]
        simp only [Option.toList_some, List.singleton_append, List.length_cons,
          List.range'_succ]
        rw [← inductionHypothesis (next + 1) bareRest]
      · rw [flagsOf_cons, bare entry (by simp)]
        exact inductionHypothesis next bareRest

theorem whole_flagEach (next : ℕ) {entries : List LocalRP}
    (seen : ∀ entry ∈ entries, client.seesOwner entry = true) :
    Whole (client.flagEach next entries) := by
  induction entries generalizing next with
  | nil => exact List.forall_mem_nil _
  | cons entry rest inductionHypothesis =>
      rw [flagEach, if_pos (seen entry (by simp))]
      exact whole_cons.mpr ⟨⟨_, next, rfl, rfl⟩,
        inductionHypothesis (next + 1) fun other member => seen other (by simp [member])⟩

theorem marksOf_flagEach (next : ℕ) (entries : List LocalRP) :
    marksOf person (client.flagEach next entries) = marksOf person (entries.map some) := by
  induction entries generalizing next with
  | nil => rfl
  | cons entry rest inductionHypothesis =>
      rw [flagEach, List.map_cons, marksOf_cons]
      split
      · rw [marksOf_cons, inductionHypothesis]
      · rw [marksOf_cons, inductionHypothesis]

theorem flagEach_unseen (next : ℕ) {entries : List LocalRP} {entry : LocalRP}
    (member : entry ∈ entries) (unseen : client.seesOwner entry = false) :
    some entry ∈ client.flagEach next entries := by
  induction entries generalizing next with
  | nil => cases member
  | cons other rest inductionHypothesis =>
      rw [flagEach]
      rcases List.mem_cons.mp member with rfl | later
      · simp [unseen]
      · split
        · exact List.mem_cons_of_mem _ (inductionHypothesis (next + 1) later)
        · exact List.mem_cons_of_mem _ (inductionHypothesis next later)

theorem localRP_flag (blck : Blck Person ℚ) : (client.localRP blck).flag = none := by
  cases blck <;> rfl

theorem marksOf_localRP (sees : client.sees person = true) (blcks : List (Blck Person ℚ)) :
    marksOf person ((blcks.map client.localRP).map some) = blckMarks person blcks := by
  have owned (object : Person) :
      (if client.present object then some object else none) = some person ↔ object = person := by
    constructor
    · intro same
      split at same
      · exact Option.some.inj same
      · cases same
    · rintro rfl
      rw [if_pos (present_of_sees sees)]
  rw [marksOf, List.filterMap_map, List.filterMap_map, blckMarks]
  apply List.filterMap_congr
  intro blck _
  cases blck with
  | empty => simp [localRP]
  | person object => simp [localRP, owned]
  | rally object vote coordinates => simp [localRP, owned]

theorem marks_synchAllRP (sees : client.sees person = true) (data : Text) :
    (client.synchAllRP format data).list.map (marksOf person) =
      some ((client.list.map (marksOf person)).getD
        (blckMarks person (Zones.synchAllRP format data))) := by
  unfold RallyClient.synchAllRP
  split
  · rename_i entries listed
    rw [listed]
    rfl
  · rename_i nil
    rw [nil, Option.map_some, marksOf_flagEach, marksOf_localRP sees]
    rfl

end Handling

end RallyClient

/-- The answer that comes next names units that the client sees, unless it is not looked at. -/
def RallyClient.sighted (format : FieldStrings Person ℚ) (client : RallyClient) : Bool :=
  match client.list, client.channel with
  | none, .synchAllRP data :: _ =>
      (Zones.synchAllRP format data).all fun blck => client.seesOwner (client.localRP blck)
  | _, _ => true

namespace RallyClient

variable {client : RallyClient} {person : Person} {format : FieldStrings Person ℚ}

theorem marks_handle (clean : client.Clean) (sees : client.sees person = true)
    (message : RallyMessage) :
    (client.handle format message).list.map (marksOf person) =
      (message.notice format person).follow (RallyChange.on person)
        (client.list.map (marksOf person)) := by
  match message with
  | .told (.createRP owner position) => exact marks_createRP sees owner position
  | .told (.updateRP owner vote) => exact marks_updateRP clean sees owner vote
  | .told (.deleteRP owner) => exact marks_deleteRP clean sees owner
  | .synchAllRP data => exact marks_synchAllRP sees data

theorem Clean.synchAllRP (clean : client.Clean) {data : Text}
    (seen : client.list = none → ∀ blck ∈ Zones.synchAllRP format data,
      client.seesOwner (client.localRP blck) = true) :
    (client.synchAllRP format data).Clean := by
  unfold RallyClient.synchAllRP
  split
  · exact clean
  · rename_i nil
    have noFlags : client.flags = [] := by rw [clean.flags, nil]; rfl
    have bare : ∀ entry ∈ (Zones.synchAllRP format data).map client.localRP, entry.flag = none := by
      intro entry member
      obtain ⟨blck, -, rfl⟩ := List.mem_map.mp member
      exact localRP_flag blck
    have numbered := @flagsOf_flagEach client client.nextFlag _ bare
    constructor
    · intro entries same
      cases same
      apply whole_flagEach
      intro entry member
      obtain ⟨blck, listed, rfl⟩ := List.mem_map.mp member
      exact seen nil blck listed
    · simp [noFlags]
    · intro flag member
      simp only [noFlags, List.nil_append] at member
      rw [numbered, List.mem_range'_1] at member
      exact member.2
    · simp only [noFlags, List.nil_append]
      rw [numbered]
      exact List.nodup_range'

theorem Clean.handle (clean : client.Clean) (message : RallyMessage)
    (seen : client.list = none → ∀ data, message = .synchAllRP data →
      ∀ blck ∈ Zones.synchAllRP format data, client.seesOwner (client.localRP blck) = true) :
    (client.handle format message).Clean := by
  match message with
  | .told (.createRP owner position) => exact clean.createRP owner position
  | .told (.updateRP owner vote) => exact clean.updateRP owner vote
  | .told (.deleteRP owner) => exact clean.deleteRP owner
  | .synchAllRP data => exact clean.synchAllRP fun nil => seen nil data rfl

theorem Clean.deliver (clean : client.Clean) {message : RallyMessage} {rest : List RallyMessage}
    (next : client.channel = message :: rest) (seen : client.sighted format = true) :
    (({ client with channel := rest } : RallyClient).handle format message).Clean := by
  have arrived : ({ client with channel := rest } : RallyClient).Clean :=
    ⟨clean.whole, clean.flags, clean.fresh, clean.distinct⟩
  apply arrived.handle
  rintro empty data rfl blck member
  have isNil : client.list = none := empty
  rw [sighted, isNil, next] at seen
  exact List.all_eq_true.mp seen blck member

theorem handle_keeps (message : RallyMessage) :
    (client.handle format message).channel = client.channel ∧
      (client.handle format message).present = client.present ∧
      (client.handle format message).alive = client.alive := by
  match message with
  | .told (.createRP owner position) =>
      simp only [handle, RallyClient.createRP]
      split
      · exact ⟨rfl, rfl, rfl⟩
      · split <;> exact ⟨rfl, rfl, rfl⟩
  | .told (.updateRP owner vote) =>
      simp only [handle, RallyClient.updateRP]
      split
      · exact ⟨rfl, rfl, rfl⟩
      · split <;> exact ⟨rfl, rfl, rfl⟩
  | .told (.deleteRP owner) =>
      simp only [handle, RallyClient.deleteRP]
      split <;> exact ⟨rfl, rfl, rfl⟩
  | .synchAllRP data =>
      simp only [handle, RallyClient.synchAllRP]
      split <;> exact ⟨rfl, rfl, rfl⟩

/-! ### Frames -/

/-- On a clean list a frame comes to its end, and takes away the elements of units that the
client does not see. -/
theorem Clean.frame (clean : client.Clean) (zoomed : Bool) :
    (client.frame zoomed).2 = true ∧ (client.frame zoomed).1.Clean ∧
      (client.frame zoomed).1.list = client.list.map fun entries =>
        entries.filter fun element => element.all client.seesOwner := by
  unfold RallyClient.frame
  split
  · rename_i nil
    exact ⟨rfl, clean, by rw [nil]; rfl⟩
  · rename_i entries listed
    have whole := clean.whole entries listed
    have drawn : (zoomed && entries.any fun element =>
        !element.any fun entry => entry.flag.isSome) = false := by
      rw [Bool.and_eq_false_iff]
      right
      rw [List.any_eq_false]
      intro element member
      obtain ⟨entry, flag, rfl, flagged⟩ := whole element member
      simp [flagged]
    rw [drawn, listed]
    have struck := clean.afterStrikes listed (fun entry => !client.seesOwner entry) fun _ => true
    refine ⟨(strikeEach_whole _ _ whole).1, struck.1, struck.2.trans ?_⟩
    rw [Option.map_some, Option.some.injEq]
    apply List.filter_congr
    intro element _
    cases element <;> simp

theorem frame_keeps (zoomed : Bool) :
    (client.frame zoomed).1.channel = client.channel ∧
      (client.frame zoomed).1.present = client.present ∧
      (client.frame zoomed).1.alive = client.alive := by
  unfold RallyClient.frame
  split
  · exact ⟨rfl, rfl, rfl⟩
  · split <;> exact ⟨rfl, rfl, rfl⟩

theorem marks_frame (clean : client.Clean) (sees : client.sees person = true) (zoomed : Bool) :
    (client.frame zoomed).1.list.map (marksOf person) = client.list.map (marksOf person) := by
  rw [(clean.frame zoomed).2.2, Option.map_map]
  congr 1
  funext entries
  apply marksOf_filter_keep
  intro entry owned
  simp [seesOwner, owned, sees]

/-! ### An element without a flag -/

section Elements

variable {entries : List (Option LocalRP)} {entry : LocalRP} {strikes reads : LocalRP → Bool}

theorem mem_strikeEach (member : some entry ∈ entries) (bare : entry.flag = none) :
    some entry ∈ (strikeEach strikes reads entries).list := by
  induction entries with
  | nil => cases member
  | cons element rest inductionHypothesis =>
      cases element with
      | none => exact member
      | some other =>
          rw [strikeEach]
          rcases List.mem_cons.mp member with same | later
          · cases same
            split
            · rw [bare]
              exact List.mem_cons_self
            · exact List.mem_cons_self
          · have kept := inductionHypothesis later
            split
            · split
              · exact List.mem_cons_of_mem _ later
              · split
                · exact List.mem_cons_of_mem _ kept
                · exact List.mem_cons_of_mem _ kept
            · exact List.mem_cons_of_mem _ kept

/-- A loop that looks for the flag of such an element does not come to its end. -/
theorem strikeEach_not_ended (member : some entry ∈ entries) (bare : entry.flag = none)
    (read : (strikes entry || reads entry) = true) :
    (strikeEach strikes reads entries).ended = false := by
  induction entries with
  | nil => cases member
  | cons element rest inductionHypothesis =>
      cases element with
      | none => rfl
      | some other =>
          rw [strikeEach]
          rcases List.mem_cons.mp member with same | later
          · cases same
            rw [if_pos read, bare]
          · have failed := inductionHypothesis later
            split
            · split
              · rfl
              · split <;> exact failed
            · exact failed

theorem mem_afterStrikes (member : some entry ∈ entries) (bare : entry.flag = none) :
    ∃ left, (client.afterStrikes (strikeEach strikes reads entries)).list = some left ∧
      some entry ∈ left := by
  have kept := @mem_strikeEach entries entry strikes reads member bare
  refine ⟨_, rfl, ?_⟩
  split
  · exact List.mem_filter.mpr ⟨kept, rfl⟩
  · exact kept

theorem mem_voteEach (person : Person) (vote : ℚ) (member : some entry ∈ entries) :
    ∃ voted, some voted ∈ voteEach person vote entries ∧ voted.person = entry.person ∧
      voted.flag = entry.flag := by
  induction entries with
  | nil => cases member
  | cons element rest inductionHypothesis =>
      cases element with
      | none => exact ⟨entry, member, rfl, rfl⟩
      | some other =>
          rw [voteEach]
          split
          · rcases List.mem_cons.mp member with same | later
            · cases same
              exact ⟨_, List.mem_cons_self, rfl, rfl⟩
            · exact ⟨entry, List.mem_cons_of_mem _ later, rfl, rfl⟩
          · rcases List.mem_cons.mp member with same | later
            · cases same
              exact ⟨entry, List.mem_cons_self, rfl, rfl⟩
            · obtain ⟨voted, listed, owner, flag⟩ := inductionHypothesis later
              exact ⟨voted, List.mem_cons_of_mem _ listed, owner, flag⟩

end Elements

theorem Clean.not_broken (clean : client.Clean) : ¬client.Broken := by
  rintro ⟨person, entries, entry, listed, member, -, bare⟩
  obtain ⟨same, flag, isEntry, flagged⟩ := clean.whole entries listed _ member
  cases isEntry
  rw [bare] at flagged
  cases flagged

theorem Lacks.handle {owner : Option Person} (lacks : client.Lacks owner)
    (message : RallyMessage) : (client.handle format message).Lacks owner := by
  obtain ⟨entries, entry, listed, member, owned, bare⟩ := lacks
  match message with
  | .told (.createRP person position) =>
      simp only [RallyClient.handle, RallyClient.createRP, listed]
      split
      · exact ⟨_, entry, rfl, List.mem_append_left _ member, owned, bare⟩
      · exact ⟨entries, entry, listed, member, owned, bare⟩
  | .told (.updateRP person vote) =>
      simp only [RallyClient.handle, RallyClient.updateRP, listed]
      split
      · obtain ⟨voted, inside, same, flag⟩ := mem_voteEach person vote member
        exact ⟨_, voted, rfl, inside, same.trans owned, flag.trans bare⟩
      · exact ⟨entries, entry, listed, member, owned, bare⟩
  | .told (.deleteRP person) =>
      simp only [RallyClient.handle, RallyClient.deleteRP, listed]
      obtain ⟨left, isLeft, inLeft⟩ := mem_afterStrikes member bare
      exact ⟨left, entry, isLeft, inLeft, owned, bare⟩
  | .synchAllRP data =>
      simp only [RallyClient.handle, RallyClient.synchAllRP, listed]
      exact ⟨entries, entry, listed, member, owned, bare⟩

theorem Lacks.frame {owner : Option Person} (lacks : client.Lacks owner) (zoomed : Bool) :
    (client.frame zoomed).2 = false ∧ (client.frame zoomed).1.Lacks owner := by
  obtain ⟨entries, entry, listed, member, owned, bare⟩ := lacks
  simp only [RallyClient.frame, listed]
  split
  · exact ⟨rfl, entries, entry, listed, member, owned, bare⟩
  · obtain ⟨left, isLeft, inLeft⟩ := @mem_afterStrikes client entries entry
      (fun entry => !client.seesOwner entry) (fun _ => true) member bare
    exact ⟨strikeEach_not_ended member bare (by simp),
      left, entry, isLeft, inLeft, owned, bare⟩

/-- An answer with a unit that the client does not see breaks its list. -/
theorem broken_synchAllRP (empty : client.list = none) {data : Text} {blck : Blck Person ℚ}
    (member : blck ∈ Zones.synchAllRP format data)
    (unseen : client.seesOwner (client.localRP blck) = false) :
    (client.synchAllRP format data).Broken := by
  rw [RallyClient.synchAllRP, empty]
  exact ⟨_, _, client.localRP blck, rfl,
    flagEach_unseen _ (List.mem_map_of_mem member) unseen, rfl, localRP_flag blck⟩

theorem broken_of_not_sighted {message : RallyMessage} {rest : List RallyMessage}
    (next : client.channel = message :: rest) (unsighted : client.sighted format = false) :
    (({ client with channel := rest } : RallyClient).handle format message).Broken := by
  unfold sighted at unsighted
  split at unsighted
  · rename_i data later empty channel
    rw [next] at channel
    cases channel
    obtain ⟨blck, member, notSeen⟩ := List.all_eq_false.mp unsighted
    have unseen : client.seesOwner (client.localRP blck) = false := by simpa using notSeen
    exact @broken_synchAllRP { client with channel := rest } format empty data blck member unseen
  · cases unsighted

end RallyClient

end OperationFrontLine.Zones
