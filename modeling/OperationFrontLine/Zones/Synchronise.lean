import OperationFrontLine.Library.Numeral
import OperationFrontLine.Zones.Rally

/-!
# Rally points for a new client

`RequestAllRP` sends the rally points of the server as one string with `|` between the
fields, and `SynchAllRP` reads it back with a counter that goes through the fields of a
record.
-/

namespace OperationFrontLine.Zones

open OperationFrontLine.Library

def pipe : Char := '|'

/-- How objects and numbers are written into a string and read again. -/
structure FieldStrings (Object Number : Type) where
  netId : Object → Text
  objectFromNetId : Text → Object
  printNumber : Number → Text
  parseNumber : Text → Number
  objectFromNetId_netId : ∀ object, objectFromNetId (netId object) = object
  netId_ne_nil : ∀ object, netId object ≠ []
  printNumber_ne_nil : ∀ number, printNumber number ≠ []
  pipe_notMem_netId : ∀ object, pipe ∉ netId object
  pipe_notMem_printNumber : ∀ number, pipe ∉ printNumber number

/-- For numbers that are written with all their digits. -/
structure FieldFormat (Object Number : Type) extends FieldStrings Object Number where
  parseNumber_printNumber : ∀ number, parseNumber (printNumber number) = number

structure RallyRecord (Object Number : Type) where
  person : Object
  vote : Number
  x : Number
  y : Number
  z : Number
  deriving DecidableEq

/-- `_blck`: nothing, an object, or an object with a vote and coordinates. -/
inductive Blck (Object Number : Type) where
  | empty
  | person (object : Object)
  | rally (object : Object) (vote : Number) (coordinates : List Number)
  deriving DecidableEq

structure Decoding (Object Number : Type) where
  localRPList : List (Blck Object Number)
  blck : Blck Object Number
  blckCount : ℕ

/-- `joinString "|"` -/
def joinString (fields : List Text) : Text := [pipe].intercalate fields

/-- `splitString "|"`, which leaves out empty fields -/
def splitString (text : Text) : List Text := (text.splitOn pipe).filter (· ≠ [])

def countLoop {State Element : Type} (block : State → Element → State × Bool) :
    State → List Element → State × ℕ
  | state, [] => (state, 0)
  | state, element :: elements =>
      let rest := countLoop block (block state element).1 elements
      (rest.1, if (block state element).2 then rest.2 + 1 else rest.2)

section Format

variable {Object Number : Type} (format : FieldStrings Object Number)

namespace Blck

/-- `_blck pushBack (objectFromNetId _x)` -/
def pushObject (blck : Blck Object Number) (object : Object) : Blck Object Number :=
  match blck with
  | empty => person object
  | other => other

/-- `_blck pushBack (parseNumber _x); _blck pushBack []` -/
def pushVote (blck : Blck Object Number) (vote : Number) : Blck Object Number :=
  match blck with
  | person object => rally object vote []
  | other => other

/-- `(_blck select 2) pushBack (parseNumber _x)` -/
def pushCoordinate (blck : Blck Object Number) (coordinate : Number) : Blck Object Number :=
  match blck with
  | rally object vote coordinates => rally object vote (coordinates ++ [coordinate])
  | other => other

end Blck

/-- The block of the loop in `SynchAllRP`, which ends with `false`. -/
def decodeField (decoding : Decoding Object Number) (field : Text) :
    Decoding Object Number × Bool :=
  if decoding.blckCount = 0 then
    ({ decoding with
      blck := decoding.blck.pushObject (format.objectFromNetId field)
      blckCount := decoding.blckCount + 1 }, false)
  else if decoding.blckCount = 1 then
    ({ decoding with
      blck := decoding.blck.pushVote (format.parseNumber field)
      blckCount := decoding.blckCount + 1 }, false)
  else
    let blck := decoding.blck.pushCoordinate (format.parseNumber field)
    if decoding.blckCount < 4 then
      ({ decoding with blck := blck, blckCount := decoding.blckCount + 1 }, false)
    else
      (⟨decoding.localRPList ++ [blck], .empty, 0⟩, false)

/-- `SynchAllRP` up to the check of the size, when there is no `OPFL_LOCAL_RP_LIST` yet. -/
def synchAllRP (text : Text) : List (Blck Object Number) :=
  if text = [] then []
  else
    let (decoding, size) := countLoop (decodeField format) ⟨[], .empty, 0⟩ (splitString text)
    if size % 4 ≠ 0 then [] else decoding.localRPList

namespace RallyRecord

/-- What `RequestAllRP` appends to `_send` for a rally point. -/
def fields (record : RallyRecord Object Number) : List Text :=
  [format.netId record.person, format.printNumber record.vote, format.printNumber record.x,
    format.printNumber record.y, format.printNumber record.z]

def blck (record : RallyRecord Object Number) : Blck Object Number :=
  .rally record.person record.vote [record.x, record.y, record.z]

/-- A record with the numbers that are read from its fields. -/
def reread (record : RallyRecord Object Number) : RallyRecord Object Number where
  person := record.person
  vote := format.parseNumber (format.printNumber record.vote)
  x := format.parseNumber (format.printNumber record.x)
  y := format.parseNumber (format.printNumber record.y)
  z := format.parseNumber (format.printNumber record.z)

theorem map_reread (format : FieldFormat Object Number)
    (records : List (RallyRecord Object Number)) :
    records.map (RallyRecord.reread format.toFieldStrings) = records := by
  refine (List.map_congr_left fun record _ => ?_).trans (List.map_id records)
  simp only [reread, format.parseNumber_printNumber, id]

end RallyRecord

def sendString (records : List (RallyRecord Object Number)) : Text :=
  if records = [] then [] else joinString (records.flatMap (·.fields format))

section Decoding

def decodeFields (decoding : Decoding Object Number) (fields : List Text) :
    Decoding Object Number :=
  fields.foldl (fun sofar field => (decodeField format sofar field).1) decoding

theorem decodeFields_append (decoding : Decoding Object Number) (first second : List Text) :
    decodeFields format decoding (first ++ second) =
      decodeFields format (decodeFields format decoding first) second :=
  List.foldl_append

theorem decodeField_false (decoding : Decoding Object Number) (field : Text) :
    (decodeField format decoding field).2 = false := by
  unfold decodeField
  split
  · rfl
  · split
    · rfl
    · dsimp only
      split <;> rfl

theorem countLoop_decodeField (decoding : Decoding Object Number) (fields : List Text) :
    countLoop (decodeField format) decoding fields =
      (decodeFields format decoding fields, 0) := by
  induction fields generalizing decoding with
  | nil => rfl
  | cons field fields inductionHypothesis =>
      rw [countLoop, inductionHypothesis, decodeField_false]
      rfl

theorem synchAllRP_eq (text : Text) :
    synchAllRP format text =
      (decodeFields format ⟨[], .empty, 0⟩ (splitString text)).localRPList := by
  unfold synchAllRP
  split
  case isTrue isEmpty =>
    subst isEmpty
    rfl
  case isFalse => simp [countLoop_decodeField]

theorem decodeFields_five (localRPList : List (Blck Object Number))
    (first second third fourth fifth : Text) :
    decodeFields format ⟨localRPList, .empty, 0⟩ [first, second, third, fourth, fifth] =
      ⟨localRPList ++ [.rally (format.objectFromNetId first) (format.parseNumber second)
        [format.parseNumber third, format.parseNumber fourth, format.parseNumber fifth]],
        .empty, 0⟩ := rfl

theorem decodeFields_record (localRPList : List (Blck Object Number))
    (record : RallyRecord Object Number) :
    decodeFields format ⟨localRPList, .empty, 0⟩ (record.fields format) =
      ⟨localRPList ++ [(record.reread format).blck], .empty, 0⟩ := by
  rw [RallyRecord.fields, decodeFields_five, format.objectFromNetId_netId]
  rfl

theorem decodeFields_records (localRPList : List (Blck Object Number))
    (records : List (RallyRecord Object Number)) :
    decodeFields format ⟨localRPList, .empty, 0⟩ (records.flatMap (·.fields format)) =
      ⟨localRPList ++ (records.map (·.reread format)).map RallyRecord.blck, .empty, 0⟩ := by
  induction records generalizing localRPList with
  | nil => simp [decodeFields]
  | cons record records inductionHypothesis =>
      rw [List.flatMap_cons, decodeFields_append, decodeFields_record, inductionHypothesis]
      simp

theorem length_decodeFields (localRPList : List (Blck Object Number)) (fields : List Text) :
    (decodeFields format ⟨localRPList, .empty, 0⟩ fields).localRPList.length =
      localRPList.length + fields.length / 5 := by
  induction count : fields.length using Nat.strong_induction_on
    generalizing fields localRPList with
  | _ count inductionHypothesis =>
      rcases fields with _ | ⟨first, _ | ⟨second, _ | ⟨third, _ | ⟨fourth, _ | ⟨fifth, rest⟩⟩⟩⟩⟩
      case cons.cons.cons.cons.cons =>
        have later := inductionHypothesis rest.length (by
          rw [← count]
          simp only [List.length_cons]
          omega)
          (localRPList ++ [.rally (format.objectFromNetId first) (format.parseNumber second)
            [format.parseNumber third, format.parseNumber fourth, format.parseNumber fifth]])
          rest rfl
        have split : first :: second :: third :: fourth :: fifth :: rest =
            [first, second, third, fourth, fifth] ++ rest := rfl
        rw [split, decodeFields_append, decodeFields_five, later, ← count]
        simp only [List.length_append, List.length_cons, List.length_nil]
        omega
      all_goals
        subst count
        simp [decodeFields, decodeField]

end Decoding

section Strings

/-- What is joined from fields with something in them is split into them again. -/
theorem splitString_joinString {fields : List Text} (nonempty : fields ≠ [])
    (noPipe : ∀ field ∈ fields, pipe ∉ field) (filled : ∀ field ∈ fields, field ≠ []) :
    splitString (joinString fields) = fields := by
  rw [splitString, joinString, List.splitOn_intercalate pipe noPipe nonempty,
    List.filter_eq_self]
  intro field member
  simpa using filled field member

theorem mem_fields {record : RallyRecord Object Number} {field : Text}
    (member : field ∈ record.fields format) : pipe ∉ field ∧ field ≠ [] := by
  simp only [RallyRecord.fields, List.mem_cons, List.not_mem_nil, or_false] at member
  rcases member with rfl | rfl | rfl | rfl | rfl
  · exact ⟨format.pipe_notMem_netId _, format.netId_ne_nil _⟩
  all_goals exact ⟨format.pipe_notMem_printNumber _, format.printNumber_ne_nil _⟩

theorem synchAllRP_sendString (records : List (RallyRecord Object Number)) :
    synchAllRP format (sendString format records) =
      (records.map (·.reread format)).map RallyRecord.blck := by
  rw [synchAllRP_eq, sendString]
  split
  case isTrue isEmpty =>
    subst isEmpty
    rfl
  case isFalse nonempty =>
    obtain ⟨record, rest, rfl⟩ := List.exists_cons_of_ne_nil nonempty
    have each : ∀ field ∈ (record :: rest).flatMap (·.fields format),
        pipe ∉ field ∧ field ≠ [] := by
      intro field member
      obtain ⟨other, -, inside⟩ := List.mem_flatMap.mp member
      exact mem_fields format inside
    rw [splitString_joinString (by simp [RallyRecord.fields])
      (fun field member => (each field member).1)
      fun field member => (each field member).2, decodeFields_records]
    rfl

end Strings

/-- A string is treated as it should be exactly when its fields make whole records, or not
even one: a rest behind whole records does not make the client discard them. -/
theorem synchronised_iff (format : FieldFormat Object Number) (text : Text) :
    ((∀ records : List (RallyRecord Object Number),
        text = sendString format.toFieldStrings records →
          synchAllRP format.toFieldStrings text = records.map RallyRecord.blck) ∧
      ((splitString text).length % 5 ≠ 0 → synchAllRP format.toFieldStrings text = [])) ↔
      (splitString text).length % 5 = 0 ∨ (splitString text).length < 5 := by
  have length := length_decodeFields format.toFieldStrings [] (splitString text)
  rw [← synchAllRP_eq, List.length_nil, Nat.zero_add] at length
  constructor
  · rintro ⟨-, discards⟩
    by_cases whole : (splitString text).length % 5 = 0
    · exact .inl whole
    · rw [discards whole, List.length_nil] at length
      exact .inr (by omega)
  · intro condition
    refine ⟨?_, fun rest => ?_⟩
    · rintro records rfl
      rw [synchAllRP_sendString, RallyRecord.map_reread]
    · apply List.length_eq_zero_iff.mp
      omega

end Format

section Server

variable {Flag : Type} (format : FieldStrings Person ℚ)

/-- What `RequestAllRP` appends for an element; a variable without a value adds no field. -/
def sendFields (world : World) (state : State Flag) (entry : RallyEntry) : List Text :=
  match state.hasRP world entry.person, (state.person entry.person).rpPos with
  | true, some position =>
      format.netId entry.person ::
        ((state.person entry.person).rpVote.toList.map fun vote => format.printNumber vote) ++
        [format.printNumber position.x, format.printNumber position.y,
          format.printNumber position.z]
  | _, _ => []

/-- `RequestAllRP`: the string that it sends. -/
def requestAllRP (world : World) (state : State Flag) : Text :=
  let send := state.rpList.flatMap (sendFields format world state)
  if send = [] then [] else joinString send

def rallyRecord (world : World) (state : State Flag) (entry : RallyEntry) :
    Option (RallyRecord Person ℚ) :=
  match state.hasRP world entry.person, (state.person entry.person).rpPos,
      (state.person entry.person).rpVote with
  | true, some position, some vote =>
      some ⟨entry.person, vote, position.x, position.y, position.z⟩
  | _, _, _ => none

def activeRP (world : World) (state : State Flag) : List (RallyRecord Person ℚ) :=
  state.rpList.filterMap (rallyRecord world state)

variable {world : World} {state : State Flag}

theorem sendFields_eq (tracked : state.Tracked world.present state.rpList) (entry : RallyEntry) :
    sendFields format world state entry =
      (rallyRecord world state entry).toList.flatMap (·.fields format) := by
  unfold sendFields rallyRecord
  cases has : state.hasRP world entry.person with
  | false => rfl
  | true =>
      rw [State.hasRP, Bool.and_eq_true] at has
      have complete := tracked.complete entry.person has.1 has.2
      obtain ⟨position, hasPosition⟩ := Option.isSome_iff_exists.mp has.2
      obtain ⟨vote, hasVote⟩ := Option.isSome_iff_exists.mp complete.vote
      simp [hasPosition, hasVote, RallyRecord.fields]

/-- As long as the variables are complete, the string is that of the active rally points. -/
theorem requestAllRP_eq (tracked : state.Tracked world.present state.rpList) :
    requestAllRP format world state = sendString format (activeRP world state) := by
  have send : state.rpList.flatMap (sendFields format world state) =
      (activeRP world state).flatMap (·.fields format) := by
    rw [activeRP, List.filterMap_eq_flatMap_toList, List.flatMap_assoc]
    exact congrArg List.flatten (List.map_congr_left fun entry _ =>
      sendFields_eq format tracked entry)
  have empty : (activeRP world state).flatMap (·.fields format) = [] ↔
      activeRP world state = [] := by
    cases activeRP world state <;> simp [RallyRecord.fields]
  unfold requestAllRP sendString
  rw [send]
  simp only [empty]

/-- A client that joins reads the active rally points of the server, after any operations. -/
theorem synchAllRP_requestAllRP [DecidableEq Flag] {settings : Settings Flag}
    {zone : Flag → FlagZone} {events : List (RallyEvent Flag)} {session : RallySession Flag}
    (ran : run (RallySession.step settings) (.start zone settings) events = some session) :
    synchAllRP format (requestAllRP format (session.answers world) session.zones) =
      ((activeRP (session.answers world) session.zones).map (·.reread format)).map
        RallyRecord.blck := by
  have tracked : session.Tracked := run_invariant _
    (fun _ _ _ tracked stepped => RallySession.tracked_step settings tracked stepped)
    (RallySession.tracked_start settings zone) ran
  have sent := @requestAllRP_eq _ format (session.answers world) session.zones tracked
  rw [sent, synchAllRP_sendString]

end Server

def wholeFormat : FieldFormat ℕ ℤ where
  netId object := '2' :: ':' :: printNatural 10 object
  objectFromNetId text := ((readNatural 10 (text.drop 2)).map Prod.fst).getD 0
  printNumber := printInteger
  parseNumber text := ((readInteger 10 text).map Prod.fst).getD 0
  objectFromNetId_netId object := by
    have read := readNatural_printNatural (by decide : 1 < 10) (by decide) object (stops_nil 10)
    rw [List.append_nil] at read
    simp [read]
  parseNumber_printNumber number := by
    have read := readInteger_printInteger number (stops_nil 10)
    rw [List.append_nil] at read
    simp [read]
  netId_ne_nil object := by simp
  printNumber_ne_nil := printInteger_ne_nil
  pipe_notMem_netId object member := by
    simp only [List.mem_cons] at member
    rcases member with isTwo | isColon | digit
    · cases isTwo
    · cases isColon
    · have digits := printNatural_digits (by decide) (by decide) object pipe digit
      cases digits
  pipe_notMem_printNumber number member := by
    unfold printInteger at member
    split at member
    · rcases List.mem_cons.mp member with isMinus | digit
      · cases isMinus
      · cases printNatural_digits (by decide) (by decide) _ pipe digit
    · cases printNatural_digits (by decide) (by decide) _ pipe member

theorem synchronised_iff_record :
    synchAllRP wholeFormat.toFieldStrings
      (sendString wholeFormat.toFieldStrings [⟨7, 0, 10, -20, 30⟩]) =
        [.rally 7 0 [10, -20, 30]] :=
  ((synchronised_iff wholeFormat
    (sendString wholeFormat.toFieldStrings [⟨7, 0, 10, -20, 30⟩])).mpr (by decide +kernel)).1 _
      rfl

/-- A record and the network ID of the next one. -/
theorem truncated_record_kept :
    ¬∀ text : Text, (splitString text).length % 5 ≠ 0 →
      synchAllRP wholeFormat.toFieldStrings text = [] := by
  intro discards
  have kept := discards "2:7|0|10|20|30|2:8".toList (by decide +kernel)
  exact absurd kept (by decide +kernel)

end OperationFrontLine.Zones
