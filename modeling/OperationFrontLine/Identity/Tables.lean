import OperationFrontLine.Library.GeneralFormat
import OperationFrontLine.Library.Run
import OperationFrontLine.Library.Script

/-!
# The identity tables

`PCS_FNC_TABLE` as the connection scripts use it: the owner number of a UID, the
ID of an owner number, and the UID and the name of an ID, all under variable
names of one object.  IDs are strings made of a counter of bytes.
-/

namespace OperationFrontLine.Identity

open OperationFrontLine.Library

inductive Value where
  | number (value : ℤ)
  | text (value : Text)
  deriving DecidableEq, Repr

/-- `format ["%1", value]` -/
def Value.print : Value → Text
  | number value => printGeneral value
  | text value => value

@[simp]
theorem Value.print_text (value : Text) : (Value.text value).print = value := rfl

inductive Kind where
  | client
  | id
  | uid
  | name
  deriving DecidableEq, Repr

def Kind.suffix : Kind → Text
  | client => "_CLIENT".toList
  | id => "_ID".toList
  | uid => "_UID".toList
  | name => "_NAME".toList

/-- The engine does not tell variable names apart that differ in case only. -/
def fold (name : Text) : Text := name.map Char.toLower

/-- `format ["PCS_%1_…", subject]`, as the engine looks it up. -/
def variableName (kind : Kind) (subject : Value) : Text :=
  fold ("PCS_".toList ++ subject.print ++ kind.suffix)

theorem fold_append (first second : Text) : fold (first ++ second) = fold first ++ fold second :=
  List.map_append

theorem kind_eq_of_suffix {kind other : Kind}
    (same : (fold kind.suffix).reverse.take 3 = (fold other.suffix).reverse.take 3) :
    kind = other := by
  revert same
  cases kind <;> cases other <;> decide

theorem take_variableName (kind : Kind) (subject : Value) :
    (variableName kind subject).reverse.take 3 = (fold kind.suffix).reverse.take 3 := by
  rw [variableName, fold_append, List.reverse_append, List.take_append_of_le_length]
  cases kind <;> decide

@[simp]
theorem variableName_eq_iff {kind other : Kind} {subject different : Value} :
    variableName kind subject = variableName other different ↔
      kind = other ∧ fold subject.print = fold different.print := by
  constructor
  · intro same
    have sameKind : kind = other := by
      refine kind_eq_of_suffix ?_
      rw [← take_variableName kind subject, same, take_variableName]
    subst sameKind
    refine ⟨rfl, ?_⟩
    simp only [variableName, fold_append] at same
    exact List.append_cancel_left (List.append_cancel_right same)
  · rintro ⟨rfl, same⟩
    simp only [variableName, fold_append, same]

/-- An element of `PCS_CLIENT_IDS`: a byte, or the array that `pushBack [1]` appends. -/
inductive IdByte where
  | byte (value : ℕ)
  | array (values : List ℕ)
  deriving DecidableEq, Repr

structure Tables where
  /-- `PCS_CLIENT_IDS` -/
  clientIds : List IdByte
  /-- `PCS_CLIENT_IDS_INDEX` -/
  clientIdsIndex : ℕ
  /-- `PCS_UID_CONNECTIONS_LIST` -/
  connections : List Text
  /-- `PCS_FNC_TABLE` -/
  table : Text → Option Value

namespace Tables

def initial : Tables where
  clientIds := [.byte 1]
  clientIdsIndex := 0
  connections := []
  table _ := none

def setVariable (tables : Tables) (name : Text) (value : Option Value) : Tables :=
  { tables with table := Function.update tables.table name value }

def uidToTemp (tables : Tables) (uid : Value) : Value :=
  (tables.table (variableName .client uid)).getD (.number (-1))

def tempToId (tables : Tables) (temp : Value) : Value :=
  (tables.table (variableName .id temp)).getD (.text [])

def idToUid (tables : Tables) (id : Value) : Value :=
  (tables.table (variableName .uid id)).getD (.text [])

def uidToId (tables : Tables) (uid : Value) : Value := tables.tempToId (tables.uidToTemp uid)

def tempToUid (tables : Tables) (temp : Value) : Value := tables.idToUid (tables.tempToId temp)

def idToTemp (tables : Tables) (id : Value) : Value := tables.uidToTemp (tables.idToUid id)

end Tables

/-- `toString` of an array, which must hold numbers only. -/
def toString? (bytes : List IdByte) : Option Text :=
  bytes.mapM fun
    | .byte value => some (Char.ofNat value)
    | .array _ => none

/-- The loop of `AddConnection.sqf` over `PCS_CLIENT_IDS`: one byte is counted up,
and the next one only if it wrapped.  What it gives are the bytes and the index;
adding 1 to an array is an error. -/
def countUp (index : ℕ) : ℕ → List IdByte → Outcome (List IdByte × ℕ)
  | _, [] => .finished ([], index)
  | _, .array values :: rest => .stopped (.array values :: rest, index)
  | position, .byte value :: rest =>
      let next := if value + 1 < 256 then value + 1 else 1
      if 1 < next then .finished (.byte next :: rest, index)
      else if position = index then
        .finished (.byte next :: (rest ++ [.array [1]]), index + 1)
      else
        match countUp index (position + 1) rest with
        | .finished (bytes, last) => .finished (.byte next :: bytes, last)
        | .stopped (bytes, last) => .stopped (.byte next :: bytes, last)

namespace Tables

def nextId (tables : Tables) : Outcome Tables :=
  match countUp tables.clientIdsIndex 0 tables.clientIds with
  | .finished (bytes, last) =>
      .finished { tables with clientIds := bytes, clientIdsIndex := last }
  | .stopped (bytes, last) =>
      .stopped { tables with clientIds := bytes, clientIdsIndex := last }

/-- `PCS_AddConnection`, less the lists that `PCS_LogConnection` keeps. -/
def addConnection (uid name : Text) (owner : ℕ) (tables : Tables) : Outcome Tables :=
  tables.nextId.andThen fun counted =>
    let listed := { counted with connections := pushBackUnique counted.connections uid }
    let known := listed.setVariable (variableName .client (.text uid)) (some (.number owner))
    match toString? known.clientIds with
    | none => .stopped known
    | some id =>
        .finished <|
          ((known.setVariable (variableName .id (.number owner)) (some (.text id))).setVariable
            (variableName .uid (.text id)) (some (.text uid))).setVariable
              (variableName .name (.text id)) (some (.text name))

def removeConnection (uid : Text) (tables : Tables) : Tables :=
  let owner := tables.uidToTemp (.text uid)
  let id := tables.tempToId owner
  let unlisted := { tables with connections := without tables.connections uid }
  (((unlisted.setVariable (variableName .client (.text uid)) none).setVariable
    (variableName .id owner) none).setVariable (variableName .uid id) none).setVariable
      (variableName .name id) none

end Tables

inductive Event where
  | connect (uid name : Text) (owner : ℕ)
  | disconnect (uid : Text)
  deriving DecidableEq, Repr

/-- The tables, with what the engine knows: the clients that are connected, the IDs of
those that have left, and the number of connections so far. -/
structure Directory where
  tables : Tables
  connected : List (Text × ℕ)
  former : List Value
  issued : ℕ

namespace Directory

def initial : Directory where
  tables := .initial
  connected := []
  former := []
  issued := 0

/-- No UID connects twice, none is empty (that is the server's, which
`PCS_OnConnected` skips), and no two clients share an owner number. -/
def step (directory : Directory) : Event → Option Directory
  | .connect uid name owner =>
      if uid ≠ [] ∧ ∀ client ∈ directory.connected, client.1 ≠ uid ∧ client.2 ≠ owner then
        some
          { directory with
            tables := (directory.tables.addConnection uid name owner).state
            connected := (uid, owner) :: directory.connected
            issued := directory.issued + 1 }
      else none
  | .disconnect uid =>
      if uid ∈ directory.connected.map Prod.fst then
        some
          { directory with
            tables := directory.tables.removeConnection uid
            connected := directory.connected.filter fun client => client.1 ≠ uid
            former := directory.tables.uidToId (.text uid) :: directory.former }
      else none

/-- Only connected clients have an owner number in the tables. -/
def OwnersConnected (directory : Directory) : Prop :=
  ∀ uid, directory.tables.table (variableName .client uid) ≠ none →
    ∃ client ∈ directory.connected, fold client.1 = fold uid.print

theorem ownersConnected_initial : OwnersConnected initial :=
  fun _ known => absurd rfl known

theorem nextId_table (tables : Tables) : tables.nextId.state.table = tables.table := by
  unfold Tables.nextId
  split <;> rfl

/-- A connection writes one owner number, or none when the counter is broken. -/
theorem owner_of_addConnection {uid name : Text} {owner : ℕ} {tables : Tables} {subject : Value}
    (known : (tables.addConnection uid name owner).state.table
      (variableName .client subject) ≠ none) :
    tables.table (variableName .client subject) ≠ none ∨ fold uid = fold subject.print := by
  have before := nextId_table tables
  unfold Tables.addConnection at known
  cases counted : tables.nextId with
  | stopped broken =>
      rw [counted] at known before
      exact .inl (before ▸ known)
  | finished counted' =>
      rw [counted] at known before
      by_cases same : fold uid = fold subject.print
      · exact .inr same
      · left
        rw [← before]
        simp only [Outcome.finished_andThen] at known
        split at known <;>
          simpa [Outcome.state, Tables.setVariable, Function.update_apply, Ne.symm same]
            using known

theorem owner_of_removeConnection {uid : Text} {tables : Tables} {subject : Value}
    (known : (tables.removeConnection uid).table (variableName .client subject) ≠ none) :
    tables.table (variableName .client subject) ≠ none ∧ fold uid ≠ fold subject.print := by
  by_cases same : fold uid = fold subject.print
  · simp [Tables.removeConnection, Tables.setVariable, Function.update_apply, same] at known
  · refine ⟨?_, same⟩
    simpa [Tables.removeConnection, Tables.setVariable, Function.update_apply, Ne.symm same]
      using known

theorem OwnersConnected.step {directory after : Directory} (owners : OwnersConnected directory)
    {event : Event} (stepped : directory.step event = some after) : OwnersConnected after := by
  intro subject known
  cases event with
  | connect uid name owner =>
      simp only [Directory.step, Option.ite_none_right_eq_some, Option.some.injEq] at stepped
      obtain ⟨-, rfl⟩ := stepped
      rcases owner_of_addConnection known with old | new
      · obtain ⟨client, member, same⟩ := owners subject old
        exact ⟨client, List.mem_cons_of_mem _ member, same⟩
      · exact ⟨(uid, owner), List.mem_cons_self, new⟩
  | disconnect uid =>
      simp only [Directory.step, Option.ite_none_right_eq_some, Option.some.injEq] at stepped
      obtain ⟨-, rfl⟩ := stepped
      obtain ⟨old, other⟩ := owner_of_removeConnection known
      obtain ⟨client, member, same⟩ := owners subject old
      refine ⟨client, List.mem_filter.mpr ⟨member, ?_⟩, same⟩
      refine decide_eq_true fun left => other ?_
      rw [← left, same]

end Directory

end OperationFrontLine.Identity
