import OperationFrontLine.Identity.Tables

/-!
# The identity tables are mutually inverse

The first 95 IDs are single characters of which no two agree up to case, so their
variables do not meet.  The 96th is a lower-case letter whose capital was the 64th;
from then on a former ID, or that of another client, resolves to the new client.
-/

namespace OperationFrontLine.Identity

open OperationFrontLine.Library

/-- The ID with one byte. -/
def idOf (code : ℕ) : Value := .text [Char.ofNat code]

/-- Capitals come first: below the code of `a` no two characters agree up to case. -/
theorem code_eq_of_fold {code other : ℕ} (small : code ≤ 96) (otherSmall : other ≤ 96)
    (same : fold (idOf code).print = fold (idOf other).print) : code = other := by
  have distinct : ∀ code ≤ 96, ∀ other ≤ 96,
      (Char.ofNat code).toLower = (Char.ofNat other).toLower → code = other := by
    decide +kernel
  refine distinct code small other otherSmall ?_
  simpa [idOf, Value.print, fold] using same

namespace Directory

structure MutuallyInverse (directory : Directory) : Prop where
  id_uid : ∀ client ∈ directory.connected,
    directory.tables.idToUid (directory.tables.uidToId (.text client.1)) = .text client.1
  temp_uid : ∀ client ∈ directory.connected,
    directory.tables.tempToUid (directory.tables.uidToTemp (.text client.1)) = .text client.1
  id_temp : ∀ client ∈ directory.connected,
    directory.tables.idToTemp (directory.tables.uidToId (.text client.1)) =
      directory.tables.uidToTemp (.text client.1)
  distinct : ∀ client ∈ directory.connected, ∀ other ∈ directory.connected, client.1 ≠ other.1 →
    directory.tables.uidToId (.text client.1) ≠ directory.tables.uidToId (.text other.1)
  former : ∀ id ∈ directory.former, directory.tables.idToUid id = .text []

structure Registered (tables : Tables) (client : Text × ℕ) (code : ℕ) : Prop where
  owner : tables.table (variableName .client (.text client.1)) = some (.number client.2)
  id : tables.table (variableName .id (.number client.2)) = some (idOf code)
  uid : tables.table (variableName .uid (idOf code)) = some (.text client.1)

namespace Registered

variable {tables : Tables} {client : Text × ℕ} {code : ℕ}

theorem uidToTemp (registered : Registered tables client code) :
    tables.uidToTemp (.text client.1) = .number client.2 := by
  rw [Tables.uidToTemp, registered.owner, Option.getD_some]

theorem tempToId (registered : Registered tables client code) :
    tables.tempToId (.number client.2) = idOf code := by
  rw [Tables.tempToId, registered.id, Option.getD_some]

theorem uidToId (registered : Registered tables client code) :
    tables.uidToId (.text client.1) = idOf code := by
  rw [Tables.uidToId, registered.uidToTemp, registered.tempToId]

theorem idToUid (registered : Registered tables client code) :
    tables.idToUid (idOf code) = .text client.1 := by
  rw [Tables.idToUid, registered.uid, Option.getD_some]

end Registered

structure Intact (directory : Directory) : Prop where
  few : directory.issued ≤ 95
  clientIds : directory.tables.clientIds = [.byte (directory.issued + 1)]
  clientIdsIndex : directory.tables.clientIdsIndex = 0
  uids : ∀ client ∈ directory.connected, ∀ other ∈ directory.connected,
    variableName .client (.text client.1) = variableName .client (.text other.1) →
      client = other
  owners : ∀ client ∈ directory.connected, ∀ other ∈ directory.connected,
    variableName .id (.number client.2) = variableName .id (.number other.2) → client = other
  registered : ∀ client ∈ directory.connected, ∃ code, 2 ≤ code ∧ code ≤ directory.issued + 1 ∧
    Registered directory.tables client code
  former : ∀ id ∈ directory.former, ∃ code, 2 ≤ code ∧ code ≤ directory.issued + 1 ∧
    id = idOf code ∧ directory.tables.table (variableName .uid id) = none
  used : ∀ code, 2 ≤ code → code ≤ directory.issued + 1 → idOf code ∈ directory.former ∨
    ∃ client ∈ directory.connected, Registered directory.tables client code

theorem intact_initial : Intact initial where
  few := by decide
  clientIds := rfl
  clientIdsIndex := rfl
  uids client member := by cases member
  owners client member := by cases member
  registered client member := by cases member
  former id member := by cases member
  used code low high := by
    simp only [initial] at high
    omega

theorem Intact.mutuallyInverse {directory : Directory} (intact : Intact directory) :
    MutuallyInverse directory where
  id_uid client member := by
    obtain ⟨code, -, -, registered⟩ := intact.registered client member
    rw [registered.uidToId, registered.idToUid]
  temp_uid client member := by
    obtain ⟨code, -, -, registered⟩ := intact.registered client member
    rw [registered.uidToTemp, Tables.tempToUid, registered.tempToId, registered.idToUid]
  id_temp client member := by
    obtain ⟨code, -, -, registered⟩ := intact.registered client member
    rw [registered.uidToId, Tables.idToTemp, registered.idToUid]
  distinct client member other otherMember different same := by
    obtain ⟨code, -, -, registered⟩ := intact.registered client member
    obtain ⟨otherCode, -, -, otherRegistered⟩ := intact.registered other otherMember
    rw [registered.uidToId, otherRegistered.uidToId] at same
    have sameUid := otherRegistered.idToUid
    rw [← same, registered.idToUid, Value.text.injEq] at sameUid
    exact different sameUid
  former id member := by
    obtain ⟨code, -, -, -, missing⟩ := intact.former id member
    rw [Tables.idToUid, missing, Option.getD_none]

def joined (tables : Tables) (uid name : Text) (owner code : ℕ) : Tables :=
  ((({ tables with
      clientIds := [.byte code]
      connections := pushBackUnique tables.connections uid }.setVariable
        (variableName .client (.text uid)) (some (.number owner))).setVariable
          (variableName .id (.number owner)) (some (idOf code))).setVariable
            (variableName .uid (idOf code)) (some (.text uid))).setVariable
              (variableName .name (idOf code)) (some (.text name))

theorem addConnection_eq {tables : Tables} {code : ℕ} (uid name : Text) (owner : ℕ)
    (clientIds : tables.clientIds = [.byte code]) (index : tables.clientIdsIndex = 0)
    (positive : 1 ≤ code) (small : code + 1 < 256) :
    tables.addConnection uid name owner = .finished (joined tables uid name owner (code + 1)) := by
  have counted : countUp 0 0 [.byte code] = .finished ([.byte (code + 1)], 0) := by
    simp only [countUp, if_pos small, if_pos (show 1 < code + 1 by omega)]
  have next : tables.nextId = .finished { tables with clientIds := [.byte (code + 1)] } := by
    rw [Tables.nextId, index, clientIds, counted]
  rw [Tables.addConnection, next, Outcome.finished_andThen]
  rfl

theorem joined_table (tables : Tables) (uid name : Text) (owner code : ℕ) (key : Text) :
    (joined tables uid name owner code).table key =
      if key = variableName .name (idOf code) then some (.text name)
      else if key = variableName .uid (idOf code) then some (.text uid)
      else if key = variableName .id (.number owner) then some (idOf code)
      else if key = variableName .client (.text uid) then some (.number owner)
      else tables.table key := by
  simp only [joined, Tables.setVariable, Function.update_apply]

theorem registered_joined (tables : Tables) (uid name : Text) (owner code : ℕ) :
    Registered (joined tables uid name owner code) (uid, owner) code where
  owner := by simp [joined_table]
  id := by simp [joined_table]
  uid := by simp [joined_table]

theorem Registered.joined {tables : Tables} {client : Text × ℕ} {code : ℕ}
    (registered : Registered tables client code) {uid : Text} (name : Text) {owner next : ℕ}
    (freshUid : variableName .client (.text client.1) ≠ variableName .client (.text uid))
    (freshOwner : variableName .id (.number client.2) ≠ variableName .id (.number owner))
    (freshId : variableName .uid (idOf code) ≠ variableName .uid (idOf next)) :
    Registered (joined tables uid name owner next) client code where
  owner := by
    rw [joined_table, if_neg (by simp), if_neg (by simp), if_neg (by simp), if_neg freshUid,
      registered.owner]
  id := by
    rw [joined_table, if_neg (by simp), if_neg (by simp), if_neg freshOwner, if_neg (by simp),
      registered.id]
  uid := by
    rw [joined_table, if_neg (by simp), if_neg freshId, if_neg (by simp), if_neg (by simp),
      registered.uid]

/-- The condition on a connection: fewer than 95 connections before it, and no
connected client whose UID or owner number names the same variable. -/
def Fresh (directory : Directory) : Event → Prop
  | .connect uid _ owner => directory.issued < 95 ∧ ∀ client ∈ directory.connected,
      variableName .client (.text client.1) ≠ variableName .client (.text uid) ∧
        variableName .id (.number client.2) ≠ variableName .id (.number owner)
  | .disconnect _ => True

theorem variableName_idOf_ne {code other : ℕ} (small : code ≤ 96) (otherSmall : other ≤ 96)
    (different : code ≠ other) :
    variableName .uid (idOf code) ≠ variableName .uid (idOf other) := by
  intro same
  exact different (code_eq_of_fold small otherSmall (variableName_eq_iff.mp same).2)

theorem Intact.connect {directory : Directory} (intact : Intact directory) {uid : Text}
    (name : Text) {owner : ℕ} (fresh : Fresh directory (.connect uid name owner)) :
    Intact { directory with
      tables := (directory.tables.addConnection uid name owner).state
      connected := (uid, owner) :: directory.connected
      issued := directory.issued + 1 } := by
  obtain ⟨few, freshNames⟩ := fresh
  have added := addConnection_eq uid name owner intact.clientIds intact.clientIdsIndex
    (by omega) (by omega)
  rw [added, Outcome.state_finished]
  have newCode : ∀ code, code ≤ directory.issued + 1 →
      variableName .uid (idOf code) ≠ variableName .uid (idOf (directory.issued + 1 + 1)) :=
    fun code small => variableName_idOf_ne (by omega) (by omega) (by omega)
  have kept : ∀ client ∈ directory.connected, ∀ code, code ≤ directory.issued + 1 →
      Registered directory.tables client code →
      Registered (joined directory.tables uid name owner (directory.issued + 1 + 1)) client code :=
    fun client member code small registered =>
      registered.joined name (freshNames client member).1 (freshNames client member).2
        (newCode code small)
  constructor
  · exact few
  · rfl
  · exact intact.clientIdsIndex
  · intro client member other otherMember same
    rcases List.mem_cons.mp member with rfl | old <;>
      rcases List.mem_cons.mp otherMember with rfl | otherOld
    · rfl
    · exact absurd same.symm (freshNames other otherOld).1
    · exact absurd same (freshNames client old).1
    · exact intact.uids client old other otherOld same
  · intro client member other otherMember same
    rcases List.mem_cons.mp member with rfl | old <;>
      rcases List.mem_cons.mp otherMember with rfl | otherOld
    · rfl
    · exact absurd same.symm (freshNames other otherOld).2
    · exact absurd same (freshNames client old).2
    · exact intact.owners client old other otherOld same
  · intro client member
    rcases List.mem_cons.mp member with rfl | old
    · exact ⟨directory.issued + 1 + 1, by omega, le_rfl, registered_joined _ _ _ _ _⟩
    · obtain ⟨code, low, high, registered⟩ := intact.registered client old
      exact ⟨code, low, Nat.le_succ_of_le high, kept client old code high registered⟩
  · intro id member
    obtain ⟨code, low, high, rfl, missing⟩ := intact.former id member
    refine ⟨code, low, Nat.le_succ_of_le high, rfl, ?_⟩
    rw [joined_table, if_neg (by simp), if_neg (newCode code high), if_neg (by simp),
      if_neg (by simp), missing]
  · intro code low high
    change code ≤ directory.issued + 1 + 1 at high
    rcases Nat.lt_or_ge (directory.issued + 1) code with new | old
    · have isNew : code = directory.issued + 1 + 1 := by omega
      subst isNew
      exact Or.inr ⟨(uid, owner), by simp, registered_joined _ _ _ _ _⟩
    · rcases intact.used code low old with wasUsed | ⟨client, member, registered⟩
      · exact Or.inl wasUsed
      · exact Or.inr ⟨client, by simp [member], kept client member code old registered⟩

theorem removeConnection_table {tables : Tables} {client : Text × ℕ} {code : ℕ}
    (registered : Registered tables client code) (key : Text) :
    (tables.removeConnection client.1).table key =
      if key = variableName .client (.text client.1) ∨ key = variableName .id (.number client.2) ∨
        key = variableName .uid (idOf code) ∨ key = variableName .name (idOf code) then none
      else tables.table key := by
  simp only [Tables.removeConnection, registered.uidToTemp, registered.tempToId,
    Tables.setVariable, Function.update_apply]
  split_ifs <;> simp_all

theorem Intact.disconnect {directory : Directory} (intact : Intact directory) {uid : Text}
    (present : uid ∈ directory.connected.map Prod.fst) :
    Intact { directory with
      tables := directory.tables.removeConnection uid
      connected := directory.connected.filter fun client => client.1 ≠ uid
      former := directory.tables.uidToId (.text uid) :: directory.former } := by
  obtain ⟨client, member, rfl⟩ := List.mem_map.mp present
  obtain ⟨code, low, high, registered⟩ := intact.registered client member
  have few := intact.few
  have removed := removeConnection_table registered
  have remaining : ∀ other, other ∈ directory.connected.filter (fun other => other.1 ≠ client.1) ↔
      other ∈ directory.connected ∧ other.1 ≠ client.1 := by
    simp
  have kept : ∀ other ∈ directory.connected, other.1 ≠ client.1 → ∀ otherCode,
      otherCode ≤ directory.issued + 1 → Registered directory.tables other otherCode →
      Registered (directory.tables.removeConnection client.1) other otherCode := by
    intro other otherMember different otherCode small otherRegistered
    have notClient : other ≠ client := fun same => different (congrArg Prod.fst same)
    have notCode : otherCode ≠ code := by
      rintro rfl
      have sameUid := otherRegistered.uid.symm.trans registered.uid
      rw [Option.some.injEq, Value.text.injEq] at sameUid
      exact different sameUid
    refine ⟨?_, ?_, ?_⟩
    · rw [removed, if_neg, otherRegistered.owner]
      rintro (same | same | same | same)
      · exact notClient (intact.uids other otherMember client member same)
      all_goals simp at same
    · rw [removed, if_neg, otherRegistered.id]
      rintro (same | same | same | same)
      · simp at same
      · exact notClient (intact.owners other otherMember client member same)
      all_goals simp at same
    · rw [removed, if_neg, otherRegistered.uid]
      rintro (same | same | same | same)
      · simp at same
      · simp at same
      · exact variableName_idOf_ne (by omega) (by omega) notCode same
      · simp at same
  rw [registered.uidToId]
  constructor
  · exact few
  · exact intact.clientIds
  · exact intact.clientIdsIndex
  · intro first firstMember second secondMember
    exact intact.uids first ((remaining first).mp firstMember).1 second
      ((remaining second).mp secondMember).1
  · intro first firstMember second secondMember
    exact intact.owners first ((remaining first).mp firstMember).1 second
      ((remaining second).mp secondMember).1
  · intro other otherMember
    obtain ⟨old, different⟩ := (remaining other).mp otherMember
    obtain ⟨otherCode, otherLow, otherHigh, otherRegistered⟩ := intact.registered other old
    exact ⟨otherCode, otherLow, otherHigh, kept other old different otherCode otherHigh
      otherRegistered⟩
  · intro id idMember
    rcases List.mem_cons.mp idMember with rfl | old
    · exact ⟨code, low, high, rfl, by rw [removed, if_pos (by simp)]⟩
    · obtain ⟨otherCode, otherLow, otherHigh, rfl, missing⟩ := intact.former id old
      refine ⟨otherCode, otherLow, otherHigh, rfl, ?_⟩
      rw [removed, missing, ite_self]
  · intro otherCode otherLow otherHigh
    rcases intact.used otherCode otherLow otherHigh with old | ⟨other, otherMember, otherRegistered⟩
    · exact Or.inl (by simp [old])
    · by_cases same : other.1 = client.1
      · have sameId : idOf otherCode = idOf code := by
          rw [← otherRegistered.uidToId, same, registered.uidToId]
        exact Or.inl (by simp [sameId])
      · exact Or.inr ⟨other, (remaining other).mpr ⟨otherMember, same⟩,
          kept other otherMember same otherCode otherHigh otherRegistered⟩

theorem intact_step {before after : Directory} {event : Event} (intact : Intact before)
    (fresh : Fresh before event) (stepped : step before event = some after) : Intact after := by
  cases event with
  | connect uid name owner =>
      simp only [step] at stepped
      split_ifs at stepped
      cases stepped
      exact intact.connect name fresh
  | disconnect uid =>
      simp only [step] at stepped
      split_ifs at stepped with present
      cases stepped
      exact intact.disconnect present

/-- Two clients of which the variables have one name cannot be told apart, and the 96th
ID is the 64th in lower case. -/
theorem Intact.fresh {before after : Directory} {uid name : Text} {owner : ℕ}
    (intact : Intact before) (stepped : step before (.connect uid name owner) = some after)
    (inverse : MutuallyInverse after) : Fresh before (.connect uid name owner) := by
  simp only [step] at stepped
  split_ifs at stepped with allowed
  obtain ⟨notEmpty, others⟩ := allowed
  cases stepped
  have few := intact.few
  have added := addConnection_eq uid name owner intact.clientIds intact.clientIdsIndex
    (by omega) (by omega)
  rw [added, Outcome.state_finished] at inverse
  have own := registered_joined before.tables uid name owner (before.issued + 1 + 1)
  have freshUid : ∀ client ∈ before.connected,
      variableName .client (.text client.1) ≠ variableName .client (.text uid) := by
    intro client member same
    have sameTemp : (joined before.tables uid name owner (before.issued + 1 + 1)).uidToTemp
        (.text client.1) = .number owner := by
      rw [← own.uidToTemp, Tables.uidToTemp, same, Tables.uidToTemp]
    have sameUid := inverse.temp_uid client (by simp [member])
    rw [sameTemp, ← own.uidToTemp, inverse.temp_uid (uid, owner) (by simp),
      Value.text.injEq] at sameUid
    exact (others client member).1 sameUid.symm
  have sameTemp : ∀ client ∈ before.connected,
      (joined before.tables uid name owner (before.issued + 1 + 1)).uidToTemp
        (.text client.1) = .number client.2 := by
    intro client member
    obtain ⟨code, -, -, registered⟩ := intact.registered client member
    rw [Tables.uidToTemp, joined_table, if_neg (by simp), if_neg (by simp), if_neg (by simp),
      if_neg (freshUid client member), registered.owner, Option.getD_some]
  have freshOwner : ∀ client ∈ before.connected,
      variableName .id (.number client.2) ≠ variableName .id (.number owner) := by
    intro client member same
    refine inverse.distinct client (by simp [member]) (uid, owner) (by simp)
      (others client member).1 ?_
    rw [own.uidToId, Tables.uidToId, sameTemp client member, Tables.tempToId, same,
      ← Tables.tempToId, own.tempToId]
  refine ⟨?_, fun client member => ⟨freshUid client member, freshOwner client member⟩⟩
  by_contra many
  have last : before.issued = 95 := by omega
  -- The new ID is `a`; the ID `A` was given to the client connected as the 64th.
  have capital : variableName .uid (idOf 65) = variableName .uid (idOf 97) := by decide +kernel
  have resolves : (joined before.tables uid name owner (before.issued + 1 + 1)).idToUid
      (idOf 65) = .text uid := by
    rw [last] at own ⊢
    rw [← own.idToUid, Tables.idToUid, capital, Tables.idToUid]
  rcases intact.used 65 (by omega) (by omega) with left | ⟨client, member, registered⟩
  · have empty := inverse.former (idOf 65) left
    rw [resolves, Value.text.injEq] at empty
    exact notEmpty empty
  · have sameUid := inverse.id_uid client (by simp [member])
    have sameId : (joined before.tables uid name owner (before.issued + 1 + 1)).uidToId
        (.text client.1) = idOf 65 := by
      rw [Tables.uidToId, sameTemp client member, Tables.tempToId, joined_table,
        if_neg (by simp), if_neg (by simp), if_neg (freshOwner client member),
        if_neg (by simp), registered.id, Option.getD_some]
    rw [sameId, resolves, Value.text.injEq] at sameUid
    exact (others client member).1 sameUid.symm

end Directory

open Directory

/-- In a run the tables are mutually inverse after every step exactly when fewer than 95
connections precede each connection and no two connected clients name one variable. -/
theorem tables_inverse_iff (events : List Event) :
    Along Directory.step (fun _ _ after => MutuallyInverse after) Directory.initial events ↔
      Along Directory.step (fun before event _ => Fresh before event) Directory.initial events := by
  refine along_iff_of_invariant Intact ?_ ?_ intact_initial events
  · intro before event after intact fresh stepped
    exact intact_step intact fresh stepped
  · intro before event after intact stepped
    constructor
    · intro inverse
      cases event with
      | connect uid name owner => exact intact.fresh stepped inverse
      | disconnect uid => trivial
    · intro fresh
      exact (intact_step intact fresh stepped).mutuallyInverse

/-- Connections of that many players, each with a UID and an owner number of his own. -/
def crowd (size : ℕ) : List Event :=
  (List.range size).map fun index =>
    .connect (printNatural 10 (index + 1)) [] (index + 3)

/-- After 96 connections the ID of the 64th player resolves to the 96th. -/
theorem tables_inverse_crowd :
    ¬ Along Directory.step (fun _ _ after => MutuallyInverse after) Directory.initial
      (crowd 96) := by
  intro inverse
  have reached : (run Directory.step Directory.initial (crowd 96)).map (fun directory =>
      (decide (("64".toList, 66) ∈ directory.connected),
        directory.tables.idToUid (directory.tables.uidToId (.text "64".toList)))) =
      some (true, .text "96".toList) := by
    decide +kernel
  obtain ⟨finish, ran, holds⟩ := Option.map_eq_some_iff.mp reached
  obtain ⟨connected, resolves⟩ := Prod.mk.inj holds
  have split : crowd 96 = crowd 95 ++ [.connect "96".toList [] 98] := by decide +kernel
  rw [split] at inverse ran
  rw [run_append] at ran
  obtain ⟨before, ranBefore, last⟩ := Option.bind_eq_some_iff.mp ran
  rw [run_cons] at last
  obtain ⟨after, stepped, ended⟩ := Option.bind_eq_some_iff.mp last
  cases ended
  have good := ((along_append.mp inverse).2 before ranBefore finish stepped).1
  have own := good.id_uid _ (of_decide_eq_true connected)
  rw [resolves] at own
  exact absurd own (by decide)

end OperationFrontLine.Identity
