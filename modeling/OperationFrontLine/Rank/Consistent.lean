import OperationFrontLine.Library.Slots
import OperationFrontLine.Rank.Roster

/-!
# The lists agree

`Consistent` is the invariant of a running match: a session for each connected
player and for nobody else, the pending records among them, and on the lists of
the sides only players whose record is activated.  Joining, leaving and the
loop over the pending records keep it; the other handlers leave the roster as
it is.
-/

namespace OperationFrontLine.Rank

open OperationFrontLine.Library

variable {Uid Name Number : Type}

namespace State

def Activated (state : State Uid Name Number) (uid : Uid) : Prop :=
  ∀ slot ∈ state.pending, ∀ entry ∈ slot, entry.uid ≠ uid

structure Consistent (state : State Uid Name Number) : Prop where
  connected : ∀ uid, (state.handleOf uid).isSome ↔ (state.clients uid).isSome
  named : ∀ uid handle, state.handleOf uid = some handle →
    state.accountName handle = some uid
  issued : ∀ handle uid, state.accountName handle = some uid → handle ≤ state.lastThread
  pending_name : ∀ entry, some entry ∈ state.pending →
    ∃ client, state.clients entry.uid = some client ∧ client.name = entry.name
  pending_handle : ∀ entry, some entry ∈ state.pending →
    state.handleOf entry.uid = some entry.handle
  pending_distinct : DistinctKeys PendingRecord.uid state.pending
  active_nodup : state.active.Nodup
  mem_active : ∀ uid, uid ∈ state.active ↔ (state.handleOf uid).isSome
  sides_nodup : (state.west ++ state.east).Nodup
  enlisted : ∀ uid ∈ state.west ++ state.east, (state.handleOf uid).isSome ∧
    ∀ entry, some entry ∈ state.pending → entry.uid ≠ uid

namespace Consistent

variable {before after : State Uid Name Number}

theorem initial : Consistent (State.initial : State Uid Name Number) where
  connected uid := by simp [State.initial, handleOf, session?]
  named uid handle found := by simp [State.initial, handleOf, session?] at found
  issued handle uid found := by simp [State.initial] at found
  pending_name entry member := by simp [State.initial] at member
  pending_handle entry member := by simp [State.initial] at member
  pending_distinct := DistinctKeys.nil
  active_nodup := List.nodup_nil
  mem_active uid := by simp [State.initial, handleOf, session?]
  sides_nodup := List.nodup_nil
  enlisted uid member := by simp [State.initial] at member

theorem congr (consistent : Consistent before) (same : SameRoster before after) :
    Consistent after where
  connected := by simpa only [same.handleOf, same.clients] using consistent.connected
  named := by simpa only [same.handleOf, same.accountName] using consistent.named
  issued := by simpa only [same.accountName, same.lastThread] using consistent.issued
  pending_name := by simpa only [same.pending, same.clients] using consistent.pending_name
  pending_handle := by simpa only [same.pending, same.handleOf] using consistent.pending_handle
  pending_distinct := by simpa only [same.pending] using consistent.pending_distinct
  active_nodup := by simpa only [same.active] using consistent.active_nodup
  mem_active := by simpa only [same.active, same.handleOf] using consistent.mem_active
  sides_nodup := by simpa only [same.west, same.east] using consistent.sides_nodup
  enlisted := by
    simpa only [same.west, same.east, same.handleOf, same.pending] using consistent.enlisted

theorem stop (consistent : Consistent before) : Consistent { before with running := false } :=
  ⟨consistent.connected, consistent.named, consistent.issued, consistent.pending_name,
    consistent.pending_handle, consistent.pending_distinct, consistent.active_nodup,
    consistent.mem_active, consistent.sides_nodup, consistent.enlisted⟩

theorem uid_eq (consistent : Consistent before) {first second : Uid} {handle : Handle}
    (isFirst : before.handleOf first = some handle)
    (isSecond : before.handleOf second = some handle) : first = second :=
  Option.some.inj <|
    (consistent.named first handle isFirst).symm.trans (consistent.named second handle isSecond)

section Players

variable [DecidableEq Uid]

/-- A player who is not connected joins with a handle not issued before. -/
theorem join (consistent : Consistent before) {uid : Uid} (client : Client Name)
    {handle : Handle} (absent : before.clients uid = none) (fresh : before.lastThread < handle)
    (handleOf : after.handleOf = Function.update before.handleOf uid (some handle))
    (clients : after.clients = Function.update before.clients uid (some client))
    (accountName : after.accountName = Function.update before.accountName handle (some uid))
    (lastThread : after.lastThread = handle)
    (pending : after.pending = before.pending ++ [some ⟨uid, client.name, handle⟩])
    (active : after.active = pushBackUnique before.active uid)
    (west : after.west = before.west) (east : after.east = before.east) :
    Consistent after := by
  have noHandle : before.handleOf uid = none := by
    have missing := (consistent.connected uid).not
    simpa [absent] using missing
  have noEntry : ∀ entry, some entry ∈ before.pending → entry.uid ≠ uid := by
    rintro entry member rfl
    have found := consistent.pending_handle entry member
    rw [noHandle] at found
    cases found
  have ne_of_isSome : ∀ other, (before.handleOf other).isSome → other ≠ uid := by
    rintro other some rfl
    simp [noHandle] at some
  have mem_pending : ∀ entry, some entry ∈ after.pending ↔
      some entry ∈ before.pending ∨ entry = ⟨uid, client.name, handle⟩ := by
    intro entry
    rw [pending, List.mem_append, List.mem_singleton, Option.some.injEq]
  constructor
  · intro other
    rw [handleOf, clients]
    by_cases same : other = uid
    · simp [same]
    · simpa [same] using consistent.connected other
  · intro other found holds
    rw [handleOf, Function.update_apply] at holds
    rw [accountName, Function.update_apply]
    split_ifs at holds with same
    · rw [if_pos (Option.some.inj holds).symm, same]
    · have known := consistent.named other found holds
      have old := consistent.issued found other known
      rw [if_neg (old.trans_lt fresh).ne, known]
  · intro found other holds
    rw [accountName, Function.update_apply] at holds
    rw [lastThread]
    split_ifs at holds with same
    · exact same.le
    · exact (consistent.issued found other holds).trans fresh.le
  · intro entry member
    rw [clients]
    rcases (mem_pending entry).mp member with old | rfl
    · obtain ⟨known, found, sameName⟩ := consistent.pending_name entry old
      exact ⟨known, by simp [noEntry entry old, found], sameName⟩
    · exact ⟨client, by simp, rfl⟩
  · intro entry member
    rw [handleOf]
    rcases (mem_pending entry).mp member with old | rfl
    · simp [noEntry entry old, consistent.pending_handle entry old]
    · simp
  · rw [pending]
    exact consistent.pending_distinct.append_single noEntry
  · rw [active]
    exact nodup_pushBackUnique consistent.active_nodup uid
  · intro other
    rw [active, mem_pushBackUnique, consistent.mem_active, handleOf]
    by_cases same : other = uid
    · simp [same]
    · simp [same]
  · rw [west, east]
    exact consistent.sides_nodup
  · intro other member
    rw [west, east] at member
    obtain ⟨hasHandle, notPending⟩ := consistent.enlisted other member
    refine ⟨?_, ?_⟩
    · rw [handleOf]
      simpa [ne_of_isSome other hasHandle] using hasHandle
    · intro entry entered
      rcases (mem_pending entry).mp entered with old | rfl
      · exact notPending entry old
      · exact (ne_of_isSome other hasHandle).symm

theorem leave (consistent : Consistent before) {uid : Uid}
    (handleOf : after.handleOf = Function.update before.handleOf uid none)
    (clients : after.clients = Function.update before.clients uid none)
    (accountName : after.accountName = before.accountName)
    (lastThread : after.lastThread = before.lastThread)
    (sub : after.pending.Sublist before.pending)
    (pending : ∀ entry, some entry ∈ after.pending → entry.uid ≠ uid)
    (active : after.active = without before.active uid)
    (west : after.west = without before.west uid)
    (east : after.east = without before.east uid) :
    Consistent after := by
  constructor
  · intro other
    rw [handleOf, clients]
    by_cases same : other = uid
    · simp [same]
    · simpa [same] using consistent.connected other
  · intro other found holds
    rw [handleOf, Function.update_apply] at holds
    rw [accountName]
    split_ifs at holds with same
    exact consistent.named other found holds
  · rw [accountName, lastThread]
    exact consistent.issued
  · intro entry member
    rw [clients, Function.update_of_ne (pending entry member)]
    exact consistent.pending_name entry (sub.subset member)
  · intro entry member
    rw [handleOf, Function.update_of_ne (pending entry member)]
    exact consistent.pending_handle entry (sub.subset member)
  · exact consistent.pending_distinct.sublist sub
  · rw [active]
    exact nodup_without consistent.active_nodup uid
  · intro other
    rw [active, mem_without, consistent.mem_active, handleOf]
    by_cases same : other = uid
    · simp [same]
    · simp [same]
  · rw [west, east, without, without, ← List.filter_append]
    exact consistent.sides_nodup.filter _
  · intro other member
    rw [west, east, List.mem_append, mem_without, mem_without, ← or_and_right,
      ← List.mem_append] at member
    obtain ⟨hasHandle, notPending⟩ := consistent.enlisted other member.1
    refine ⟨?_, fun entry entered => notPending entry (sub.subset entered)⟩
    rw [handleOf]
    simpa [member.2] using hasHandle

end Players

/-- The record of a pending player is activated: his entry is marked. -/
theorem mark (consistent : Consistent before) {index : ℕ} {entry : PendingRecord Uid Name}
    (here : before.pending[index]? = some (some entry))
    (handleOf : after.handleOf = before.handleOf)
    (accountName : after.accountName = before.accountName)
    (lastThread : after.lastThread = before.lastThread)
    (clients : after.clients = before.clients)
    (pending : after.pending = before.pending.set index none)
    (active : after.active = before.active)
    (west : after.west = before.west) (east : after.east = before.east) :
    Consistent after := by
  have fewer : ∀ other, some other ∈ after.pending → some other ∈ before.pending := by
    intro other member
    rw [pending, consistent.pending_distinct.mem_set here] at member
    exact member.1
  constructor
  · rw [handleOf, clients]
    exact consistent.connected
  · rw [handleOf, accountName]
    exact consistent.named
  · rw [accountName, lastThread]
    exact consistent.issued
  · intro other member
    rw [clients]
    exact consistent.pending_name other (fewer other member)
  · intro other member
    rw [handleOf]
    exact consistent.pending_handle other (fewer other member)
  · rw [pending]
    exact consistent.pending_distinct.set index
  · rw [active]
    exact consistent.active_nodup
  · rw [active, handleOf]
    exact consistent.mem_active
  · rw [west, east]
    exact consistent.sides_nodup
  · intro uid member
    rw [west, east] at member
    rw [handleOf]
    obtain ⟨hasHandle, notPending⟩ := consistent.enlisted uid member
    exact ⟨hasHandle, fun other entered => notPending other (fewer other entered)⟩

end Consistent

end State

end OperationFrontLine.Rank
