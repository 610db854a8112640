import OperationFrontLine.Rank.Steps

/-!
# The calls made with a session handle

Every handle that `Connect` returns is used in one order: `GetOutput` while the
record is pending, `PublishAccount` once it is activated, and one `Commit` when
the player leaves or the game ends.  `Journalled` says how far each handle has
come; one lemma for each kind of call keeps it.
-/

namespace OperationFrontLine.Rank

open OperationFrontLine.Library

variable {Uid Name Number : Type}

inductive CallKind where
  | getOutput
  | publishAccount
  | commit
  deriving DecidableEq, Repr

/-- How a call uses a handle; a `Commit` may name several handles. -/
def ExtensionCall.uses (handle : Handle) : ExtensionCall Uid Number → List CallKind
  | .connect _ _ _ => []
  | .getOutput asked _ => if asked = handle then [.getOutput] else []
  | .publishAccount published _ => if published = handle then [.publishAccount] else []
  | .commit committed =>
      (committed.filter fun entry => entry.1 = handle).map fun _ => .commit

def trace (calls : List (ExtensionCall Uid Number)) (handle : Handle) : List CallKind :=
  calls.flatMap (ExtensionCall.uses handle)

@[simp]
theorem trace_append (calls later : List (ExtensionCall Uid Number)) (handle : Handle) :
    trace (calls ++ later) handle = trace calls handle ++ trace later handle :=
  List.flatMap_append

@[simp]
theorem trace_single (made : ExtensionCall Uid Number) (handle : Handle) :
    trace [made] handle = made.uses handle := by
  simp [trace]

section Shapes

variable {calls : List CallKind}

def InOrder (calls : List CallKind) : Prop :=
  ∃ asked published committed, committed ≤ 1 ∧
    calls = List.replicate asked .getOutput ++ List.replicate published .publishAccount ++
      List.replicate committed .commit

def Asking (calls : List CallKind) : Prop :=
  ∃ asked, calls = List.replicate asked .getOutput

def Opened (calls : List CallKind) : Prop :=
  ∃ asked published,
    calls = List.replicate asked .getOutput ++ List.replicate published .publishAccount

def Committed (calls : List CallKind) : Prop :=
  ∃ opened, Opened opened ∧ calls = opened ++ [.commit]

theorem asking_nil : Asking [] := ⟨0, rfl⟩

theorem Asking.getOutput (asking : Asking calls) : Asking (calls ++ [.getOutput]) := by
  obtain ⟨asked, rfl⟩ := asking
  exact ⟨asked + 1, List.replicate_succ'.symm⟩

theorem Asking.opened (asking : Asking calls) : Opened calls := by
  obtain ⟨asked, rfl⟩ := asking
  exact ⟨asked, 0, by simp⟩

theorem Opened.publishAccount (opened : Opened calls) :
    Opened (calls ++ [.publishAccount]) := by
  obtain ⟨asked, published, rfl⟩ := opened
  exact ⟨asked, published + 1, by rw [List.replicate_succ', List.append_assoc]⟩

theorem Opened.commit (opened : Opened calls) : Committed (calls ++ [.commit]) :=
  ⟨calls, opened, rfl⟩

theorem Opened.inOrder (opened : Opened calls) : InOrder calls := by
  obtain ⟨asked, published, rfl⟩ := opened
  exact ⟨asked, published, 0, Nat.zero_le 1, by simp⟩

theorem Committed.inOrder (committed : Committed calls) : InOrder calls := by
  obtain ⟨_, ⟨asked, published, rfl⟩, rfl⟩ := committed
  exact ⟨asked, published, 1, le_rfl, rfl⟩

theorem Committed.count_commit (committed : Committed calls) : calls.count .commit = 1 := by
  obtain ⟨_, ⟨asked, published, rfl⟩, rfl⟩ := committed
  simp [List.count_replicate]

theorem InOrder.count_commit_le (inOrder : InOrder calls) : calls.count .commit ≤ 1 := by
  obtain ⟨asked, published, committed, atMost, rfl⟩ := inOrder
  simpa [List.count_replicate] using atMost

/-- In a trace that follows the protocol no `GetOutput` comes after another call. -/
theorem InOrder.pairwise (inOrder : InOrder calls) :
    calls.Pairwise fun earlier later => later = .getOutput → earlier = .getOutput := by
  obtain ⟨asked, published, committed, -, rfl⟩ := inOrder
  simp [List.pairwise_append, List.pairwise_replicate]

end Shapes

namespace State

structure Journalled (state : State Uid Name Number) : Prop where
  asking : ∀ entry, some entry ∈ state.pending → Asking (trace state.calls entry.handle)
  opened : ∀ uid handle, state.handleOf uid = some handle → Opened (trace state.calls handle)
  committed : ∀ handle uid, state.accountName handle = some uid →
    state.handleOf uid ≠ some handle → Committed (trace state.calls handle)
  unused : ∀ handle, state.accountName handle = none → trace state.calls handle = []
  returned : ∀ handle uid rejoin, .connect handle uid rejoin ∈ state.calls →
    state.accountName handle = some uid

structure Closed (state : State Uid Name Number) : Prop where
  committed : ∀ handle uid, state.accountName handle = some uid →
    Committed (trace state.calls handle)
  unused : ∀ handle, state.accountName handle = none → trace state.calls handle = []
  returned : ∀ handle uid rejoin, .connect handle uid rejoin ∈ state.calls →
    state.accountName handle = some uid

namespace Journalled

variable {before after : State Uid Name Number}

theorem initial : Journalled (State.initial : State Uid Name Number) where
  asking entry member := by simp [State.initial] at member
  opened uid handle found := by simp [State.initial, handleOf, session?] at found
  committed handle uid found := by simp [State.initial] at found
  unused handle _ := rfl
  returned handle uid rejoin member := by simp [State.initial] at member

theorem congr (journalled : Journalled before) (same : SameRoster before after)
    (calls : after.calls = before.calls) : Journalled after where
  asking := by simpa only [same.pending, calls] using journalled.asking
  opened := by simpa only [same.handleOf, calls] using journalled.opened
  committed := by
    simpa only [same.accountName, same.handleOf, calls] using journalled.committed
  unused := by simpa only [same.accountName, calls] using journalled.unused
  returned := by simpa only [same.accountName, calls] using journalled.returned

theorem use (journalled : Journalled before) (consistent : Consistent before) {holder : Uid}
    {used : Handle} (held : before.handleOf holder = some used)
    {made : ExtensionCall Uid Number}
    (elsewhere : ∀ handle, handle ≠ used → made.uses handle = [])
    (notConnect : ∀ handle uid rejoin, made ≠ .connect handle uid rejoin)
    (opened : Opened (trace before.calls used ++ made.uses used))
    (asking : ∀ entry, some entry ∈ before.pending → entry.handle = used →
      Asking (trace before.calls used ++ made.uses used)) :
    Journalled (before.call made) := by
  have traced : ∀ handle, trace (before.call made).calls handle =
      trace before.calls handle ++ made.uses handle := by
    intro handle
    simp [State.call]
  have untouched : ∀ handle, handle ≠ used →
      trace (before.call made).calls handle = trace before.calls handle := by
    intro handle different
    rw [traced, elsewhere handle different, List.append_nil]
  have named : before.accountName used = some holder := consistent.named holder used held
  constructor
  · intro entry stays
    by_cases same : entry.handle = used
    · rw [same, traced]
      exact asking entry stays same
    · rw [untouched _ same]
      exact journalled.asking entry stays
  · intro uid handle found
    by_cases same : handle = used
    · rw [same, traced]
      exact opened
    · rw [untouched _ same]
      exact journalled.opened uid handle found
  · intro handle uid known left
    have different : handle ≠ used := by
      rintro rfl
      exact left (Option.some.inj (named.symm.trans known) ▸ held)
    rw [untouched handle different]
    exact journalled.committed handle uid known left
  · intro handle unknown
    have different : handle ≠ used := by
      rintro rfl
      exact Option.some_ne_none holder (named.symm.trans unknown)
    rw [untouched handle different]
    exact journalled.unused handle unknown
  · intro handle uid rejoin member
    rcases List.mem_append.mp member with old | new
    · exact journalled.returned handle uid rejoin old
    · exact absurd (List.mem_singleton.mp new).symm (notConnect handle uid rejoin)

theorem getOutput (journalled : Journalled before) (consistent : Consistent before)
    {entry : PendingRecord Uid Name} (member : some entry ∈ before.pending)
    (answer : Option (Answer Number)) :
    Journalled (before.call (.getOutput entry.handle answer)) := by
  have asked : Asking (trace before.calls entry.handle ++
      (ExtensionCall.getOutput entry.handle answer : ExtensionCall Uid Number).uses
        entry.handle) := by
    simpa [ExtensionCall.uses] using (journalled.asking entry member).getOutput
  refine journalled.use consistent (consistent.pending_handle entry member) ?_ ?_ asked.opened
    fun _ _ _ => asked
  · intro handle different
    exact if_neg different.symm
  · rintro _ _ _ ⟨⟩

/-- The record of a player is published when he is not pending any more. -/
theorem publishAccount (journalled : Journalled before) (consistent : Consistent before)
    {uid : Uid} {handle : Handle} (held : before.handleOf uid = some handle)
    (notPending : ∀ entry, some entry ∈ before.pending → entry.uid ≠ uid)
    (record : Record Uid Number) :
    Journalled (before.call (.publishAccount handle record)) := by
  refine journalled.use consistent held ?_ ?_ ?_ ?_
  · intro other different
    exact if_neg different.symm
  · rintro _ _ _ ⟨⟩
  · simpa [ExtensionCall.uses] using (journalled.opened uid handle held).publishAccount
  · intro entry member same
    have holds := consistent.pending_handle entry member
    rw [same] at holds
    exact absurd (consistent.uid_eq holds held) (notPending entry member)

theorem join [DecidableEq Uid] (journalled : Journalled before) {uid : Uid} {name : Name}
    {handle : Handle} {rejoin : Bool} (fresh : before.accountName handle = none)
    (handleOf : after.handleOf = Function.update before.handleOf uid (some handle))
    (absent : before.handleOf uid = none)
    (accountName : after.accountName = Function.update before.accountName handle (some uid))
    (pending : after.pending = before.pending ++ [some ⟨uid, name, handle⟩])
    (calls : after.calls = before.calls ++ [.connect handle uid rejoin]) :
    Journalled after := by
  have traced : ∀ other, trace after.calls other = trace before.calls other := by
    intro other
    rw [calls, trace_append, trace_single]
    exact List.append_nil _
  constructor
  · intro entry member
    rw [traced]
    rw [pending, List.mem_append, List.mem_singleton, Option.some.injEq] at member
    rcases member with old | rfl
    · exact journalled.asking entry old
    · rw [journalled.unused handle fresh]
      exact asking_nil
  · intro other found holds
    rw [traced]
    rw [handleOf, Function.update_apply] at holds
    split_ifs at holds
    · rw [← Option.some.inj holds, journalled.unused handle fresh]
      exact asking_nil.opened
    · exact journalled.opened other found holds
  · intro found other known left
    rw [traced]
    rw [handleOf, Function.update_apply] at left
    rw [accountName, Function.update_apply] at known
    split_ifs at known with same
    · rw [same, if_pos (Option.some.inj known).symm] at left
      exact absurd rfl left
    · refine journalled.committed found other known ?_
      split_ifs at left with player
      · rw [player, absent]
        exact (Option.some_ne_none found).symm
      · exact left
  · intro found unknown
    rw [traced]
    rw [accountName, Function.update_apply] at unknown
    split_ifs at unknown
    exact journalled.unused found unknown
  · intro found other again member
    rw [accountName, Function.update_apply]
    rw [calls, List.mem_append, List.mem_singleton] at member
    rcases member with old | new
    · have known := journalled.returned found other again old
      rw [if_neg ?_, known]
      rintro rfl
      rw [fresh] at known
      cases known
    · cases new
      exact if_pos rfl

theorem leave [DecidableEq Uid] (journalled : Journalled before)
    (consistent : Consistent before) {uid : Uid} {handle : Handle} {punished : Bool}
    (held : before.handleOf uid = some handle)
    (handleOf : after.handleOf = Function.update before.handleOf uid none)
    (accountName : after.accountName = before.accountName)
    (pending : ∀ entry, some entry ∈ after.pending →
      some entry ∈ before.pending ∧ entry.uid ≠ uid)
    (calls : after.calls = before.calls ++ [.commit [(handle, punished)]]) :
    Journalled after := by
  have traced : ∀ other, other ≠ handle →
      trace after.calls other = trace before.calls other := by
    intro other different
    simp [calls, ExtensionCall.uses, different.symm]
  have done : Committed (trace after.calls handle) := by
    simpa [calls, ExtensionCall.uses] using (journalled.opened uid handle held).commit
  constructor
  · intro entry member
    obtain ⟨old, different⟩ := pending entry member
    rw [traced]
    · exact journalled.asking entry old
    · intro same
      exact different (consistent.uid_eq (same ▸ consistent.pending_handle entry old) held)
  · intro other found holds
    rw [handleOf, Function.update_apply] at holds
    split_ifs at holds with same
    rw [traced]
    · exact journalled.opened other found holds
    · rintro rfl
      exact same (consistent.uid_eq holds held)
  · intro found other known left
    by_cases same : found = handle
    · exact same ▸ done
    · rw [traced found same]
      rw [accountName] at known
      refine journalled.committed found other known ?_
      rw [handleOf, Function.update_apply] at left
      split_ifs at left with player
      · rw [player, held]
        exact fun equal => same (Option.some.inj equal).symm
      · exact left
  · intro found unknown
    rw [accountName] at unknown
    rw [traced]
    · exact journalled.unused found unknown
    · rintro rfl
      rw [consistent.named uid found held] at unknown
      cases unknown
  · intro found other again member
    rw [accountName]
    rw [calls, List.mem_append, List.mem_singleton] at member
    rcases member with old | new
    · exact journalled.returned found other again old
    · cases new

end Journalled

end State

end OperationFrontLine.Rank
