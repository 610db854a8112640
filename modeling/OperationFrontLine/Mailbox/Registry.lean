import OperationFrontLine.Library.LinkedList
import OperationFrontLine.Library.Run
import OperationFrontLine.Library.Unsigned

/-!
# The thread registry

All `ThreadHive` objects of one message type share a list of handles.  An object adds a handle
with `addThread`, and the copy of the object that `spawnThread` gives to the new thread owns this
handle too; the destructor of the last owner takes the handle out of the list.
-/

namespace OperationFrontLine.Mailbox

open OperationFrontLine.Library

structure ThreadHandle (Name : Type) where
  threadName : Name
  /-- an `unsigned int` -/
  shares : ℕ
  next : Option ℕ
  deriving DecidableEq, Repr

/-- The static variables of `ThreadHive` with the handles on the heap, the objects that exist
with their variables `myThreadHandle`, and what has been registered and unlinked so far. -/
structure HiveRegistry (Object Name : Type) where
  head : Option ℕ
  tail : Option ℕ
  /-- an `int` -/
  threadCount : ℤ
  handles : ℕ → Option (ThreadHandle Name)
  /-- the address of the next `new ThreadHandle` -/
  fresh : ℕ
  objects : Finset Object
  myThreadHandle : Object → Option ℕ
  registered : List (ℕ × Name)
  unlinked : List ℕ

namespace HiveRegistry

variable {Object Name : Type} [DecidableEq Object]

def initial : HiveRegistry Object Name where
  head := none
  tail := none
  threadCount := 0
  handles := fun _ => none
  fresh := 0
  objects := ∅
  myThreadHandle := fun _ => none
  registered := []
  unlinked := []

def construct (hive : HiveRegistry Object Name) (object : Object) :
    Option (HiveRegistry Object Name) :=
  if object ∈ hive.objects then none
  else some { hive with
    objects := insert object hive.objects
    myThreadHandle := Function.update hive.myThreadHandle object none }

/-- `push`, with the address that it returns; a new handle has no shares.  The counter does not
overflow. -/
def push (hive : HiveRegistry Object Name) (threadName : Name) :
    Option (ℕ × HiveRegistry Object Name) :=
  let newTH := hive.fresh
  let handles := Function.update hive.handles newTH (some ⟨threadName, 0, none⟩)
  if hive.threadCount + 1 < 2 ^ 31 then
    match hive.tail with
    | none => some (newTH, { hive with
        tail := some newTH
        head := some newTH
        handles := handles
        fresh := newTH + 1
        threadCount := hive.threadCount + 1
        registered := hive.registered ++ [(newTH, threadName)] })
    | some tail => (handles tail).map fun last => (newTH, { hive with
        tail := some newTH
        handles := Function.update handles tail (some { last with next := some newTH })
        fresh := newTH + 1
        threadCount := hive.threadCount + 1
        registered := hive.registered ++ [(newTH, threadName)] })
  else none

/-- `shares++` -/
def share (hive : HiveRegistry Object Name) (handle : ℕ) : Option (HiveRegistry Object Name) :=
  (hive.handles handle).map fun node => { hive with
    handles := Function.update hive.handles handle
      (some { node with shares := increment node.shares }) }

def addThread (hive : HiveRegistry Object Name) (object : Object) (threadName : Name) :
    Option (Bool × HiveRegistry Object Name) :=
  if object ∈ hive.objects then
    match hive.myThreadHandle object with
    | some _ => some (false, hive)
    | none => do
        let (myTH, pushed) ← hive.push threadName
        let shared ← pushed.share myTH
        some (true, { shared with
          myThreadHandle := Function.update shared.myThreadHandle object (some myTH) })
  else none

/-- `spawnThread`: the thread gets a copy of the object. -/
def spawnThread (hive : HiveRegistry Object Name) (object copy : Object) :
    Option (HiveRegistry Object Name) :=
  if object ∈ hive.objects ∧ copy ∉ hive.objects then do
    let handle ← hive.myThreadHandle object
    let shared ← hive.share handle
    some { shared with
      objects := insert copy shared.objects
      myThreadHandle := Function.update shared.myThreadHandle copy (some handle) }
  else none

/-- The destructor below `shares < 1`; the second walk ends within as many steps as there have
been handles. -/
def unlink (hive : HiveRegistry Object Name) (handle : ℕ) : Option (HiveRegistry Object Name) :=
  if hive.head = some handle then
    (hive.handles handle).map fun current =>
      let head := current.next
      { hive with
        head := head
        threadCount := hive.threadCount - 1
        tail := if head.isNone then none else hive.tail
        handles := Function.update hive.handles handle none
        unlinked := hive.unlinked ++ [handle] }
  else do
    let first ← hive.head
    let firstNode ← hive.handles first
    let temp ← follow ThreadHandle.next hive.handles handle (hive.fresh + 1) (some first)
      firstNode.next
    let temp ← temp
    let tempNode ← hive.handles temp
    let after ← tempNode.next
    let afterNode ← hive.handles after
    some { hive with
      tail := if hive.tail = some handle then some temp else hive.tail
      threadCount := hive.threadCount - 1
      handles := Function.update
        (Function.update hive.handles temp (some { tempNode with next := afterNode.next }))
        handle none
      unlinked := hive.unlinked ++ [handle] }

def destroy (hive : HiveRegistry Object Name) (object : Object) :
    Option (HiveRegistry Object Name) :=
  if object ∈ hive.objects then
    let left := { hive with objects := hive.objects.erase object }
    match hive.myThreadHandle object with
    | none => some left
    | some handle => do
        let node ← left.handles handle
        let shares := decrement node.shares
        let given := { left with
          handles := Function.update left.handles handle (some { node with shares := shares }) }
        if shares < 1 then given.unlink handle else some given
  else none

/-- `getThreadHandle`; the walk ends within as many steps as there have been handles. -/
def getThreadHandle [DecidableEq Name] (hive : HiveRegistry Object Name) (threadName : Name) :
    Option (Option ℕ) :=
  seek ThreadHandle.next hive.handles (fun node => node.threadName = threadName)
    (hive.fresh + 1) hive.head

end HiveRegistry

inductive HiveEvent (Object Name : Type) where
  | construct (object : Object)
  | addThread (object : Object) (threadName : Name)
  | spawnThread (object copy : Object)
  | destroy (object : Object)

namespace HiveRegistry

variable {Object Name : Type} [DecidableEq Object]

/-- The state after an operation; `none` where it has no defined effect. -/
def step (hive : HiveRegistry Object Name) :
    HiveEvent Object Name → Option (HiveRegistry Object Name)
  | .construct object => hive.construct object
  | .addThread object threadName => (hive.addThread object threadName).map Prod.snd
  | .spawnThread object copy => hive.spawnThread object copy
  | .destroy object => hive.destroy object

end HiveRegistry

/-! ## The list of handles -/

namespace HiveRegistry

variable {Object Name : Type}

def owners (hive : HiveRegistry Object Name) (handle : ℕ) : Finset Object :=
  hive.objects.filter fun object => hive.myThreadHandle object = some handle

/-- The handles that still have an owner, in the order of their registration. -/
def live (hive : HiveRegistry Object Name) : List (ℕ × Name) :=
  hive.registered.filter fun entry => (hive.owners entry.1).Nonempty

structure Ordered [DecidableEq Name] (hive : HiveRegistry Object Name) : Prop where
  linked : Linked ThreadHandle.next hive.handles hive.head (hive.live.map Prod.fst)
  tail : hive.tail = (hive.live.map Prod.fst).getLast?
  tail_null : hive.tail = none ↔ hive.head = none
  threadCount : hive.threadCount = hive.live.length
  unlinked : ∀ entry ∈ hive.registered,
    hive.unlinked.count entry.1 = if (hive.owners entry.1).Nonempty then 0 else 1
  getThreadHandle : ∀ threadName, hive.getThreadHandle threadName =
    some ((hive.live.find? fun entry => entry.2 = threadName).map Prod.fst)

def Allowed (hive : HiveRegistry Object Name) : HiveEvent Object Name → Prop
  | .construct object => object ∉ hive.objects
  | .addThread object _ => object ∈ hive.objects ∧
      (hive.myThreadHandle object = none → hive.threadCount + 1 < 2 ^ 31)
  | .spawnThread object copy =>
      object ∈ hive.objects ∧ (hive.myThreadHandle object).isSome ∧ copy ∉ hive.objects
  | .destroy object => object ∈ hive.objects

/-- A destroyed owner does not leave a number of others that an `unsigned int` takes for
none. -/
def Counted (hive : HiveRegistry Object Name) : HiveEvent Object Name → Prop
  | .destroy object => ∀ handle ∈ hive.myThreadHandle object,
      ((hive.owners handle).card - 1) % 2 ^ 32 = 0 → (hive.owners handle).card = 1
  | _ => True

instance (hive : HiveRegistry Object Name) (event : HiveEvent Object Name) :
    Decidable (hive.Counted event) :=
  match event with
  | .construct _ => .isTrue trivial
  | .addThread _ _ => .isTrue trivial
  | .spawnThread _ _ => .isTrue trivial
  | .destroy object => inferInstanceAs (Decidable (∀ handle ∈ hive.myThreadHandle object,
      ((hive.owners handle).card - 1) % 2 ^ 32 = 0 → (hive.owners handle).card = 1))

/-! ## What every operation keeps -/

/-- What the operations rely on: the linked list is the list of the live handles, and each of
these counts its owners. -/
structure Holds (hive : HiveRegistry Object Name) : Prop where
  linked : Linked ThreadHandle.next hive.handles hive.head (hive.live.map Prod.fst)
  tail : hive.tail = (hive.live.map Prod.fst).getLast?
  threadCount : hive.threadCount = hive.live.length
  node : ∀ entry ∈ hive.live, ∃ node, hive.handles entry.1 = some node ∧
    node.threadName = entry.2 ∧ node.shares = (hive.owners entry.1).card % 2 ^ 32
  distinct : (hive.registered.map Prod.fst).Nodup
  made : ∀ entry ∈ hive.registered, entry.1 < hive.fresh
  owned : ∀ object ∈ hive.objects, ∀ handle, hive.myThreadHandle object = some handle →
    handle ∈ hive.registered.map Prod.fst
  unlinked : ∀ entry ∈ hive.registered,
    hive.unlinked.count entry.1 = if (hive.owners entry.1).Nonempty then 0 else 1
  gone : ∀ handle ∈ hive.unlinked, handle < hive.fresh

theorem holds_initial : (initial : HiveRegistry Object Name).Holds where
  linked := rfl
  tail := rfl
  threadCount := rfl
  node := fun _ member => absurd member List.not_mem_nil
  distinct := List.nodup_nil
  made := fun _ member => absurd member List.not_mem_nil
  owned := fun _ member => absurd member (Finset.notMem_empty _)
  unlinked := fun _ member => absurd member List.not_mem_nil
  gone := fun _ member => absurd member List.not_mem_nil

variable {hive : HiveRegistry Object Name}

theorem mem_owners {object : Object} {handle : ℕ} :
    object ∈ hive.owners handle ↔
      object ∈ hive.objects ∧ hive.myThreadHandle object = some handle := Finset.mem_filter

theorem mem_live {entry : ℕ × Name} :
    entry ∈ hive.live ↔ entry ∈ hive.registered ∧ (hive.owners entry.1).Nonempty := by
  simp [live]

/-- Two states with the same registrations and owners have the same live handles. -/
theorem live_congr {other : HiveRegistry Object Name}
    (registered : other.registered = hive.registered)
    (owners : ∀ entry ∈ hive.registered,
      (other.owners entry.1).Nonempty ↔ (hive.owners entry.1).Nonempty) :
    other.live = hive.live := by
  rw [live, live, registered]
  exact List.filter_congr fun entry member => decide_eq_decide.mpr (owners entry member)

theorem Holds.live_distinct (holds : hive.Holds) : (hive.live.map Prod.fst).Nodup :=
  holds.distinct.sublist (List.filter_sublist.map Prod.fst)

/-- Each handle on the list is older than the next one, so there are not more than addresses. -/
theorem Holds.live_length_le (holds : hive.Holds) : hive.live.length ≤ hive.fresh := by
  have below : hive.live.map Prod.fst ⊆ List.range hive.fresh := by
    intro handle member
    obtain ⟨entry, isLive, rfl⟩ := List.mem_map.mp member
    exact List.mem_range.mpr (holds.made entry (mem_live.mp isLive).1)
  have bounded := (holds.live_distinct.subperm below).length_le
  rwa [List.length_map, List.length_range] at bounded

theorem Holds.live_of_owner (holds : hive.Holds) {object : Object} {handle : ℕ}
    (present : object ∈ hive.objects) (owns : hive.myThreadHandle object = some handle) :
    ∃ entry ∈ hive.live, entry.1 = handle := by
  obtain ⟨entry, member, rfl⟩ := List.mem_map.mp (holds.owned object present handle owns)
  exact ⟨entry, mem_live.mpr ⟨member, object, mem_owners.mpr ⟨present, owns⟩⟩, rfl⟩

theorem Holds.tail_null (holds : hive.Holds) : hive.tail = none ↔ hive.head = none := by
  rw [holds.tail, holds.linked.head?]
  cases hive.live.map Prod.fst <;> simp

theorem Holds.getThreadHandle [DecidableEq Name] (holds : hive.Holds) (threadName : Name) :
    hive.getThreadHandle threadName =
      some ((hive.live.find? fun entry => entry.2 = threadName).map Prod.fst) := by
  have bounded := holds.live_length_le
  rw [HiveRegistry.getThreadHandle, holds.linked.seek_eq _ (by rw [List.length_map]; omega),
    List.find?_map]
  congr 2
  refine List.find?_congr fun entry member => ?_
  obtain ⟨node, held, named, -⟩ := holds.node entry member
  simp [held, named]

theorem Holds.ordered [DecidableEq Name] (holds : hive.Holds) : hive.Ordered where
  linked := holds.linked
  tail := holds.tail
  tail_null := holds.tail_null
  threadCount := holds.threadCount
  unlinked := holds.unlinked
  getThreadHandle := holds.getThreadHandle

theorem Holds.withObjects (holds : hive.Holds) (objects : Finset Object)
    (myThreadHandle : Object → Option ℕ)
    (same : ∀ handle, { hive with objects, myThreadHandle }.owners handle = hive.owners handle) :
    { hive with objects, myThreadHandle }.Holds := by
  have live : { hive with objects, myThreadHandle }.live = hive.live :=
    live_congr rfl fun entry _ => by rw [same]
  exact
    { linked := by rw [live]; exact holds.linked
      tail := by rw [live]; exact holds.tail
      threadCount := by rw [live]; exact holds.threadCount
      node := fun entry member => by
        rw [live] at member
        rw [same]
        exact holds.node entry member
      distinct := holds.distinct
      made := holds.made
      owned := fun object present handle owns => by
        have owner : object ∈ { hive with objects, myThreadHandle }.owners handle :=
          mem_owners.mpr ⟨present, owns⟩
        rw [same] at owner
        obtain ⟨was, owned⟩ := mem_owners.mp owner
        exact holds.owned object was handle owned
      unlinked := fun entry member => by
        rw [same]
        exact holds.unlinked entry member
      gone := holds.gone }

/-- The owners of one handle change, and its shares with them, but it keeps an owner. -/
theorem Holds.reshare (holds : hive.Holds) (objects : Finset Object)
    (myThreadHandle : Object → Option ℕ) {handle shares : ℕ} {node : ThreadHandle Name}
    (held : hive.handles handle = some node)
    (others : ∀ other, other ≠ handle →
      { hive with objects, myThreadHandle }.owners other = hive.owners other)
    (had : (hive.owners handle).Nonempty)
    (keeps : ({ hive with objects, myThreadHandle }.owners handle).Nonempty)
    (counted : shares =
      ({ hive with objects, myThreadHandle }.owners handle).card % 2 ^ 32) :
    { hive with
      objects, myThreadHandle,
      handles :=
        Function.update hive.handles handle (some { node with shares := shares }) }.Holds :=
    by
  set after : HiveRegistry Object Name := { hive with
    objects, myThreadHandle,
    handles := Function.update hive.handles handle (some { node with shares := shares }) }
    with isAfter
  have nonempty (other : ℕ) : (after.owners other).Nonempty ↔ (hive.owners other).Nonempty := by
    by_cases same : other = handle
    · subst same
      exact iff_of_true keeps had
    · rw [show after.owners other = hive.owners other from others other same]
  have live : after.live = hive.live := live_congr rfl fun entry _ => nonempty entry.1
  exact
    { linked := by
        rw [live]
        refine holds.linked.congr fun other _ => ?_
        by_cases same : other = handle
        · subst same
          simp [isAfter, held]
        · simp [isAfter, same]
      tail := by rw [live]; exact holds.tail
      threadCount := by rw [live]; exact holds.threadCount
      node := fun entry member => by
        rw [live] at member
        obtain ⟨was, isHeld, named, shared⟩ := holds.node entry member
        by_cases same : entry.1 = handle
        · rw [same] at isHeld ⊢
          obtain rfl := Option.some.inj (held.symm.trans isHeld)
          exact ⟨_, Function.update_self _ _ _, named, counted⟩
        · rw [show after.owners entry.1 = hive.owners entry.1 from others entry.1 same]
          exact ⟨was, by simp [isAfter, same, isHeld], named, shared⟩
      distinct := holds.distinct
      made := holds.made
      owned := fun object present other owns => by
        have owner : object ∈ after.owners other := mem_owners.mpr ⟨present, owns⟩
        by_cases same : other = handle
        · obtain ⟨first, isFirst⟩ := had
          obtain ⟨was, owned⟩ := mem_owners.mp isFirst
          exact same ▸ holds.owned first was handle owned
        · rw [show after.owners other = hive.owners other from others other same] at owner
          obtain ⟨was, owned⟩ := mem_owners.mp owner
          exact holds.owned object was other owned
      unlinked := fun entry member => by
        rw [holds.unlinked entry member]
        simp only [nonempty]
      gone := holds.gone }

/-! ### The operations -/

variable [DecidableEq Object]

theorem Holds.construct (holds : hive.Holds) {object : Object} (absent : object ∉ hive.objects) :
    ∃ made, hive.construct object = some made ∧ made.Holds := by
  refine ⟨_, by rw [HiveRegistry.construct, if_neg absent], ?_⟩
  refine holds.withObjects _ _ fun handle => ?_
  ext other
  simp only [mem_owners, Finset.mem_insert]
  by_cases same : other = object
  · subst same
    simp [absent]
  · simp [same]

theorem Holds.spawnThread (holds : hive.Holds) {object copy : Object}
    (present : object ∈ hive.objects) (owns : (hive.myThreadHandle object).isSome)
    (absent : copy ∉ hive.objects) :
    ∃ spawned, hive.spawnThread object copy = some spawned ∧ spawned.Holds := by
  obtain ⟨handle, isHandle⟩ := Option.isSome_iff_exists.mp owns
  obtain ⟨entry, isLive, rfl⟩ := holds.live_of_owner present isHandle
  obtain ⟨node, held, named, shared⟩ := holds.node entry isLive
  refine ⟨_, by
    rw [HiveRegistry.spawnThread, if_pos ⟨present, absent⟩, isHandle]
    simp only [Option.bind_eq_bind, Option.bind_some, share, held, Option.map_some]
    rfl, ?_⟩
  have owners (other : ℕ) : { hive with
      objects := insert copy hive.objects
      myThreadHandle := Function.update hive.myThreadHandle copy (some entry.1) }.owners other =
        if other = entry.1 then insert copy (hive.owners entry.1) else hive.owners other := by
    ext member
    split
    · next same =>
        subst same
        by_cases isCopy : member = copy
        · simp [mem_owners, isCopy]
        · simp [mem_owners, isCopy]
    · next different =>
        by_cases isCopy : member = copy
        · subst isCopy
          simp [mem_owners, absent, Ne.symm different]
        · simp [mem_owners, isCopy]
  have isNew : copy ∉ hive.owners entry.1 := fun member => absent (mem_owners.mp member).1
  refine holds.reshare _ _ held (fun other different => by rw [owners, if_neg different])
    (mem_live.mp isLive).2 (by rw [owners, if_pos rfl]; exact Finset.insert_nonempty _ _) ?_
  rw [owners, if_pos rfl, Finset.card_insert_of_notMem isNew, shared, increment_mod]

/-- The registry behind a registration: the new handle is linked behind all others. -/
theorem Holds.addThread_eq (holds : hive.Holds) {object : Object}
    (present : object ∈ hive.objects) (owns : hive.myThreadHandle object = none)
    (room : hive.threadCount + 1 < 2 ^ 31) (threadName : Name) :
    ∃ head handles,
      hive.addThread object threadName = some (true,
        { hive with
          head, handles
          tail := some hive.fresh
          threadCount := hive.threadCount + 1
          fresh := hive.fresh + 1
          myThreadHandle := Function.update hive.myThreadHandle object (some hive.fresh)
          registered := hive.registered ++ [(hive.fresh, threadName)] }) ∧
      Linked ThreadHandle.next handles head (hive.live.map Prod.fst ++ [hive.fresh]) ∧
      handles hive.fresh = some ⟨threadName, 1, none⟩ ∧
      ∀ other < hive.fresh, ∀ node, hive.handles other = some node →
        ∃ next, handles other = some { node with next := next } := by
  have oldLive : ∀ handle ∈ hive.live.map Prod.fst, handle ≠ hive.fresh := by
    intro handle member
    obtain ⟨entry, isLive, rfl⟩ := List.mem_map.mp member
    exact (holds.made entry (mem_live.mp isLive).1).ne
  have one : increment 0 = 1 := rfl
  have linked := holds.linked
  have distinct := holds.live_distinct
  have atTail := holds.tail
  rcases List.eq_nil_or_concat' (hive.live.map Prod.fst) with empty | ⟨front, tail, split⟩
  · rw [empty] at linked atTail ⊢
    refine ⟨some hive.fresh, Function.update hive.handles hive.fresh
      (some ⟨threadName, 1, none⟩), ?_, ?_, ?_, fun other older node held => ?_⟩
    · rw [HiveRegistry.addThread, if_pos present, owns]
      simp only [push, if_pos room, show hive.tail = none from atTail, share,
        Option.bind_eq_bind, Option.bind_some, Function.update_self, Option.map_some,
        Function.update_idem, one]
    · exact ⟨rfl, _, Function.update_self _ _ _, rfl⟩
    · exact Function.update_self _ _ _
    · exact ⟨node.next, by rw [Function.update_of_ne older.ne, held]⟩
  · rw [split] at linked distinct atTail oldLive ⊢
    obtain ⟨last, held, -⟩ := linked.held
    have tailOld : tail ≠ hive.fresh := oldLive tail (by simp)
    have tailApart : tail ∉ front := fun member =>
      (List.nodup_append.mp distinct).2.2 tail member tail (List.mem_singleton.mpr rfl) rfl
    rw [List.getLast?_concat] at atTail
    refine ⟨hive.head, Function.update (Function.update hive.handles tail
        (some { last with next := some hive.fresh })) hive.fresh
      (some ⟨threadName, 1, none⟩), ?_, ?_, ?_, fun other older node isHeld => ?_⟩
    · rw [HiveRegistry.addThread, if_pos present, owns]
      simp only [push, if_pos room, atTail, share, Option.bind_eq_bind,
        Function.update_of_ne tailOld, held, Option.map_some, Option.bind_some,
        Function.update_of_ne tailOld.symm, Function.update_self, one]
      rw [Function.update_comm tailOld, Function.update_idem, Function.update_comm tailOld.symm]
    · have leads : (Function.update (Function.update hive.handles tail
          (some { last with next := some hive.fresh })) hive.fresh
          (some ⟨threadName, 1, none⟩)) tail = some { last with next := some hive.fresh } := by
        rw [Function.update_of_ne tailOld, Function.update_self]
      rw [List.append_assoc, List.singleton_append]
      refine linked.relink (fun other member => ?_) leads
        ⟨rfl, _, Function.update_self _ _ _, rfl⟩
      have different : other ≠ tail := fun same => tailApart (same ▸ member)
      rw [Function.update_of_ne (oldLive other (List.mem_append_left _ member)),
        Function.update_of_ne different]
    · exact Function.update_self _ _ _
    · rw [Function.update_of_ne older.ne]
      by_cases same : other = tail
      · subst same
        obtain rfl := Option.some.inj (held.symm.trans isHeld)
        exact ⟨some hive.fresh, Function.update_self _ _ _⟩
      · exact ⟨node.next, by rw [Function.update_of_ne same, isHeld]⟩

/-- A new handle goes to the end of the list, with the object as its only owner. -/
theorem Holds.addThread (holds : hive.Holds) {object : Object} (present : object ∈ hive.objects)
    (room : hive.myThreadHandle object = none → hive.threadCount + 1 < 2 ^ 31)
    (threadName : Name) :
    ∃ result, hive.addThread object threadName = some result ∧ result.2.Holds := by
  cases owns : hive.myThreadHandle object with
  | some handle =>
      exact ⟨(false, hive), by rw [HiveRegistry.addThread, if_pos present, owns], holds⟩
  | none =>
      obtain ⟨head, handles, added, linked, isNew, others⟩ :=
        holds.addThread_eq present owns (room owns) threadName
      refine ⟨_, added, ?_⟩
      dsimp only
      set after : HiveRegistry Object Name := { hive with
        head, handles
        tail := some hive.fresh
        threadCount := hive.threadCount + 1
        fresh := hive.fresh + 1
        myThreadHandle := Function.update hive.myThreadHandle object (some hive.fresh)
        registered := hive.registered ++ [(hive.fresh, threadName)] } with isAfter
      have unowned : hive.owners hive.fresh = ∅ := by
        refine Finset.filter_eq_empty_iff.mpr fun other isObject owned => ?_
        obtain ⟨entry, member, same⟩ := List.mem_map.mp (holds.owned other isObject _ owned)
        exact (holds.made entry member).ne same
      have owners (handle : ℕ) : after.owners handle =
          if handle = hive.fresh then {object} else hive.owners handle := by
        ext member
        split
        · next same =>
            subst same
            by_cases isObject : member = object
            · simp [mem_owners, isAfter, isObject, present]
            · have not : member ∉ hive.owners hive.fresh := by simp [unowned]
              rw [mem_owners] at not
              simpa [mem_owners, isAfter, isObject] using not
        · next different =>
            by_cases isObject : member = object
            · simp [mem_owners, isAfter, isObject, owns, Ne.symm different]
            · simp [mem_owners, isAfter, isObject]
      have old : ∀ entry ∈ hive.registered, after.owners entry.1 = hive.owners entry.1 :=
        fun entry member => by rw [owners, if_neg (holds.made entry member).ne]
      have live : after.live = hive.live ++ [(hive.fresh, threadName)] := by
        rw [HiveRegistry.live, HiveRegistry.live,
          show after.registered = hive.registered ++ [(hive.fresh, threadName)] from rfl,
          List.filter_append]
        congr 1
        · exact List.filter_congr fun entry member => by rw [old entry member]
        · simp [owners]
      exact
        { linked := by
            rw [live, List.map_append]
            exact linked
          tail := by rw [live, List.map_append]; simp [isAfter]
          threadCount := by
            rw [live, List.length_append, List.length_singleton]
            simp [isAfter, holds.threadCount]
          node := fun entry member => by
            rw [live] at member
            rcases List.mem_append.mp member with isOld | isLast
            · obtain ⟨node, held, named, shared⟩ := holds.node entry isOld
              have registered := (mem_live.mp isOld).1
              obtain ⟨next, moved⟩ := others entry.1 (holds.made entry registered) node held
              exact ⟨_, moved, named, by rw [old entry registered]; exact shared⟩
            · obtain rfl := List.mem_singleton.mp isLast
              exact ⟨_, isNew, rfl, by rw [owners, if_pos rfl]; rfl⟩
          distinct := by
            refine List.map_append ▸ List.Nodup.append holds.distinct (List.nodup_singleton _) ?_
            refine List.disjoint_singleton.mpr fun member => ?_
            obtain ⟨entry, registered, same⟩ := List.mem_map.mp member
            exact (holds.made entry registered).ne same
          made := fun entry member => by
            rcases List.mem_append.mp member with isOld | isLast
            · exact (holds.made entry isOld).trans (Nat.lt_succ_self _)
            · obtain rfl := List.mem_singleton.mp isLast
              exact Nat.lt_succ_self _
          owned := fun other isObject handle owned => by
            have owner : other ∈ after.owners handle := mem_owners.mpr ⟨isObject, owned⟩
            rw [show after.registered = hive.registered ++ [(hive.fresh, threadName)] from rfl,
              List.map_append, List.mem_append]
            rw [owners] at owner
            split at owner
            · next same => exact .inr (by simp [same])
            · obtain ⟨was, owns⟩ := mem_owners.mp owner
              exact .inl (holds.owned other was handle owns)
          unlinked := fun entry member => by
            rcases List.mem_append.mp member with isOld | isLast
            · rw [old entry isOld]
              exact holds.unlinked entry isOld
            · obtain rfl := List.mem_singleton.mp isLast
              rw [owners, if_pos rfl, if_pos (Finset.singleton_nonempty _)]
              exact List.count_eq_zero.mpr fun gone => (holds.gone _ gone).ne rfl
          gone := fun handle member => (holds.gone handle member).trans (Nat.lt_succ_self _) }

omit [DecidableEq Object] in
theorem unlink_eq (hive : HiveRegistry Object Name) {front rest : List ℕ} {handle : ℕ}
    (linked : Linked ThreadHandle.next hive.handles hive.head (front ++ handle :: rest))
    (distinct : (front ++ handle :: rest).Nodup)
    (last : hive.tail = (front ++ handle :: rest).getLast?)
    (enough : front.length ≤ hive.fresh) :
    ∃ head tail handles,
      hive.unlink handle = some { hive with
        head, tail, handles
        threadCount := hive.threadCount - 1
        unlinked := hive.unlinked ++ [handle] } ∧
      Linked ThreadHandle.next handles head (front ++ rest) ∧
      tail = (front ++ rest).getLast? ∧
      ∀ other ∈ front ++ rest, ∀ node, hive.handles other = some node →
        ∃ next, handles other = some { node with next := next } := by
  obtain ⟨current, isCurrent, leads⟩ := linked.held
  have apart := List.nodup_append.mp distinct
  have behind : handle ∉ rest := (List.nodup_cons.mp apart.2.1).1
  have before : handle ∉ front := fun member =>
    apart.2.2 handle member handle List.mem_cons_self rfl
  have restLinked : Linked ThreadHandle.next hive.handles rest.head? rest := by
    rw [← List.singleton_append, ← List.append_assoc] at linked
    exact linked.drop
  cases front with
  | nil =>
      have atHead : hive.head = some handle := linked.head?
      refine ⟨rest.head?, if rest.head?.isNone then none else hive.tail,
        Function.update hive.handles handle none, ?_, ?_, ?_, fun other member node held => ?_⟩
      · rw [unlink, if_pos atHead, isCurrent, Option.map_some, leads]
      · refine restLinked.congr fun other member => ?_
        rw [Function.update_of_ne (ne_of_mem_of_not_mem member behind)]
      · cases rest with
        | nil => rfl
        | cons next rest => rw [last]; simp
      · exact ⟨node.next, by
          rw [Function.update_of_ne (ne_of_mem_of_not_mem member behind), held]⟩
  | cons first middle =>
      have atHead : hive.head = some first := linked.head?
      have notHead : ¬hive.head = some handle := by
        rw [atHead]
        exact fun same => before (by rw [Option.some.inj same]; exact List.mem_cons_self)
      have fromHead : Linked ThreadHandle.next hive.handles hive.head
          ([] ++ first :: (middle ++ handle :: rest)) := linked
      obtain ⟨firstNode, isFirst, firstLeads⟩ := fromHead.held
      -- the node in front of the handle, where the walk ends
      obtain ⟨init, temp, split⟩ := List.eq_nil_or_concat' (first :: middle)
        |>.resolve_left (List.cons_ne_nil _ _)
      have walked : follow ThreadHandle.next hive.handles handle (hive.fresh + 1) (some first)
          firstNode.next = some (some temp) := by
        rw [firstLeads]
        rw [List.length_cons] at enough
        have found := fromHead.follow_eq
          (fun member => before (List.mem_cons_of_mem first member))
          (show middle.length < hive.fresh + 1 by omega)
        rwa [split, List.getLast?_concat] at found
      rw [split] at linked distinct before last apart ⊢
      have split' : init ++ [temp] ++ handle :: rest = init ++ temp :: (handle :: rest) := by simp
      rw [split'] at linked distinct last
      obtain ⟨tempNode, isTemp, tempLeads⟩ := linked.held
      have tempApart : temp ∉ init ∧ temp ≠ handle ∧ temp ∉ rest := by
        obtain ⟨-, behindTemp, apart⟩ := List.nodup_append.mp distinct
        have notBehind := (List.nodup_cons.mp behindTemp).1
        rw [List.mem_cons, not_or] at notBehind
        exact ⟨fun member => apart temp member temp List.mem_cons_self rfl, notBehind⟩
      refine ⟨hive.head, if hive.tail = some handle then some temp else hive.tail,
        Function.update (Function.update hive.handles temp
          (some { tempNode with next := current.next })) handle none,
        ?_, ?_, ?_, fun other member node held => ?_⟩
      · rw [unlink, if_neg notHead, atHead]
        simp only [Option.bind_eq_bind, Option.bind_some, isFirst, walked, isTemp, tempLeads,
          List.head?_cons, isCurrent]
      · have isMoved : (Function.update (Function.update hive.handles temp
            (some { tempNode with next := current.next })) handle none) temp =
              some { tempNode with next := current.next } := by
          rw [Function.update_of_ne tempApart.2.1, Function.update_self]
        rw [List.append_assoc, List.singleton_append]
        refine linked.relink (fun other member => ?_) isMoved ?_
        · rw [Function.update_of_ne (ne_of_mem_of_not_mem (List.mem_append_left _ member) before),
            Function.update_of_ne (ne_of_mem_of_not_mem member tempApart.1)]
        · rw [leads]
          refine restLinked.congr fun other member => ?_
          rw [Function.update_of_ne (ne_of_mem_of_not_mem member behind),
            Function.update_of_ne (ne_of_mem_of_not_mem member tempApart.2.2)]
      · rw [last]
        rcases List.eq_nil_or_concat' rest with rfl | ⟨others, final, rfl⟩
        · simp
        · have different : final ≠ handle := fun same => behind (by simp [same])
          have ends (list : List ℕ) : (list ++ (others ++ [final])).getLast? = some final := by
            rw [← List.append_assoc, List.getLast?_concat]
          rw [show init ++ temp :: handle :: (others ++ [final]) =
              (init ++ [temp, handle]) ++ (others ++ [final]) by simp, ends, ends,
            if_neg fun same => different (Option.some.inj same)]
      · have notHandle : other ≠ handle := by
          rcases List.mem_append.mp member with front | back
          · exact ne_of_mem_of_not_mem front before
          · exact ne_of_mem_of_not_mem back behind
        rw [Function.update_of_ne notHandle]
        by_cases same : other = temp
        · subst same
          obtain rfl := Option.some.inj (isTemp.symm.trans held)
          exact ⟨current.next, Function.update_self _ _ _⟩
        · exact ⟨node.next, by rw [Function.update_of_ne same, held]⟩

/-- Stated for any function, so that nothing behind the bind is evaluated. -/
theorem bind_found {Found Result : Type} {value : Option Found} {found : Found}
    (held : value = some found) (rest : Found → Option Result) :
    (value >>= rest) = rest found := by
  rw [held]
  rfl

theorem destroy_eq {object : Object} {handle : ℕ} {node : ThreadHandle Name}
    (present : object ∈ hive.objects) (owns : hive.myThreadHandle object = some handle)
    (held : hive.handles handle = some node) :
    hive.destroy object =
      let given := { hive with
        objects := hive.objects.erase object
        handles := Function.update hive.handles handle
          (some { node with shares := decrement node.shares }) }
      if decrement node.shares < 1 then given.unlink handle else some given := by
  rw [HiveRegistry.destroy, if_pos present, owns]
  exact bind_found held _

omit [DecidableEq Object] in
/-- The last owner of a handle is gone, and the handle leaves the list. -/
theorem Holds.unlink (holds : hive.Holds) {objects : Finset Object} {entry : ℕ × Name}
    {shares : ℕ} {node : ThreadHandle Name} (isLive : entry ∈ hive.live)
    (held : hive.handles entry.1 = some node)
    (others : ∀ other, other ≠ entry.1 →
      { hive with objects }.owners other = hive.owners other)
    (nobody : { hive with objects }.owners entry.1 = ∅) :
    ∃ left, { hive with
      objects
      handles := Function.update hive.handles entry.1
        (some { node with shares := shares }) }.unlink entry.1 = some left ∧ left.Holds := by
  obtain ⟨front, rest, split⟩ := List.append_of_mem
    (show entry.1 ∈ hive.live.map Prod.fst from List.mem_map_of_mem isLive)
  have distinct := split ▸ holds.live_distinct
  have length : front.length ≤ hive.fresh := by
    have bounded := holds.live_length_le
    have total := congrArg List.length split
    rw [List.length_map, List.length_append, List.length_cons] at total
    omega
  have linked := split ▸ holds.linked
  obtain ⟨head, tail, handles, unlinked, linkedThen, tailThen, nodes⟩ :=
    unlink_eq { hive with
        objects
        handles := Function.update hive.handles entry.1 (some { node with shares := shares }) }
      (linked.congr fun other _ => by
        by_cases same : other = entry.1
        · subst same
          simp [held]
        · simp [same])
      distinct (split ▸ holds.tail) length
  refine ⟨_, unlinked, ?_⟩
  dsimp only
  set after : HiveRegistry Object Name := { hive with
    objects, head, tail, handles
    threadCount := hive.threadCount - 1
    unlinked := hive.unlinked ++ [entry.1] } with isAfter
  have same : ∀ other, other ≠ entry.1 → after.owners other = hive.owners other := others
  have none : after.owners entry.1 = ∅ := nobody
  have liveThen : after.live = hive.live.filter fun other => other.1 ≠ entry.1 := by
    rw [HiveRegistry.live, HiveRegistry.live, List.filter_filter]
    refine List.filter_congr fun other _ => ?_
    by_cases isEntry : other.1 = entry.1
    · simp [isEntry, none]
    · simp [isEntry, same other.1 isEntry]
  have liveMap : after.live.map Prod.fst = front ++ rest := by
    have apart := List.nodup_append.mp distinct
    have behind : entry.1 ∉ rest := (List.nodup_cons.mp apart.2.1).1
    have before : entry.1 ∉ front := fun member =>
      apart.2.2 entry.1 member entry.1 List.mem_cons_self rfl
    rw [liveThen, show (hive.live.filter fun other => other.1 ≠ entry.1).map Prod.fst =
      (hive.live.map Prod.fst).filter (· ≠ entry.1) by rw [List.filter_map]; rfl, split,
      List.filter_append, List.filter_cons_of_neg (by simp),
      List.filter_eq_self.mpr fun other member => by
        simpa using ne_of_mem_of_not_mem member before,
      List.filter_eq_self.mpr fun other member => by
        simpa using ne_of_mem_of_not_mem member behind]
  exact
    { linked := by rw [liveMap]; exact linkedThen
      tail := by rw [liveMap]; exact tailThen
      threadCount := by
        have total := congrArg List.length split
        have left := congrArg List.length liveMap
        rw [List.length_map, List.length_append] at total left
        rw [List.length_cons] at total
        rw [show after.threadCount = hive.threadCount - 1 from rfl, holds.threadCount]
        omega
      node := fun other member => by
        have inRest : other.1 ∈ front ++ rest := liveMap ▸ List.mem_map_of_mem member
        rw [liveThen, List.mem_filter, decide_eq_true_iff] at member
        obtain ⟨was, isHeld, named, shared⟩ := holds.node other member.1
        obtain ⟨next, moved⟩ := nodes other.1 inRest was
          ((Function.update_of_ne member.2 _ _).trans isHeld)
        exact ⟨_, moved, named, by rw [same other.1 member.2]; exact shared⟩
      distinct := holds.distinct
      made := holds.made
      owned := fun object present handle owns => by
        have owner : object ∈ after.owners handle := mem_owners.mpr ⟨present, owns⟩
        by_cases isEntry : handle = entry.1
        · rw [isEntry, none] at owner
          exact absurd owner (Finset.notMem_empty _)
        · rw [same handle isEntry] at owner
          obtain ⟨was, owned⟩ := mem_owners.mp owner
          exact holds.owned object was handle owned
      unlinked := fun other member => by
        rw [show after.unlinked = hive.unlinked ++ [entry.1] from rfl, List.count_append]
        have count := holds.unlinked other member
        by_cases isEntry : other.1 = entry.1
        · rw [isEntry] at count ⊢
          rw [if_pos (mem_live.mp isLive).2] at count
          simp [none, count]
        · rw [same other.1 isEntry, count,
            List.count_eq_zero.mpr (by simpa using isEntry), add_zero]
      gone := fun handle member => by
        rcases List.mem_append.mp member with old | last
        · exact holds.gone handle old
        · rw [List.mem_singleton.mp last]
          exact holds.made entry (mem_live.mp isLive).1 }

/-- The destructor takes an owner from its handle, and the handle out of the list when that was
the last one. -/
theorem Holds.destroy (holds : hive.Holds) {object : Object} (present : object ∈ hive.objects)
    (counted : ∀ handle ∈ hive.myThreadHandle object,
      ((hive.owners handle).card - 1) % 2 ^ 32 = 0 → (hive.owners handle).card = 1) :
    ∃ left, hive.destroy object = some left ∧ left.Holds := by
  have without (handle : ℕ) :
      { hive with objects := hive.objects.erase object }.owners handle =
        (hive.owners handle).erase object := by
    ext member
    simp [mem_owners, and_assoc]
  cases owns : hive.myThreadHandle object with
  | none =>
      refine ⟨_, by rw [HiveRegistry.destroy, if_pos present, owns], ?_⟩
      refine holds.withObjects _ _ fun handle => ?_
      rw [without]
      exact Finset.erase_eq_of_notMem fun member => by simp [mem_owners, owns] at member
  | some handle =>
      obtain ⟨entry, isLive, rfl⟩ := holds.live_of_owner present owns
      obtain ⟨node, held, named, shared⟩ := holds.node entry isLive
      have isOwner : object ∈ hive.owners entry.1 := mem_owners.mpr ⟨present, owns⟩
      have some : 0 < (hive.owners entry.1).card := Finset.card_pos.mpr ⟨object, isOwner⟩
      have shares : decrement node.shares =
          ((hive.owners entry.1).erase object).card % 2 ^ 32 := by
        rw [shared, Finset.card_erase_of_mem isOwner, decrement_mod some]
      have others (other : ℕ) (different : other ≠ entry.1) :
          { hive with objects := hive.objects.erase object }.owners other = hive.owners other := by
        rw [without]
        refine Finset.erase_eq_of_notMem fun member => different ?_
        exact (Option.some.inj (owns.symm.trans (mem_owners.mp member).2)).symm
      rw [destroy_eq present owns held]
      by_cases last : decrement node.shares < 1
      · rw [if_pos last]
        have alone : (hive.owners entry.1).card = 1 := by
          rw [shares, Finset.card_erase_of_mem isOwner] at last
          exact counted entry.1 owns (Nat.lt_one_iff.mp last)
        exact holds.unlink isLive held others (by
          rw [without, ← Finset.card_eq_zero, Finset.card_erase_of_mem isOwner, alone])
      · rw [if_neg last]
        have keeps : ((hive.owners entry.1).erase object).Nonempty := by
          refine Finset.card_pos.mp (Nat.pos_of_ne_zero fun zero => last ?_)
          rw [shares, zero, Nat.zero_mod]
          exact Nat.one_pos
        exact ⟨_, rfl, holds.reshare _ _ held others ⟨object, isOwner⟩
          (by rw [without]; exact keeps) (by rw [without]; exact shares)⟩

theorem Holds.step_isSome (holds : hive.Holds) {event : HiveEvent Object Name}
    (allowed : hive.Allowed event) (counted : hive.Counted event) :
    ∃ next, hive.step event = some next ∧ next.Holds := by
  cases event with
  | construct object => exact holds.construct allowed
  | addThread object threadName =>
      obtain ⟨result, added, holdsThen⟩ := holds.addThread allowed.1 allowed.2 threadName
      exact ⟨result.2, by rw [step, added, Option.map_some], holdsThen⟩
  | spawnThread object copy => exact holds.spawnThread allowed.1 allowed.2.1 allowed.2.2
  | destroy object => exact holds.destroy allowed counted

theorem step_allowed {event : HiveEvent Object Name} {next : HiveRegistry Object Name}
    (stepped : hive.step event = some next) : hive.Allowed event := by
  cases event with
  | construct object =>
      rw [step, construct] at stepped
      split at stepped
      · cases stepped
      · assumption
  | addThread object threadName =>
      obtain ⟨result, added, -⟩ := Option.map_eq_some_iff.mp stepped
      rw [addThread] at added
      split at added
      · next present =>
          refine ⟨present, fun owns => ?_⟩
          rw [owns] at added
          obtain ⟨pushed, isPushed, -⟩ := Option.bind_eq_some_iff.mp added
          rw [push] at isPushed
          split at isPushed
          · assumption
          · cases isPushed
      · cases added
  | spawnThread object copy =>
      rw [step, spawnThread] at stepped
      split at stepped
      · next guard =>
          obtain ⟨handle, owns, -⟩ := Option.bind_eq_some_iff.mp stepped
          exact ⟨guard.1, Option.isSome_iff_exists.mpr ⟨handle, owns⟩, guard.2⟩
      · cases stepped
  | destroy object =>
      rw [step, destroy] at stepped
      split at stepped
      · assumption
      · cases stepped

/-! ## Every run -/

/-- As long as no destructor takes the number of owners that are left for none, the list of
handles is the list of the live ones, and every operation of a program has a defined effect. -/
theorem registry_ordered [DecidableEq Name] {events : List (HiveEvent Object Name)}
    {state : HiveRegistry Object Name} (ran : run step initial events = some state)
    (counted : Along step (fun before event _ => Counted before event) initial events) :
    state.Ordered ∧
      ∀ event, state.Allowed event → state.Counted event → (state.step event).isSome := by
  have holds : state.Holds := run_invariant_of_along Holds
    (fun before event after holds counted stepped => by
      obtain ⟨next, isNext, holdsThen⟩ := holds.step_isSome (step_allowed stepped) counted
      rwa [Option.some.inj (stepped.symm.trans isNext)])
    holds_initial counted ran
  refine ⟨holds.ordered, fun event allowed counted => ?_⟩
  obtain ⟨next, stepped, -⟩ := holds.step_isSome allowed counted
  exact Option.isSome_iff_exists.mpr ⟨next, stepped⟩

/-- Three objects add threads of two names; the copy of the second one outlives it. -/
def threeThreads : List (HiveEvent ℕ ℕ) :=
  [.construct 0, .construct 1, .construct 2, .addThread 0 7, .addThread 1 8, .addThread 2 8,
    .spawnThread 1 3, .destroy 1, .destroy 0, .destroy 3]

theorem registry_ordered_three :
    ∃ state, run step initial threeThreads = some state ∧ state.Ordered ∧
      ∀ event, state.Allowed event → state.Counted event → (state.step event).isSome := by
  have ran : (run step initial threeThreads).isSome := by decide +kernel
  have counted : Along step (fun before event _ => Counted before event) initial
      threeThreads := by decide +kernel
  obtain ⟨state, ran⟩ := Option.isSome_iff_exists.mp ran
  exact ⟨state, ran, registry_ordered ran counted⟩

example : (run step initial threeThreads).map (fun state =>
    (state.live, state.unlinked, state.threadCount, state.getThreadHandle 8)) =
      some ([(2, 8)], [0, 1], 1, some (some 2)) := by decide +kernel

def spawnedCopies (copies : ℕ) : List (HiveEvent ℕ ℕ) :=
  [.construct 0, .addThread 0 0] ++
    (List.range copies).map fun copy => .spawnThread 0 (copy + 1)

structure Spawned (copies : ℕ) (hive : HiveRegistry ℕ ℕ) : Prop where
  holds : hive.Holds
  registered : hive.registered = [(0, 0)]
  objects : hive.objects = Finset.range (copies + 1)
  owns : ∀ object < copies + 1, hive.myThreadHandle object = some 0

theorem spawnThread_objects {object copy : Object} {handle : ℕ}
    {next : HiveRegistry Object Name} (owns : hive.myThreadHandle object = some handle)
    (spawned : hive.spawnThread object copy = some next) :
    next.registered = hive.registered ∧ next.objects = insert copy hive.objects ∧
      next.myThreadHandle = Function.update hive.myThreadHandle copy (some handle) := by
  rw [spawnThread] at spawned
  split at spawned
  · obtain ⟨found, isFound, rest⟩ := Option.bind_eq_some_iff.mp spawned
    obtain rfl := Option.some.inj (isFound.symm.trans owns)
    obtain ⟨shared, isShared, same⟩ := Option.bind_eq_some_iff.mp rest
    obtain ⟨node, -, rfl⟩ := Option.map_eq_some_iff.mp isShared
    obtain rfl := Option.some.inj same
    exact ⟨rfl, rfl, rfl⟩
  · cases spawned

theorem spawnedCopies_run (copies : ℕ) :
    ∃ state, run step initial (spawnedCopies copies) = some state ∧ Spawned copies state := by
  induction copies with
  | zero =>
      have start : (initial : HiveRegistry ℕ ℕ).Holds := holds_initial
      obtain ⟨made, isMade, madeHolds⟩ := start.construct (Finset.notMem_empty 0)
      obtain rfl := Option.some.inj isMade
      obtain ⟨added, isAdded, addedHolds⟩ := madeHolds.addThread (Finset.mem_insert_self 0 ∅)
        (fun _ => by decide) 0
      obtain rfl := Option.some.inj isAdded
      refine ⟨_, rfl, addedHolds, rfl, rfl, fun object lt => ?_⟩
      obtain rfl : object = 0 := by omega
      rfl
  | succ copies inductionHypothesis =>
      obtain ⟨state, ran, spawned⟩ := inductionHypothesis
      have present : 0 ∈ state.objects := by simp [spawned.objects]
      have absent : copies + 1 ∉ state.objects := by simp [spawned.objects]
      have owns := spawned.owns 0 (Nat.succ_pos copies)
      obtain ⟨next, stepped, holds⟩ :=
        spawned.holds.spawnThread present (by rw [owns]; rfl) absent
      obtain ⟨registered, objects, handles⟩ := spawnThread_objects owns stepped
      have more : spawnedCopies (copies + 1) =
          spawnedCopies copies ++ [.spawnThread 0 (copies + 1)] := by
        simp [spawnedCopies, List.range_succ]
      refine ⟨next, ?_, holds, registered.trans spawned.registered, ?_, fun object lt => ?_⟩
      · rw [more, run_append, ran, Option.bind_some, run_cons]
        rw [show step state (.spawnThread 0 (copies + 1)) = some next from stepped]
        rfl
      · rw [objects, spawned.objects, Finset.range_add_one (n := copies + 1)]
      · rw [handles]
        by_cases last : object = copies + 1
        · rw [last, Function.update_self]
        · rw [Function.update_of_ne last, spawned.owns object (by omega)]

/-- When the number of the copies counts as zero, the destructor of the object takes the handle
from all of them. -/
theorem Spawned.destroy {copies : ℕ} {state : HiveRegistry ℕ ℕ} (spawned : Spawned copies state)
    (some : 0 < copies) (zero : copies % 2 ^ 32 = 0) :
    ∃ left, state.destroy 0 = .some left ∧ ¬ left.Ordered := by
  have owns := spawned.owns 0 (Nat.succ_pos copies)
  have present : 0 ∈ state.objects := by simp [spawned.objects]
  have all : state.owners 0 = Finset.range (copies + 1) := by
    rw [owners, spawned.objects, Finset.filter_eq_self]
    exact fun object member => spawned.owns object (Finset.mem_range.mp member)
  have live : state.live = [(0, 0)] := by simp [HiveRegistry.live, spawned.registered, all]
  obtain ⟨node, held, -, shared⟩ := spawned.holds.node (0, 0) (by simp [live])
  have none : decrement node.shares = 0 := by
    rw [shared, all, Finset.card_range, decrement_mod (Nat.succ_pos copies),
      Nat.succ_sub_one, zero]
  have linked : Linked ThreadHandle.next state.handles state.head ([] ++ 0 :: []) := by
    have linked := spawned.holds.linked
    rwa [live] at linked
  have last : state.tail = ([] ++ 0 :: []).getLast? := by
    have tail := spawned.holds.tail
    rwa [live] at tail
  obtain ⟨head, tail, handles, unlinked, linkedThen, -⟩ :=
    unlink_eq { state with
        objects := state.objects.erase 0
        handles := Function.update state.handles 0
          (.some { node with shares := decrement node.shares }) }
      (linked.congr fun other member => by
        obtain rfl : other = 0 := List.mem_singleton.mp member
        simp [show state.handles 0 = .some node from held])
      (List.nodup_singleton 0) last (Nat.zero_le _)
  have destroyed := destroy_eq present owns held
  rw [if_pos (by rw [none]; exact one_pos)] at destroyed
  refine ⟨_, destroyed.trans unlinked, fun ordered => ?_⟩
  -- another copy still owns the handle, but the list is empty
  have empty := ordered.linked.head?
  rw [show head = Option.none from linkedThen, eq_comm, List.head?_eq_none_iff,
    List.map_eq_nil_iff] at empty
  refine absurd (mem_live.mpr ⟨?_, 1, ?_⟩) (empty ▸ List.not_mem_nil (a := (0, 0)))
  · exact spawned.registered ▸ List.mem_singleton.mpr rfl
  · exact mem_owners.mpr ⟨by simp [spawned.objects, some], spawned.owns 1 (by omega)⟩

/-- With `2 ^ 32 + 1` owners a destructor takes the handle from all others. -/
theorem shares_overflow :
    ∃ state, run step initial (spawnedCopies (2 ^ 32) ++ [.destroy 0]) = some state ∧
      ¬ state.Ordered := by
  generalize isCopies : 2 ^ 32 = copies
  obtain ⟨state, ran, spawned⟩ := spawnedCopies_run copies
  obtain ⟨left, destroyed, unordered⟩ := spawned.destroy (by omega)
    (by rw [← isCopies, Nat.mod_self])
  refine ⟨left, ?_, unordered⟩
  rw [run_append, ran, Option.bind_some, run_cons,
    show step state (.destroy 0) = state.destroy 0 from rfl, destroyed]
  rfl

end HiveRegistry

end OperationFrontLine.Mailbox
