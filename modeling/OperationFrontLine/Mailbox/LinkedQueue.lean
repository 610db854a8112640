import OperationFrontLine.Library.LinkedList
import OperationFrontLine.Library.Observed

/-!
# The linked queue

`HiveQueue` keeps its messages in nodes on the heap, each of which points to the next one.
A null pointer is `none`; an operation that follows a pointer to no node has no defined
effect and is `none` as a whole.
-/

namespace OperationFrontLine.Mailbox

open OperationFrontLine.Library

universe u

/-- `HiveQueue::Node` -/
structure Node (Message : Type u) where
  msg : Message
  next : Option ℕ

/-- `HiveQueue`, with the nodes that are on the heap. -/
structure HiveQueue (Message : Type u) where
  count : ℕ
  head : Option ℕ
  tail : Option ℕ
  nodes : ℕ → Option (Node Message)
  /-- the address of the next `new Node` -/
  fresh : ℕ

namespace HiveQueue

variable {Message : Type u}

def new : HiveQueue Message where
  count := 0
  head := none
  tail := none
  nodes := fun _ => none
  fresh := 0

/-- `push`, which returns true. -/
def push (queue : HiveQueue Message) (msg : Message) : Option (HiveQueue Message) :=
  let temp := queue.fresh
  let nodes := Function.update queue.nodes temp (some ⟨msg, none⟩)
  match queue.head with
  | none => some
      { count := 1
        head := some temp
        tail := some temp
        nodes := nodes
        fresh := temp + 1 }
  | some _ =>
      queue.tail.bind fun tail => (nodes tail).map fun last =>
        { queue with
          count := (queue.count + 1) % 2 ^ 32
          tail := some temp
          nodes := Function.update nodes tail (some { last with next := some temp })
          fresh := temp + 1 }

/-- `remove`: whether it returns true, and the queue behind it. -/
def remove (queue : HiveQueue Message) : Option (Bool × HiveQueue Message) :=
  match queue.head with
  | none => some (false, queue)
  | some temp =>
      (queue.nodes temp).map fun node =>
        (true, { queue with
          head := node.next
          tail := if node.next = none then none else queue.tail
          nodes := Function.update queue.nodes temp none
          count := (queue.count + (2 ^ 32 - 1)) % 2 ^ 32 })

/-- `peek`: the message, or `none` where it returns false. -/
def peek (queue : HiveQueue Message) : Option (Option Message) :=
  match queue.head with
  | none => some none
  | some head => (queue.nodes head).map fun node => some node.msg

/-- `pop`: the message, or `none` where it returns false. -/
def pop (queue : HiveQueue Message) : Option (Option Message × HiveQueue Message) :=
  queue.peek.bind fun peeked =>
    match peeked with
    | none => some (none, queue)
    | some msg => queue.remove.map fun removed =>
        (if removed.1 then some msg else none, removed.2)

def size (queue : HiveQueue Message) : ℕ := queue.count

/-! ## The chain of nodes -/

/-- What the operations rely on: the nodes form a chain that ends at the tail. -/
structure Holds (queue : HiveQueue Message) (cells : List (ℕ × Message)) : Prop where
  linked : Linked Node.next queue.nodes queue.head (cells.map Prod.fst)
  held : ∀ cell ∈ cells, (queue.nodes cell.1).map Node.msg = some cell.2
  tail : queue.tail = cells.getLast?.map Prod.fst
  distinct : (cells.map Prod.fst).Nodup
  made : ∀ cell ∈ cells, cell.1 < queue.fresh
  count : queue.count = cells.length % 2 ^ 32

theorem holds_new : (new : HiveQueue Message).Holds [] where
  linked := rfl
  held := by simp
  tail := rfl
  distinct := List.nodup_nil
  made := by simp
  count := rfl

theorem Holds.first {queue : HiveQueue Message} {cell : ℕ × Message}
    {rest : List (ℕ × Message)} (holds : queue.Holds (cell :: rest)) :
    queue.head = some cell.1 ∧ ∃ node, queue.nodes cell.1 = some node ∧ node.msg = cell.2 ∧
      Linked Node.next queue.nodes node.next (rest.map Prod.fst) := by
  obtain ⟨atHead, node, isNode, later⟩ := holds.linked
  have msg := holds.held cell (by simp)
  rw [isNode] at msg
  exact ⟨atHead, node, isNode, Option.some.inj msg, later⟩

theorem Holds.push_nil {queue : HiveQueue Message} (holds : queue.Holds []) (msg : Message) :
    ∃ pushed, queue.push msg = some pushed ∧ pushed.Holds [(queue.fresh, msg)] := by
  have empty : queue.head = none := holds.linked
  refine ⟨_, by rw [HiveQueue.push, empty], ?_⟩
  constructor
  · exact ⟨rfl, ⟨msg, none⟩, Function.update_self _ _ _, rfl⟩
  · simp
  · rfl
  · simp
  · simp
  · rfl

theorem Holds.push_concat {queue : HiveQueue Message} {front : List (ℕ × Message)} {tail : ℕ}
    {last : Message} (holds : queue.Holds (front ++ [(tail, last)])) (msg : Message) :
    ∃ pushed, queue.push msg = some pushed ∧
      pushed.Holds (front ++ [(tail, last)] ++ [(queue.fresh, msg)]) := by
  have atTail : queue.tail = some tail := by simp [holds.tail]
  have linked := holds.linked
  rw [List.map_append, List.map_singleton] at linked
  obtain ⟨first, atHead⟩ : ∃ first, queue.head = some first := by
    rw [linked.head?]
    exact Option.isSome_iff_exists.mp (by simp)
  obtain ⟨node, isNode, -⟩ := linked.held
  have older : ∀ cell ∈ front ++ [(tail, last)], cell.1 ≠ queue.fresh :=
    fun cell member => (holds.made cell member).ne
  have tailOld : tail ≠ queue.fresh := older (tail, last) (by simp)
  have distinct := holds.distinct
  rw [List.map_append, List.nodup_append] at distinct
  have before : ∀ cell ∈ front, cell.1 ≠ tail := fun cell member =>
    distinct.2.2 cell.1 (List.mem_map_of_mem member) tail (by simp)
  refine ⟨_, by
    rw [HiveQueue.push, atHead, atTail, Option.bind_some, Function.update_of_ne tailOld,
      isNode, Option.map_some], ?_⟩
  constructor
  · rw [← atHead, List.map_append, List.map_append, List.append_assoc]
    refine linked.relink (fun other member => ?_) (Function.update_self _ _ _) ?_
    · obtain ⟨cell, isCell, rfl⟩ := List.mem_map.mp member
      dsimp only
      rw [Function.update_of_ne (before cell isCell),
        Function.update_of_ne (older cell (by simp [isCell]))]
    · refine ⟨rfl, ⟨msg, none⟩, ?_, rfl⟩
      dsimp only
      rw [Function.update_of_ne tailOld.symm, Function.update_self]
  · intro cell member
    dsimp only
    rcases List.mem_append.mp member with old | new
    · have msgOf := holds.held cell old
      by_cases isTail : cell.1 = tail
      · rw [isTail, isNode] at msgOf
        rw [isTail, Function.update_self]
        exact msgOf
      · rw [Function.update_of_ne isTail, Function.update_of_ne (older cell old)]
        exact msgOf
    · rw [List.mem_singleton.mp new, Function.update_of_ne tailOld.symm, Function.update_self]
      rfl
  · simp
  · rw [List.map_append]
    refine List.Nodup.append holds.distinct (by simp) ?_
    simp only [List.map_cons, List.map_nil, List.disjoint_singleton]
    intro member
    obtain ⟨cell, isCell, same⟩ := List.mem_map.mp member
    exact older cell isCell same
  · intro cell member
    rcases List.mem_append.mp member with old | new
    · exact (holds.made cell old).trans (Nat.lt_succ_self _)
    · rw [List.mem_singleton.mp new]
      exact Nat.lt_succ_self _
  · simp only [holds.count, List.length_append, Nat.mod_add_mod]
    rfl

theorem Holds.push {queue : HiveQueue Message} {cells : List (ℕ × Message)}
    (holds : queue.Holds cells) (msg : Message) :
    ∃ pushed, queue.push msg = some pushed ∧
      pushed.Holds (cells ++ [(queue.fresh, msg)]) := by
  rcases List.eq_nil_or_concat cells with rfl | ⟨front, ⟨tail, last⟩, rfl⟩
  · exact holds.push_nil msg
  · rw [List.concat_eq_append] at holds ⊢
    exact holds.push_concat msg

theorem Holds.peek {queue : HiveQueue Message} {cells : List (ℕ × Message)}
    (holds : queue.Holds cells) : queue.peek = some (cells.head?.map Prod.snd) := by
  cases cells with
  | nil =>
      rw [HiveQueue.peek, show queue.head = none from holds.linked]
      rfl
  | cons cell rest =>
      obtain ⟨atHead, node, isNode, msg, -⟩ := holds.first
      rw [HiveQueue.peek, atHead]
      simp [isNode, msg]

/-- A removal takes the oldest message and fails on the empty queue only. -/
theorem Holds.remove {queue : HiveQueue Message} {cells : List (ℕ × Message)}
    (holds : queue.Holds cells) :
    ∃ removed, queue.remove = some (!cells.isEmpty, removed) ∧ removed.Holds cells.tail := by
  cases cells with
  | nil =>
      refine ⟨queue, ?_, holds⟩
      rw [HiveQueue.remove, show queue.head = none from holds.linked]
      rfl
  | cons cell rest =>
      obtain ⟨atHead, node, isNode, -, later⟩ := holds.first
      have distinct := List.nodup_cons.mp holds.distinct
      have others : ∀ other ∈ rest, other.1 ≠ cell.1 := fun other member same =>
        distinct.1 (same ▸ List.mem_map_of_mem member)
      refine ⟨_, by rw [HiveQueue.remove, atHead]; simp only [isNode, Option.map_some]; rfl, ?_⟩
      constructor
      · refine later.congr fun address member => ?_
        obtain ⟨other, isOther, rfl⟩ := List.mem_map.mp member
        dsimp only
        rw [Function.update_of_ne (others other isOther)]
      · intro other member
        dsimp only
        rw [Function.update_of_ne (others other member)]
        exact holds.held other (List.mem_of_mem_tail member)
      · cases rest with
        | nil => simp [show node.next = none from later]
        | cons second rest => simp [later.1, holds.tail]
      · exact distinct.2
      · exact fun other member => holds.made other (List.mem_of_mem_tail member)
      · simp only [holds.count, List.tail_cons, List.length_cons, Nat.mod_add_mod]
        rw [show rest.length + 1 + (2 ^ 32 - 1) = rest.length + 2 ^ 32 by omega,
          Nat.add_mod_right]

end HiveQueue

end OperationFrontLine.Mailbox
