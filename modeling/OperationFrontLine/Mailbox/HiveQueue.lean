import OperationFrontLine.Library.RingBuffer

/-!
# The message queue of a thread handle

`HiveQueueC` keeps its messages in an array used as a ring: `count` messages
from `head` on, the next one written at `tail`.  A full array is copied into a
longer one, with the oldest message first.  `new T[n]` does not set the cells
of an array, so that what they hold is a parameter.
-/

namespace OperationFrontLine.Mailbox

open OperationFrontLine.Library

universe u

/-- `HQ_INIT_SIZE`: the first length of the array, and what it grows by. -/
def hqInitSize : Nat := 50

/-- `HiveQueueC`: `queue` is the array, `aSize` its length. -/
structure HiveQueueC (Message : Type u) where
  queue : List Message
  count : Nat
  aSize : Nat
  tail : Nat
  head : Nat
deriving DecidableEq

namespace HiveQueueC

variable {Message : Type u} [Inhabited Message]

/-- `new T[n]`, with what happens to be in its cells. -/
def newArray (cells : Nat → Message) (n : Nat) : List Message := (List.range n).map cells

omit [Inhabited Message] in
@[simp]
theorem length_newArray (cells : Nat → Message) (n : Nat) : (newArray cells n).length = n := by
  simp [newArray]

theorem getD_newArray {cells : Nat → Message} {n position : Nat} (inside : position < n) :
    (newArray cells n).getD position default = cells position := by
  simp [newArray, inside]

-- what the cells of the array of each length hold when it is new; a queue has no two arrays of
-- one length
variable (fresh : Nat → Nat → Message)

def new : HiveQueueC Message :=
  { queue := newArray (fresh hqInitSize) hqInitSize
    count := 0
    aSize := hqInitSize
    tail := 0
    head := 0 }

def size (queue : HiveQueueC Message) : Nat := queue.count

def cell (queue : HiveQueueC Message) (position : Nat) : Message :=
  queue.queue.getD position default

/-- Copy `source[i]`, … below `stop` to `temp[j]`, …: both loops of `grow`. -/
def copyUp (source : List Message) (stop i j : Nat) (temp : List Message) :
    Nat × List Message :=
  if i < stop then
    copyUp source stop (i + 1) (j + 1) (temp.set j (source.getD i default))
  else
    (j, temp)
termination_by stop - i

/-- `grow`: `none` where it returns false. -/
def grow (queue : HiveQueueC Message) (cells : Nat → Message) (newSize : Nat) :
    Option (HiveQueueC Message) :=
  if newSize ≤ queue.aSize then
    none
  else
    let above := copyUp queue.queue queue.aSize queue.head 0 (newArray cells newSize)
    let copied :=
      if queue.tail ≤ queue.head then
        copyUp queue.queue queue.tail 0 above.1 above.2
      else
        above
    some
      { queue := copied.2
        count := queue.count
        aSize := newSize
        tail := copied.1
        head := 0 }

theorem grow_count {queue grown : HiveQueueC Message} {cells : Nat → Message} {newSize : Nat}
    (result : queue.grow cells newSize = some grown) :
    grown.count = queue.count ∧ grown.aSize = newSize ∧ queue.aSize < newSize := by
  unfold grow at result
  split at result
  case isTrue => simp at result
  case isFalse larger =>
    simp only [Option.some.injEq] at result
    subst result
    exact ⟨rfl, rfl, Nat.lt_of_not_le larger⟩

/-- `aSize + HQ_INIT_SIZE`, an `unsigned int`. -/
def nextSize (queue : HiveQueueC Message) : Nat := (queue.aSize + hqInitSize) % 2 ^ 32

def push (queue : HiveQueueC Message) (msg : Message) : Bool × HiveQueueC Message :=
  if queue.count < 1 then
    (true, { queue with
      tail := 1
      count := 1
      head := 0
      queue := queue.queue.set 0 msg })
  else if queue.count < queue.aSize then
    (true, { queue with
      queue := queue.queue.set queue.tail msg
      tail := if queue.aSize ≤ queue.tail + 1 then 0 else queue.tail + 1
      count := queue.count + 1 })
  else
    match _grew : queue.grow (fresh queue.nextSize) queue.nextSize with
    | some grown => (true, (grown.push msg).2)
    | none => (false, queue)
termination_by queue.count + 1 - queue.aSize
decreasing_by
  obtain ⟨sameCount, newSize, larger⟩ := grow_count _grew
  omega

/-- `remove`: `none` where it returns false. -/
def remove (queue : HiveQueueC Message) : Option (HiveQueueC Message) :=
  if 0 < queue.count then
    some { queue with
      head := if queue.head < queue.aSize - 1 then queue.head + 1 else 0
      count := queue.count - 1 }
  else
    none

def peek (queue : HiveQueueC Message) : Option Message :=
  if 1 > queue.count then none else some (queue.cell queue.head)

/-- `pop`: the message copied out and the queue without it. -/
def pop (queue : HiveQueueC Message) : Option (Message × HiveQueueC Message) :=
  queue.peek.bind fun msg => queue.remove.map fun rest => (msg, rest)

/-! ## The ring invariant -/

/-- What the operations rely on: the indices are inside the array and the next
free cell follows the last message. -/
structure Valid (queue : HiveQueueC Message) : Prop where
  length : queue.queue.length = queue.aSize
  roomy : 1 < queue.aSize
  count_le : queue.count ≤ queue.aSize
  head_lt : queue.head < queue.aSize
  tail_eq : queue.tail = (queue.head + queue.count) % queue.aSize

def contents (queue : HiveQueueC Message) : List Message :=
  window queue.cell queue.aSize queue.head queue.count

@[simp]
theorem length_contents (queue : HiveQueueC Message) :
    queue.contents.length = queue.size := by
  simp [contents, size]

omit [Inhabited Message] in
theorem valid_new : (new fresh).Valid where
  length := by simp [new]
  roomy := by simp [new, hqInitSize]
  count_le := by simp [new]
  head_lt := by simp [new, hqInitSize]
  tail_eq := by simp [new]

@[simp]
theorem contents_new : (new fresh).contents = [] := rfl

/-! ## Growing -/

/-- What the copy loop writes: `stop - i` cells from `j` on, and no other. -/
theorem copyUp_spec (source : List Message) (stop i j : Nat) (temp : List Message)
    (below : i ≤ stop) (room : j + (stop - i) ≤ temp.length) :
    (copyUp source stop i j temp).1 = j + (stop - i) ∧
      (copyUp source stop i j temp).2.length = temp.length ∧
      (∀ offset < stop - i, (copyUp source stop i j temp).2.getD (j + offset) default =
        source.getD (i + offset) default) ∧
      ∀ position < j, (copyUp source stop i j temp).2.getD position default =
        temp.getD position default := by
  induction i, j, temp using copyUp.induct source stop with
  | case1 i j temp before inductionHypothesis =>
      obtain ⟨final, length, copied, kept⟩ :=
        inductionHypothesis before (by simp only [List.length_set]; omega)
      rw [copyUp, if_pos before]
      refine ⟨by omega, by simpa using length, fun offset inside => ?_, fun position low => ?_⟩
      · cases offset with
        | zero =>
            simp only [Nat.add_zero]
            rw [kept j (by omega)]
            simp [show j < temp.length by omega]
        | succ offset =>
            have next := copied offset (by omega)
            rw [show j + (offset + 1) = j + 1 + offset by omega, next]
            congr 1
            omega
      · rw [kept position (by omega)]
        simp [show j ≠ position by omega]
  | case2 i j temp done =>
      rw [copyUp, if_neg done]
      exact ⟨by omega, rfl, fun offset inside => by omega, fun position _ => rfl⟩

/-- Growing a full array keeps the messages in order and leaves room. -/
theorem Valid.grow {queue grown : HiveQueueC Message} {cells : Nat → Message} {newSize : Nat}
    (valid : queue.Valid) (full : queue.count = queue.aSize)
    (result : queue.grow cells newSize = some grown) :
    grown.Valid ∧ grown.contents = queue.contents ∧ grown.count < grown.aSize := by
  obtain ⟨sameCount, sameSize, larger⟩ := grow_count result
  -- a full ring ends where it starts, so both loops copy
  have wrapped : queue.tail = queue.head := by
    rw [valid.tail_eq, full, Nat.add_mod_right, Nat.mod_eq_of_lt valid.head_lt]
  have inside := valid.head_lt
  obtain ⟨aboveEnd, aboveLength, aboveCopied, -⟩ :=
    copyUp_spec queue.queue queue.aSize queue.head 0 (newArray cells newSize)
      (by omega) (by simp only [length_newArray]; omega)
  rw [length_newArray] at aboveLength
  obtain ⟨belowEnd, belowLength, belowCopied, belowKept⟩ :=
    copyUp_spec queue.queue queue.head 0
      (copyUp queue.queue queue.aSize queue.head 0 (newArray cells newSize)).1
      (copyUp queue.queue queue.aSize queue.head 0 (newArray cells newSize)).2
      (by omega) (by rw [aboveEnd, aboveLength]; omega)
  simp only [Nat.zero_add] at aboveEnd aboveCopied
  simp only [aboveEnd, Nat.zero_add] at belowEnd belowLength belowCopied belowKept
  simp only [HiveQueueC.grow, if_neg (Nat.not_le_of_lt larger), wrapped, le_refl, if_true,
    Option.some.injEq, aboveEnd] at result
  subst result
  refine ⟨⟨by rw [belowLength, aboveLength], ?_, ?_, ?_, ?_⟩, ?_, ?_⟩
  · exact valid.roomy.trans larger
  · exact full.le.trans larger.le
  · exact Nat.zero_lt_of_lt larger
  · change (copyUp _ _ _ _ _).1 = (0 + queue.count) % newSize
    rw [belowEnd, full, Nat.mod_eq_of_lt (by omega)]
    omega
  · refine window_congr fun offset before => ?_
    change offset < queue.count at before
    change (copyUp _ _ _ _ _).2.getD ((0 + offset) % newSize) default =
      queue.queue.getD ((queue.head + offset) % queue.aSize) default
    rw [Nat.zero_add, Nat.mod_eq_of_lt (show offset < newSize by omega)]
    by_cases high : offset < queue.aSize - queue.head
    · rw [belowKept offset high, aboveCopied offset high, Nat.mod_eq_of_lt (by omega)]
    · have second := belowCopied (offset - (queue.aSize - queue.head)) (by omega)
      rw [Nat.add_sub_cancel' (Nat.le_of_not_lt high)] at second
      rw [second, Nat.mod_eq_sub_mod (by omega), Nat.mod_eq_of_lt (by omega)]
      congr 1
      omega
  · exact full.le.trans_lt larger

/-! ## Each operation on the waiting messages -/

theorem Valid.push_room {queue : HiveQueueC Message} (valid : queue.Valid)
    (fresh : Nat → Nat → Message) (room : queue.count < queue.aSize) (msg : Message) :
    (queue.push fresh msg).1 = true ∧ (queue.push fresh msg).2.Valid ∧
      (queue.push fresh msg).2.contents = queue.contents ++ [msg] := by
  have inside := valid.head_lt
  have long := valid.roomy
  have whole := valid.length
  by_cases empty : queue.count < 1
  · have none : queue.count = 0 := by omega
    rw [push, if_pos empty]
    refine ⟨rfl, ⟨by simpa using whole, long, by simp only; omega, by simp only; omega,
      (Nat.mod_eq_of_lt long).symm⟩, ?_⟩
    have stored : (queue.queue.set 0 msg).getD 0 default = msg := by
      simp [show 0 < queue.queue.length by omega]
    simp [contents, none, window, cell, List.getD_eq_getElem?_getD] at stored ⊢
    exact stored
  · rw [push, if_neg empty, if_pos room]
    have tailInside : queue.tail < queue.aSize := by
      rw [valid.tail_eq]
      exact Nat.mod_lt _ (by omega)
    refine ⟨rfl, ⟨by simpa using whole, long, by simp only; omega, inside, ?_⟩, ?_⟩
    · have next := ring_next tailInside
      simp only
      rw [← Nat.add_assoc, ← Nat.mod_add_mod, ← valid.tail_eq, ← next]
      split <;> split <;> omega
    · refine window_write room ?_ fun position other => ?_
      · rw [← valid.tail_eq]
        simp [cell, show queue.tail < queue.queue.length by omega]
      · rw [← valid.tail_eq] at other
        simp [cell, other.symm]

/-- A push appends its message, or is refused and changes nothing.  It is
refused only by a full array that an `unsigned int` cannot make longer. -/
theorem Valid.push {queue : HiveQueueC Message} (valid : queue.Valid)
    (fresh : Nat → Nat → Message) (msg : Message) :
    (queue.push fresh msg).2.Valid ∧
      (queue.push fresh msg).2.contents =
        queue.contents ++ (if (queue.push fresh msg).1 then [msg] else []) ∧
      ((queue.push fresh msg).1 = false → 2 ^ 32 ≤ queue.size + hqInitSize) := by
  by_cases room : queue.count < queue.aSize
  · obtain ⟨accepted, stillValid, appended⟩ := valid.push_room fresh room msg
    simp [accepted, stillValid, appended]
  · have full : queue.count = queue.aSize := by have := valid.count_le; omega
    have occupied : ¬ queue.count < 1 := by have := valid.roomy; omega
    cases grew : queue.grow (fresh queue.nextSize) queue.nextSize with
    | some grown =>
        obtain ⟨grownValid, sameContents, grownRoom⟩ := valid.grow full grew
        obtain ⟨-, stillValid, appended⟩ := grownValid.push_room fresh grownRoom msg
        have pushed : queue.push fresh msg = (true, (grown.push fresh msg).2) := by
          rw [HiveQueueC.push, if_neg occupied, if_neg room]
          split
          case h_1 other result =>
            rw [grew, Option.some.injEq] at result
            rw [result]
          case h_2 result =>
            rw [grew] at result
            cases result
        rw [pushed]
        exact ⟨stillValid, by simpa [sameContents] using appended, by simp⟩
    | none =>
        have pushed : queue.push fresh msg = (false, queue) := by
          rw [HiveQueueC.push, if_neg occupied, if_neg room]
          split
          case h_1 other result =>
            rw [grew] at result
            cases result
          case h_2 => rfl
        rw [pushed]
        refine ⟨valid, by simp, fun _ => ?_⟩
        by_contra short
        have exact : queue.nextSize = queue.aSize + hqInitSize :=
          Nat.mod_eq_of_lt (by rw [← full]; exact Nat.lt_of_not_le short)
        rw [exact, HiveQueueC.grow, if_neg (by simp [hqInitSize])] at grew
        cases grew

theorem pop_eq_none_iff {queue : HiveQueueC Message} :
    queue.pop = none ↔ queue.size = 0 := by
  by_cases empty : queue.count = 0
  · simp [pop, peek, size, empty]
  · simp [pop, peek, remove, size, empty]

theorem size_of_pop {queue rest : HiveQueueC Message} {msg : Message}
    (popped : queue.pop = some (msg, rest)) : rest.size + 1 = queue.size := by
  by_cases empty : queue.count = 0
  · rw [pop_eq_none_iff.mpr empty] at popped
    cases popped
  · simp only [HiveQueueC.pop, peek, remove, show ¬ 1 > queue.count by omega,
      show 0 < queue.count by omega, if_true, if_false, Option.map_some, Option.bind_some,
      Option.some.injEq, Prod.mk.injEq] at popped
    obtain ⟨-, rfl⟩ := popped
    exact Nat.sub_add_cancel (Nat.pos_of_ne_zero empty)

theorem Valid.pop {queue rest : HiveQueueC Message} {msg : Message} (valid : queue.Valid)
    (popped : queue.pop = some (msg, rest)) :
    rest.Valid ∧ queue.contents = msg :: rest.contents := by
  have inside := valid.head_lt
  have long := valid.roomy
  have few := valid.count_le
  by_cases empty : queue.count = 0
  · rw [pop_eq_none_iff.mpr empty] at popped
    cases popped
  · have next : (if queue.head < queue.aSize - 1 then queue.head + 1 else 0) =
        (queue.head + 1) % queue.aSize := by
      rw [← ring_next inside]
      split <;> split <;> omega
    simp only [HiveQueueC.pop, peek, remove, show ¬ 1 > queue.count by omega,
      show 0 < queue.count by omega, if_true, if_false, Option.map_some, Option.bind_some,
      Option.some.injEq, Prod.mk.injEq, next] at popped
    obtain ⟨rfl, rfl⟩ := popped
    refine ⟨⟨valid.length, long, by simp only; omega, Nat.mod_lt _ (by omega), ?_⟩, ?_⟩
    · simp only
      rw [valid.tail_eq, Nat.mod_add_mod]
      congr 1
      omega
    · have split := window_head queue.cell inside (queue.count - 1)
      rw [Nat.sub_add_cancel (Nat.pos_of_ne_zero empty)] at split
      exact split

end HiveQueueC

end OperationFrontLine.Mailbox
