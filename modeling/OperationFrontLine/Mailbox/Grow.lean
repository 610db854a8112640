import OperationFrontLine.Mailbox.HiveQueue

/-!
# Growing a queue that is not full

`grow` takes the number of copied cells for the new `tail`, and copies the cells in front of
the old `tail` only where `tail ≤ head`.  On a full array that is right; on any other the
`tail` may end up behind the last message, and a later `grow` then leaves messages behind.
-/

namespace OperationFrontLine.Mailbox

open OperationFrontLine.Library

universe u

inductive QueueChange (Message : Type u) where
  | push (msg : Message)
  | pop
  | remove
  | grow (newSize : ℕ)

namespace HiveQueueC

variable {Message : Type u} [Inhabited Message] (fresh : ℕ → ℕ → Message)

/-- A refused call changes nothing. -/
def change (queue : HiveQueueC Message) : QueueChange Message → HiveQueueC Message
  | .push msg => (queue.push fresh msg).2
  | .pop => (queue.pop.map Prod.snd).getD queue
  | .remove => queue.remove.getD queue
  | .grow newSize => (queue.grow (fresh newSize) newSize).getD queue

def changed (changes : List (QueueChange Message)) : HiveQueueC Message :=
  changes.foldl (change fresh) (new fresh)

def pops : ℕ → HiveQueueC Message → List Message
  | 0, _ => []
  | times + 1, queue =>
      match queue.pop with
      | none => []
      | some (msg, rest) => msg :: pops times rest

def popped (queue : HiveQueueC Message) : List Message := pops queue.size queue

structure Bounded (queue : HiveQueueC Message) : Prop where
  length : queue.queue.length = queue.aSize
  roomy : 1 < queue.aSize
  count_le : queue.count ≤ queue.aSize
  head_lt : queue.head < queue.aSize
  tail_lt : queue.tail < queue.aSize

omit [Inhabited Message] in
theorem bounded_new : (new fresh).Bounded where
  length := by simp [new]
  roomy := by simp [new, hqInitSize]
  count_le := by simp [new]
  head_lt := by simp [new, hqInitSize]
  tail_lt := by simp [new, hqInitSize]

variable {fresh}

/-! ## What `pop` returns -/

theorem pop_eq {queue : HiveQueueC Message} (some : 0 < queue.count) :
    queue.pop = .some (queue.cell queue.head,
      { queue with
        head := if queue.head < queue.aSize - 1 then queue.head + 1 else 0
        count := queue.count - 1 }) := by
  simp [pop, peek, remove, some, Nat.not_lt.mpr (Nat.succ_le_of_lt some)]

omit [Inhabited Message] in
theorem next_head {queue : HiveQueueC Message} (inside : queue.head < queue.aSize) :
    (if queue.head < queue.aSize - 1 then queue.head + 1 else 0) =
      (queue.head + 1) % queue.aSize := by
  rw [← ring_next inside]
  split <;> split <;> omega

theorem popped_eq_contents {queue : HiveQueueC Message} (inside : queue.head < queue.aSize) :
    queue.popped = queue.contents := by
  obtain ⟨times, same⟩ : ∃ times, times = queue.count := ⟨_, rfl⟩
  rw [popped, size, contents, ← same]
  induction times generalizing queue with
  | zero => rfl
  | succ times inductionHypothesis =>
      have later := @inductionHypothesis { queue with
        head := (queue.head + 1) % queue.aSize
        count := queue.count - 1 } (Nat.mod_lt _ (by omega)) (by simp [← same])
      rw [pops, pop_eq (by omega), next_head inside, window_head _ inside]
      exact congrArg (_ :: ·) later

/-! ## The cells of the longer array -/

theorem copyUp_behind (source : List Message) (stop i j : ℕ) (temp : List Message)
    {position : ℕ} (behind : j + (stop - i) ≤ position) :
    (copyUp source stop i j temp).2.getD position default = temp.getD position default := by
  induction i, j, temp using copyUp.induct source stop with
  | case1 i j temp before inductionHypothesis =>
      rw [copyUp, if_pos before, inductionHypothesis (by omega)]
      simp [show j ≠ position by omega]
  | case2 i j temp done => rw [copyUp, if_neg done]

def source (queue : HiveQueueC Message) (cells : ℕ → Message) (position : ℕ) : Message :=
  if position < queue.aSize - queue.head then
    queue.cell (queue.head + position)
  else if queue.tail ≤ queue.head ∧ position < queue.aSize - queue.head + queue.tail then
    queue.cell (position - (queue.aSize - queue.head))
  else
    cells position

def copied (queue : HiveQueueC Message) : ℕ :=
  queue.aSize - queue.head + if queue.tail ≤ queue.head then queue.tail else 0

theorem Bounded.grow_eq {queue : HiveQueueC Message} (bounded : queue.Bounded) {newSize : ℕ}
    (larger : queue.aSize < newSize) (cells : ℕ → Message) :
    ∃ temp : List Message, temp.length = newSize ∧
      (∀ position < newSize, temp.getD position default = queue.source cells position) ∧
      queue.grow cells newSize = some
        { queue := temp
          count := queue.count
          aSize := newSize
          tail := queue.copied
          head := 0 } := by
  have inside := bounded.head_lt
  have tailInside := bounded.tail_lt
  obtain ⟨above, aboveEq⟩ : ∃ above, above =
      copyUp queue.queue queue.aSize queue.head 0 (newArray cells newSize) := ⟨_, rfl⟩
  obtain ⟨aboveEnd, aboveLength, aboveCopied, -⟩ :=
    copyUp_spec queue.queue queue.aSize queue.head 0 (newArray cells newSize)
      (by omega) (by simp only [length_newArray]; omega)
  have aboveBehind : ∀ position < newSize, queue.aSize - queue.head ≤ position →
      above.2.getD position default = cells position := by
    intro position below behind
    rw [aboveEq, copyUp_behind _ _ _ _ _ (by omega), getD_newArray below]
  rw [← aboveEq, length_newArray] at aboveLength
  rw [← aboveEq, Nat.zero_add] at aboveEnd
  simp only [← aboveEq, Nat.zero_add] at aboveCopied
  by_cases wraps : queue.tail ≤ queue.head
  · obtain ⟨belowEnd, belowLength, belowCopied, belowKept⟩ :=
      copyUp_spec queue.queue queue.tail 0 above.1 above.2 (by omega) (by omega)
    simp only [aboveEnd, Nat.zero_add, Nat.sub_zero] at belowEnd belowLength belowCopied belowKept
    refine ⟨_, belowLength.trans aboveLength, fun position below => ?_, ?_⟩
    · rw [source]
      by_cases high : position < queue.aSize - queue.head
      · rw [if_pos high, belowKept position high, aboveCopied position high]
        rfl
      · rw [if_neg high]
        by_cases low : position < queue.aSize - queue.head + queue.tail
        · have second := belowCopied (position - (queue.aSize - queue.head)) (by omega)
          rw [Nat.add_sub_cancel' (Nat.le_of_not_lt high)] at second
          rw [if_pos ⟨wraps, low⟩, second]
          rfl
        · rw [if_neg fun both => low both.2, copyUp_behind _ _ _ _ _ (by omega),
            aboveBehind position below (by omega)]
    · rw [grow, if_neg (Nat.not_le_of_lt larger), ← aboveEq]
      simp only [if_pos wraps, aboveEnd, belowEnd, copied]
  · refine ⟨_, aboveLength, fun position below => ?_, ?_⟩
    · rw [source]
      by_cases high : position < queue.aSize - queue.head
      · rw [if_pos high, aboveCopied position high]
        rfl
      · rw [if_neg high, if_neg fun both => wraps both.1, aboveBehind position below (by omega)]
    · rw [grow, if_neg (Nat.not_le_of_lt larger), ← aboveEq]
      simp only [if_neg wraps, aboveEnd, copied, Nat.add_zero]

/-- Every message past the end of the array is in a cell that `grow` copies. -/
def WrappedCopied (queue : HiveQueueC Message) : Prop :=
  ∀ position, position + queue.aSize < queue.head + queue.count →
    queue.tail ≤ queue.head ∧ position < queue.tail

theorem Bounded.source_eq_iff {queue : HiveQueueC Message} (bounded : queue.Bounded)
    {cells : ℕ → Message} {offset : ℕ} (waits : offset < queue.count) :
    queue.source cells offset = queue.cell ((queue.head + offset) % queue.aSize) ↔
      (queue.aSize ≤ queue.head + offset →
        (queue.tail ≤ queue.head ∧ queue.head + offset - queue.aSize < queue.tail) ∨
          cells offset = queue.cell (queue.head + offset - queue.aSize)) := by
  have inside := bounded.head_lt
  have few := bounded.count_le
  rw [source]
  by_cases high : offset < queue.aSize - queue.head
  · rw [if_pos high, Nat.mod_eq_of_lt (by omega)]
    exact ⟨fun _ past => by omega, fun _ => rfl⟩
  · have wrapped : (queue.head + offset) % queue.aSize = queue.head + offset - queue.aSize := by
      rw [Nat.mod_eq_sub_mod (by omega), Nat.mod_eq_of_lt (by omega)]
    have same : offset - (queue.aSize - queue.head) = queue.head + offset - queue.aSize := by
      omega
    rw [if_neg high, wrapped, same]
    by_cases taken : queue.tail ≤ queue.head ∧ queue.head + offset - queue.aSize < queue.tail
    · rw [if_pos ⟨taken.1, by omega⟩]
      exact ⟨fun _ _ => .inl taken, fun _ => rfl⟩
    · rw [if_neg fun both => taken ⟨both.1, by omega⟩]
      constructor
      · exact fun equal _ => .inr equal
      · intro either
        exact (either (by omega)).resolve_left taken

/-- `grow` keeps the messages exactly when those past the end of the array are copied, or happen
to be in the new array. -/
theorem Bounded.popped_grow_iff {queue grown : HiveQueueC Message} (bounded : queue.Bounded)
    {cells : ℕ → Message} {newSize : ℕ} (larger : queue.aSize < newSize)
    (result : queue.grow cells newSize = some grown) :
    grown.popped = queue.popped ↔
      ∀ position, position + queue.aSize < queue.head + queue.count →
        (queue.tail ≤ queue.head ∧ position < queue.tail) ∨
          cells (position + queue.aSize - queue.head) = queue.cell position := by
  have inside := bounded.head_lt
  have few := bounded.count_le
  obtain ⟨temp, -, taken, grew⟩ := bounded.grow_eq larger cells
  obtain rfl := Option.some.inj (grew.symm.trans result)
  rw [popped_eq_contents inside, popped_eq_contents (show 0 < newSize by omega)]
  change window _ newSize 0 queue.count = window _ _ _ queue.count ↔ _
  rw [window_eq_iff]
  have atOffset : ∀ offset < queue.count, temp.getD ((0 + offset) % newSize) default =
      queue.source cells offset := by
    intro offset waits
    rw [Nat.zero_add, Nat.mod_eq_of_lt (by omega)]
    exact taken offset (by omega)
  constructor
  · intro agree position past
    have waits : position + queue.aSize - queue.head < queue.count := by omega
    have equal := agree _ waits
    change temp.getD _ default = _ at equal
    rw [atOffset _ waits, bounded.source_eq_iff waits] at equal
    have back : queue.head + (position + queue.aSize - queue.head) - queue.aSize = position := by
      omega
    rw [back] at equal
    exact equal (by omega)
  · intro every offset waits
    change temp.getD _ default = _
    rw [atOffset offset waits, bounded.source_eq_iff waits]
    intro past
    have same : queue.head + offset - queue.aSize + queue.aSize - queue.head = offset := by omega
    have either := every (queue.head + offset - queue.aSize) (by omega)
    rwa [same] at either

/-- Whatever the cells of the new array hold, the messages are kept exactly when those past the
end of the array are copied. -/
theorem Bounded.keeps_iff [Nontrivial Message] {queue : HiveQueueC Message}
    (bounded : queue.Bounded) {newSize : ℕ} (larger : queue.aSize < newSize) :
    (∀ cells grown, queue.grow cells newSize = some grown → grown.popped = queue.popped) ↔
      queue.WrappedCopied := by
  constructor
  · intro keeps position past
    obtain ⟨other, different⟩ := exists_ne (queue.cell position)
    obtain ⟨temp, -, -, grew⟩ := bounded.grow_eq larger fun _ => other
    exact ((bounded.popped_grow_iff larger grew).mp (keeps _ _ grew) position past).resolve_right
      different
  · intro copied cells grown grew
    exact (bounded.popped_grow_iff larger grew).mpr fun position past => .inl (copied position past)

/-! ## Every reachable queue -/

theorem Bounded.grow {queue grown : HiveQueueC Message} (bounded : queue.Bounded)
    {cells : ℕ → Message} {newSize : ℕ} (result : queue.grow cells newSize = some grown) :
    grown.Bounded := by
  have inside := bounded.head_lt
  have long := bounded.roomy
  have few := bounded.count_le
  have larger := (grow_count result).2.2
  obtain ⟨temp, length, -, grew⟩ := bounded.grow_eq larger cells
  obtain rfl := Option.some.inj (grew.symm.trans result)
  refine ⟨length, by simp only; omega, by simp only; omega, by simp only; omega, ?_⟩
  simp only [copied]
  split <;> omega

theorem Bounded.push_room {queue : HiveQueueC Message} (bounded : queue.Bounded)
    (room : queue.count < queue.aSize) (msg : Message) : (queue.push fresh msg).2.Bounded := by
  have inside := bounded.head_lt
  have long := bounded.roomy
  by_cases empty : queue.count < 1
  · rw [push, if_pos empty]
    exact ⟨by simpa using bounded.length, long, by simp only; omega, by simp only; omega, long⟩
  · rw [push, if_neg empty, if_pos room]
    refine ⟨by simpa using bounded.length, long, by simp only; omega, inside, ?_⟩
    simp only
    split <;> omega

/-- `push` puts its message into an array with room, after growing where there is none. -/
theorem push_room_cases (fresh : ℕ → ℕ → Message) (queue : HiveQueueC Message) (msg : Message) :
    queue.count < queue.aSize ∨ queue.count < 1 ∨ (queue.push fresh msg).2 = queue ∨
      ∃ grown, queue.grow (fresh queue.nextSize) queue.nextSize = some grown ∧
        (queue.push fresh msg).2 = (grown.push fresh msg).2 := by
  by_cases room : queue.count < queue.aSize
  · exact .inl room
  · by_cases empty : queue.count < 1
    · exact .inr (.inl empty)
    · refine .inr (.inr ?_)
      rw [push, if_neg empty, if_neg room]
      split
      case h_1 grown grew => exact .inr ⟨grown, grew, rfl⟩
      case h_2 => exact .inl rfl

theorem Bounded.push {queue : HiveQueueC Message} (bounded : queue.Bounded) (msg : Message) :
    (queue.push fresh msg).2.Bounded := by
  have long := bounded.roomy
  have few := bounded.count_le
  rcases push_room_cases fresh queue msg with room | empty | same | ⟨grown, grew, same⟩
  · exact bounded.push_room room msg
  · exact bounded.push_room (by omega) msg
  · rwa [same]
  · obtain ⟨sameCount, sameSize, larger⟩ := grow_count grew
    rw [same]
    exact (bounded.grow grew).push_room (by omega) msg

omit [Inhabited Message] in
theorem Bounded.remove {queue rest : HiveQueueC Message} (bounded : queue.Bounded)
    (removed : queue.remove = some rest) : rest.Bounded := by
  have inside := bounded.head_lt
  have few := bounded.count_le
  rw [HiveQueueC.remove] at removed
  split at removed
  · obtain rfl := Option.some.inj removed
    refine ⟨bounded.length, bounded.roomy, by simp only; omega, ?_, bounded.tail_lt⟩
    simp only
    split <;> omega
  · cases removed

theorem remove_of_pop {queue rest : HiveQueueC Message} {msg : Message}
    (popped : queue.pop = some (msg, rest)) : queue.remove = some rest := by
  obtain ⟨first, -, ended⟩ := Option.bind_eq_some_iff.mp popped
  obtain ⟨left, removed, same⟩ := Option.map_eq_some_iff.mp ended
  rwa [(Prod.mk.inj same).2] at removed

/-- What a step does to an invariant follows from `push`, `remove` and `grow`. -/
theorem change_invariant (Inv : HiveQueueC Message → Prop) {queue : HiveQueueC Message}
    (holds : Inv queue) (change : QueueChange Message)
    (pushed : ∀ msg, Inv (queue.push fresh msg).2)
    (removed : ∀ rest, queue.remove = some rest → Inv rest)
    (grew : ∀ newSize grown, change = .grow newSize →
      queue.grow (fresh newSize) newSize = some grown → Inv grown) :
    Inv (queue.change fresh change) := by
  cases change with
  | push msg => exact pushed msg
  | pop =>
      rw [HiveQueueC.change]
      cases taken : queue.pop with
      | none => exact holds
      | some result => exact removed _ (remove_of_pop taken)
  | remove =>
      rw [HiveQueueC.change]
      cases taken : queue.remove with
      | none => exact holds
      | some rest => exact removed _ taken
  | grow newSize =>
      rw [HiveQueueC.change]
      cases longer : queue.grow (fresh newSize) newSize with
      | none => exact holds
      | some grown => exact grew _ _ rfl longer

theorem bounded_changed (fresh : ℕ → ℕ → Message) (changes : List (QueueChange Message)) :
    (changed fresh changes).Bounded := by
  induction changes using List.reverseRecOn with
  | nil => exact bounded_new fresh
  | append_singleton changes change inductionHypothesis =>
      rw [changed, List.foldl_concat]
      exact change_invariant Bounded inductionHypothesis change
        (fun msg => inductionHypothesis.push msg) (fun rest => inductionHypothesis.remove)
        (fun newSize grown _ => inductionHypothesis.grow)

/-! ## When the tail follows the last message -/

/-- The next free cell follows the last message, when there is one. -/
structure Tight (queue : HiveQueueC Message) : Prop where
  bounded : queue.Bounded
  tail_eq : 0 < queue.count → queue.tail = (queue.head + queue.count) % queue.aSize

/-- A queue that `grow` leaves as it should be: an empty one, or one whose messages reach the
end of the array. -/
def Filled (queue : HiveQueueC Message) : Prop :=
  queue.count = 0 ∨ queue.aSize ≤ queue.head + queue.count

omit [Inhabited Message] in
theorem tight_new (fresh : ℕ → ℕ → Message) : (new fresh).Tight :=
  ⟨bounded_new fresh, fun some => by cases some⟩

omit [Inhabited Message] in
theorem Tight.wrapped_tail {queue : HiveQueueC Message} (tight : queue.Tight)
    (some : 0 < queue.count) (past : queue.aSize ≤ queue.head + queue.count) :
    queue.tail = queue.head + queue.count - queue.aSize := by
  have inside := tight.bounded.head_lt
  have few := tight.bounded.count_le
  rw [tight.tail_eq some, Nat.mod_eq_sub_mod past, Nat.mod_eq_of_lt (by omega)]

omit [Inhabited Message] in
theorem Tight.wrappedCopied {queue : HiveQueueC Message} (tight : queue.Tight) :
    queue.WrappedCopied := by
  intro position past
  have inside := tight.bounded.head_lt
  have few := tight.bounded.count_le
  have ends := tight.wrapped_tail (by omega) (by omega)
  exact ⟨by omega, by omega⟩

theorem Tight.grow {queue grown : HiveQueueC Message} (tight : queue.Tight)
    (filled : queue.Filled) {cells : ℕ → Message} {newSize : ℕ}
    (result : queue.grow cells newSize = some grown) : grown.Tight := by
  have inside := tight.bounded.head_lt
  have few := tight.bounded.count_le
  have larger := (grow_count result).2.2
  refine ⟨tight.bounded.grow result, ?_⟩
  obtain ⟨temp, -, -, grew⟩ := tight.bounded.grow_eq larger cells
  obtain rfl := Option.some.inj (grew.symm.trans result)
  intro some
  change 0 < queue.count at some
  change queue.copied = (0 + queue.count) % newSize
  rcases filled with empty | past
  · omega
  · have ends := tight.wrapped_tail some past
    rw [Nat.zero_add, Nat.mod_eq_of_lt (by omega), copied, if_pos (by omega), ends]
    omega

theorem Tight.push_room {queue : HiveQueueC Message} (tight : queue.Tight)
    (room : queue.count < queue.aSize) (msg : Message) : (queue.push fresh msg).2.Tight := by
  have long := tight.bounded.roomy
  refine ⟨tight.bounded.push_room room msg, fun _ => ?_⟩
  by_cases empty : queue.count < 1
  · rw [HiveQueueC.push, if_pos empty]
    exact (Nat.mod_eq_of_lt long).symm
  · rw [HiveQueueC.push, if_neg empty, if_pos room]
    have next := ring_next tight.bounded.tail_lt
    simp only
    rw [← Nat.add_assoc, ← Nat.mod_add_mod, ← tight.tail_eq (by omega), ← next]
    split <;> split <;> omega

theorem Tight.push {queue : HiveQueueC Message} (tight : queue.Tight) (msg : Message) :
    (queue.push fresh msg).2.Tight := by
  have long := tight.bounded.roomy
  have few := tight.bounded.count_le
  by_cases room : queue.count < queue.aSize
  · exact tight.push_room room msg
  · rcases push_room_cases fresh queue msg with room' | empty | same | ⟨grown, grew, same⟩
    · exact absurd room' room
    · omega
    · rwa [same]
    · obtain ⟨sameCount, sameSize, larger⟩ := grow_count grew
      rw [same]
      exact (tight.grow (.inr (by omega)) grew).push_room (by omega) msg

omit [Inhabited Message] in
theorem Tight.remove {queue rest : HiveQueueC Message} (tight : queue.Tight)
    (removed : queue.remove = some rest) : rest.Tight := by
  refine ⟨tight.bounded.remove removed, ?_⟩
  have inside := tight.bounded.head_lt
  rw [HiveQueueC.remove] at removed
  split at removed
  · rename_i some
    obtain rfl := Option.some.inj removed
    intro more
    simp only at more ⊢
    rw [next_head inside, tight.tail_eq some, Nat.mod_add_mod]
    congr 1
    omega
  · cases removed

variable (fresh) in
/-- Every call of `grow` that is not refused finds a filled queue. -/
def GrowsFilled (changes : List (QueueChange Message)) : Prop :=
  ∀ before newSize later, changes = before ++ .grow newSize :: later →
    (changed fresh before).aSize < newSize → (changed fresh before).Filled

theorem tight_changed {changes : List (QueueChange Message)} (filled : GrowsFilled fresh changes) :
    (changed fresh changes).Tight := by
  induction changes using List.reverseRecOn with
  | nil => exact tight_new fresh
  | append_singleton changes change inductionHypothesis =>
      have tight := inductionHypothesis fun before newSize later split =>
        filled before newSize (later ++ [change]) (by rw [split]; simp)
      rw [changed, List.foldl_concat]
      refine change_invariant Tight tight change (fun msg => tight.push msg)
        (fun rest => tight.remove) fun newSize grown isGrow grew => ?_
      subst isGrow
      exact tight.grow (filled changes newSize [] rfl (grow_count grew).2.2) grew

/-! ## The law of `grow` -/

/-- In every reachable state `grow` refuses a length that is not greater and accepts any other.
It keeps the number of messages, and it keeps the messages, whatever is in the cells of the new
array, exactly when those past the end of the old one are copied, which is so when earlier calls
found filled queues only. -/
theorem grow_keeps_iff [Nontrivial Message] (fresh : ℕ → ℕ → Message)
    (changes : List (QueueChange Message)) (newSize : ℕ) :
    (newSize ≤ (changed fresh changes).aSize →
      (∀ cells, (changed fresh changes).grow cells newSize = none) ∧
        (changed fresh changes).change fresh (.grow newSize) = changed fresh changes) ∧
    ((changed fresh changes).aSize < newSize →
      (∀ cells, ∃ grown, (changed fresh changes).grow cells newSize = some grown ∧
        grown.count = (changed fresh changes).count) ∧
      ((∀ cells grown, (changed fresh changes).grow cells newSize = some grown →
        grown.popped = (changed fresh changes).popped) ↔ (changed fresh changes).WrappedCopied)) ∧
    (GrowsFilled fresh changes → (changed fresh changes).WrappedCopied) := by
  have bounded := bounded_changed fresh changes
  refine ⟨fun small => ?_, fun larger => ⟨fun cells => ?_, ?_⟩,
    fun filled => (tight_changed filled).wrappedCopied⟩
  · have refused (cells : ℕ → Message) : (changed fresh changes).grow cells newSize = none :=
      if_pos small
    exact ⟨refused, by rw [change, refused]; rfl⟩
  · obtain ⟨temp, -, -, grew⟩ := bounded.grow_eq larger cells
    exact ⟨_, grew, rfl⟩
  · exact bounded.keeps_iff larger

/-- Two messages do not run past the end of the array. -/
theorem grow_keeps_iff_two :
    ((changed (fun _ _ => 9) [QueueChange.push 4, .push 5]).grow (fun _ => 7) 60).map popped =
      some [4, 5] := by
  obtain ⟨-, longer, -⟩ := grow_keeps_iff (fun _ _ => 9) [QueueChange.push 4, .push 5] 60
  obtain ⟨accepts, keeps⟩ := longer (by decide +kernel)
  obtain ⟨grown, grew, -⟩ := accepts fun _ => 7
  rw [grew, Option.map_some, Option.some_inj]
  refine (keeps.mpr (fun position past => ?_) _ grown grew).trans (by decide +kernel)
  have before : (changed (fun _ _ => 9) [QueueChange.push 4, .push 5]).head +
      (changed (fun _ _ => 9) [QueueChange.push 4, .push 5]).count ≤
        (changed (fun _ _ => 9) [QueueChange.push 4, .push 5]).aSize := by decide +kernel
  omega

/-- One message, a call of `grow`, two more, and then the queue turns in its array until the
messages run past its end. -/
def turnedAfterGrow : List (QueueChange ℕ) :=
  [.push 1, .grow 51, .push 1, .push 1] ++
    (List.replicate 49 [QueueChange.push 1, .pop]).flatten

/-- The third message is at the start of the array, and the tail is behind the head. -/
theorem grow_loses_message :
    (changed (fun _ _ => 9) turnedAfterGrow).aSize < 52 ∧
      (changed (fun _ _ => 9) turnedAfterGrow).popped = [1, 1, 1] ∧
      ((changed (fun _ _ => 9) turnedAfterGrow).grow (fun _ => 9) 52).map popped =
        some [1, 1, 9] := by
  decide +kernel

end HiveQueueC

end OperationFrontLine.Mailbox
