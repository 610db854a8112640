import OperationFrontLine.Mailbox.HiveQueue
import OperationFrontLine.Mailbox.LinkedQueue

/-!
# Both queues are first-in-first-out lists

`HiveQueueC` and `HiveQueue` have the same interface.  Every call has the result that it has
on the list of the waiting messages, as long as the array of `HiveQueueC` can grow.
-/

namespace OperationFrontLine.Mailbox

open OperationFrontLine.Library

universe u

inductive QueueCall (Message : Type u) where
  | push (msg : Message)
  | pop
  | remove
  | peek
  | size

/-- What the caller sees: the result, and the message where one is copied out. -/
inductive QueueAnswer (Message : Type u) where
  | done (success : Bool)
  | message (msg : Option Message)
  | number (count : ℕ)
  deriving DecidableEq

def fifo {Message : Type u} (waiting : List Message) :
    QueueCall Message → QueueAnswer Message × List Message
  | .push msg => (.done true, waiting ++ [msg])
  | .pop => (.message waiting.head?, waiting.tail)
  | .remove => (.done !waiting.isEmpty, waiting.tail)
  | .peek => (.message waiting.head?, waiting)
  | .size => (.number waiting.length, waiting)

/-- The longest array whose length is an `unsigned int`. -/
def longestQueue : ℕ := 4294967250

/-! ## The linked queue -/

namespace HiveQueue

variable {Message : Type u}

def call (queue : HiveQueue Message) :
    QueueCall Message → Option (QueueAnswer Message × HiveQueue Message)
  | .push msg => (queue.push msg).map fun pushed => (.done true, pushed)
  | .pop => queue.pop.map fun popped => (.message popped.1, popped.2)
  | .remove => queue.remove.map fun removed => (.done removed.1, removed.2)
  | .peek => queue.peek.map fun peeked => (.message peeked, queue)
  | .size => some (.number queue.size, queue)

def Represents (queue : HiveQueue Message) (waiting : List Message) : Prop :=
  ∃ cells, queue.Holds cells ∧ cells.map Prod.snd = waiting

theorem Holds.pop {queue : HiveQueue Message} {cells : List (ℕ × Message)}
    (holds : queue.Holds cells) :
    ∃ popped, queue.pop = some (cells.head?.map Prod.snd, popped) ∧ popped.Holds cells.tail := by
  obtain ⟨removed, taken, holdsRemoved⟩ := holds.remove
  cases cells with
  | nil => exact ⟨queue, by rw [HiveQueue.pop, holds.peek]; rfl, holds⟩
  | cons cell rest => exact ⟨removed, by rw [HiveQueue.pop, holds.peek]; simp [taken], holdsRemoved⟩

/-- Every call has a defined effect, and the result that it has on the list. -/
theorem call_fifo {queue : HiveQueue Message} {waiting : List Message}
    (represents : queue.Represents waiting) (call : QueueCall Message)
    (below : (fifo waiting call).2.length < 2 ^ 32) :
    ∃ next, queue.call call = some ((fifo waiting call).1, next) ∧
      next.Represents (fifo waiting call).2 := by
  obtain ⟨cells, holds, rfl⟩ := represents
  cases call with
  | push msg =>
      obtain ⟨pushed, ended, holdsPushed⟩ := holds.push msg
      exact ⟨pushed, by simp [HiveQueue.call, ended, fifo], _, holdsPushed, by simp [fifo]⟩
  | pop =>
      obtain ⟨popped, ended, holdsPopped⟩ := holds.pop
      exact ⟨popped, by simp [HiveQueue.call, ended, fifo], _, holdsPopped, by simp [fifo]⟩
  | remove =>
      obtain ⟨removed, ended, holdsRemoved⟩ := holds.remove
      exact ⟨removed, by simp [HiveQueue.call, ended, fifo], _, holdsRemoved, by simp [fifo]⟩
  | peek => exact ⟨queue, by simp [HiveQueue.call, holds.peek, fifo], cells, holds, rfl⟩
  | size =>
      refine ⟨queue, ?_, cells, holds, rfl⟩
      have exactCount : queue.count = cells.length := by
        rw [holds.count]
        exact Nat.mod_eq_of_lt (by simpa [fifo] using below)
      simp [HiveQueue.call, size, fifo, exactCount]

end HiveQueue

/-! ## The ring -/

namespace HiveQueueC

section Lengths

variable {Message : Type u}

structure Sized (queue : HiveQueueC Message) : Prop where
  multiple : queue.aSize % hqInitSize = 0
  below : queue.aSize < 2 ^ 32

theorem Sized.wraps_iff {queue : HiveQueueC Message} (sized : queue.Sized) :
    queue.nextSize ≤ queue.aSize ↔ queue.aSize = longestQueue := by
  have multiple := sized.multiple
  have below := sized.below
  rw [hqInitSize] at multiple
  rw [nextSize, hqInitSize, longestQueue]
  omega

end Lengths

variable {Message : Type u} [Inhabited Message] (fresh : ℕ → ℕ → Message)

def call (queue : HiveQueueC Message) :
    QueueCall Message → QueueAnswer Message × HiveQueueC Message
  | .push msg => let pushed := queue.push fresh msg; (.done pushed.1, pushed.2)
  | .pop =>
      match queue.pop with
      | some (msg, rest) => (.message (some msg), rest)
      | none => (.message none, queue)
  | .remove =>
      match queue.remove with
      | some rest => (.done true, rest)
      | none => (.done false, queue)
  | .peek => (.message queue.peek, queue)
  | .size => (.number queue.size, queue)

/-- The indices a copy loop reads and writes at, each with the length of its array. -/
def copyIndices (stop i j sourceSize tempSize : ℕ) : List (ℕ × ℕ) :=
  if i < stop then
    (i, sourceSize) :: (j, tempSize) :: copyIndices stop (i + 1) (j + 1) sourceSize tempSize
  else
    []
termination_by stop - i

def growIndices (queue : HiveQueueC Message) (newSize : ℕ) : List (ℕ × ℕ) :=
  if newSize ≤ queue.aSize then
    []
  else
    copyIndices queue.aSize queue.head 0 queue.aSize newSize ++
      if queue.tail ≤ queue.head then
        copyIndices queue.tail 0
          (copyUp queue.queue queue.aSize queue.head 0 (newArray (fresh newSize) newSize)).1
          queue.aSize newSize
      else
        []

def writeIndex (queue : HiveQueueC Message) : ℕ × ℕ :=
  if queue.count < 1 then (0, queue.aSize) else (queue.tail, queue.aSize)

/-- The indices a call uses, each with the length of the array it is used in. -/
def indices (queue : HiveQueueC Message) : QueueCall Message → List (ℕ × ℕ)
  | .push _ =>
      if queue.count < 1 ∨ queue.count < queue.aSize then
        [queue.writeIndex]
      else
        queue.growIndices fresh queue.nextSize ++
          ((queue.grow (fresh queue.nextSize) queue.nextSize).map writeIndex).toList
  | .pop | .peek => if 1 > queue.count then [] else [(queue.head, queue.aSize)]
  | .remove | .size => []

omit [Inhabited Message] in
theorem sized_new : (new fresh).Sized := ⟨by simp [new], by simp [new, hqInitSize]⟩

variable {fresh}

theorem Sized.grow {queue grown : HiveQueueC Message} (sized : queue.Sized)
    {cells : ℕ → Message} (result : queue.grow cells queue.nextSize = some grown) :
    grown.Sized := by
  obtain ⟨-, newSize, larger⟩ := grow_count result
  have multiple := sized.multiple
  have below := sized.below
  rw [nextSize, hqInitSize] at newSize larger
  rw [hqInitSize] at multiple
  -- a length that wraps is not larger
  have fits : queue.aSize + 50 < 2 ^ 32 := by omega
  rw [Nat.mod_eq_of_lt fits] at newSize
  refine ⟨?_, by omega⟩
  rw [hqInitSize]
  omega

/-- A push is one into an array with room, or into the grown one, or is refused. -/
theorem push_cases (fresh : ℕ → ℕ → Message) (queue : HiveQueueC Message) (msg : Message) :
    (queue.count < 1 ∨ queue.count < queue.aSize) ∨
    (∃ grown, queue.grow (fresh queue.nextSize) queue.nextSize = some grown ∧
      queue.push fresh msg = (true, (grown.push fresh msg).2)) ∨
    (queue.grow (fresh queue.nextSize) queue.nextSize = none ∧
      queue.push fresh msg = (false, queue)) := by
  by_cases room : queue.count < 1 ∨ queue.count < queue.aSize
  · exact .inl room
  · obtain ⟨occupied, full⟩ := not_or.mp room
    rw [push, if_neg occupied, if_neg full]
    split
    case h_1 grown result => exact .inr (.inl ⟨grown, result, rfl⟩)
    case h_2 result => exact .inr (.inr ⟨result, rfl⟩)

/-- Where there is room, a push leaves the length of the array as it is. -/
theorem push_aSize {queue : HiveQueueC Message} (msg : Message)
    (room : queue.count < 1 ∨ queue.count < queue.aSize) :
    (queue.push fresh msg).2.aSize = queue.aSize := by
  rw [push]
  split
  · rfl
  · rw [if_pos (by omega)]

theorem Sized.push {queue : HiveQueueC Message} (sized : queue.Sized) (valid : queue.Valid)
    (fresh : ℕ → ℕ → Message) (msg : Message) : (queue.push fresh msg).2.Sized := by
  obtain room | ⟨grown, result, pushed⟩ | ⟨-, pushed⟩ := queue.push_cases fresh msg
  · have same := @push_aSize _ _ fresh queue msg room
    exact ⟨by rw [same]; exact sized.multiple, by rw [same]; exact sized.below⟩
  · have grownSized := sized.grow result
    have grownRoom : grown.count < grown.aSize := by
      obtain ⟨sameCount, newSize, larger⟩ := grow_count result
      have few := valid.count_le
      omega
    have same := @push_aSize _ _ fresh grown msg (.inr grownRoom)
    rw [pushed]
    exact ⟨by rw [same]; exact grownSized.multiple, by rw [same]; exact grownSized.below⟩
  · rw [pushed]
    exact sized

/-- A push is refused only when as many messages wait as the longest array holds. -/
theorem Valid.push_accepted {queue : HiveQueueC Message} (valid : queue.Valid)
    (sized : queue.Sized) (fresh : ℕ → ℕ → Message) (msg : Message)
    (room : queue.count < longestQueue) : (queue.push fresh msg).1 = true := by
  obtain inside | ⟨grown, result, pushed⟩ | ⟨result, pushed⟩ := queue.push_cases fresh msg
  · have long := valid.roomy
    exact (valid.push_room fresh (by omega) msg).1
  · rw [pushed]
  · by_contra refused
    have full : queue.count = queue.aSize := by
      have few := valid.count_le
      by_contra other
      exact refused (valid.push_room fresh (by omega) msg).1
    have short : ¬ queue.nextSize ≤ queue.aSize := by
      rw [sized.wraps_iff]
      omega
    rw [HiveQueueC.grow, if_neg short] at result
    cases result

theorem push_refused {queue : HiveQueueC Message} (sized : queue.Sized)
    (full : queue.count = queue.aSize) (longest : queue.count = longestQueue)
    (fresh : ℕ → ℕ → Message) (msg : Message) : (queue.push fresh msg).1 = false := by
  have wraps := sized.wraps_iff.mpr (full.symm.trans longest)
  obtain inside | ⟨grown, result, -⟩ | ⟨-, pushed⟩ := queue.push_cases fresh msg
  · rw [longestQueue] at longest
    omega
  · rw [HiveQueueC.grow, if_pos wraps] at result
    cases result
  · rw [pushed]

/-! ## The indices -/

theorem copyIndices_below {stop i j sourceSize tempSize : ℕ} (below : stop ≤ sourceSize)
    (room : j + (stop - i) ≤ tempSize) :
    ∀ index ∈ copyIndices stop i j sourceSize tempSize, index.1 < index.2 := by
  induction i, j using copyIndices.induct stop with
  | case1 i j before inductionHypothesis =>
      rw [copyIndices, if_pos before]
      intro index member
      rcases List.mem_cons.mp member with rfl | member
      · exact before.trans_le below
      rcases List.mem_cons.mp member with rfl | member
      · dsimp only
        omega
      · exact inductionHypothesis (by omega) index member
  | case2 i j done =>
      rw [copyIndices, if_neg done]
      simp

omit [Inhabited Message] in
theorem Valid.tail_lt {queue : HiveQueueC Message} (valid : queue.Valid) :
    queue.tail < queue.aSize := by
  have long := valid.roomy
  rw [valid.tail_eq]
  exact Nat.mod_lt _ (by omega)

omit [Inhabited Message] in
theorem Valid.writeIndex_below {queue : HiveQueueC Message} (valid : queue.Valid) :
    queue.writeIndex.1 < queue.writeIndex.2 := by
  have long := valid.roomy
  rw [writeIndex]
  split
  · dsimp only
    omega
  · exact valid.tail_lt

/-- A full ring is copied from inside the old array to inside the new one. -/
theorem Valid.growIndices_below {queue : HiveQueueC Message} (valid : queue.Valid)
    (newSize : ℕ) : ∀ index ∈ queue.growIndices fresh newSize, index.1 < index.2 := by
  have inside := valid.head_lt
  have tailInside := valid.tail_lt
  rw [growIndices]
  split
  · simp
  · rename_i larger
    obtain ⟨copied, -⟩ := copyUp_spec queue.queue queue.aSize queue.head 0
      (newArray (fresh newSize) newSize) inside.le (by rw [length_newArray]; omega)
    intro index member
    rcases List.mem_append.mp member with above | below
    · exact copyIndices_below le_rfl (by omega) index above
    · split at below
      · exact copyIndices_below tailInside.le (by rw [copied]; omega) index below
      · cases below

theorem Valid.indices_below {queue : HiveQueueC Message} (valid : queue.Valid)
    (call : QueueCall Message) : ∀ index ∈ queue.indices fresh call, index.1 < index.2 := by
  have atHead : ∀ index ∈ (if 1 > queue.count then [] else [(queue.head, queue.aSize)]),
      index.1 < index.2 := by
    intro index member
    split at member
    · cases member
    · rw [List.mem_singleton.mp member]
      exact valid.head_lt
  cases call with
  | push msg =>
      rw [indices]
      split
      · intro index member
        rw [List.mem_singleton.mp member]
        exact valid.writeIndex_below
      · rename_i full
        obtain ⟨-, notBelow⟩ := not_or.mp full
        have few := valid.count_le
        intro index member
        rcases List.mem_append.mp member with copied | written
        · exact valid.growIndices_below _ index copied
        · obtain ⟨grown, result, rfl⟩ := Option.map_eq_some_iff.mp (Option.mem_toList.mp written)
          exact (valid.grow (by omega) result).1.writeIndex_below
  | pop => exact atHead
  | peek => exact atHead
  | remove => simp [indices]
  | size => simp [indices]

/-! ## Every call on the waiting messages -/

theorem pop_eq_some {queue : HiveQueueC Message} {first : Message} {waiting : List Message}
    (valid : queue.Valid) (held : queue.contents = first :: waiting) :
    ∃ rest, queue.remove = some rest ∧ queue.peek = some first ∧
      queue.pop = some (first, rest) ∧ rest.Valid ∧ rest.contents = waiting ∧
      rest.aSize = queue.aSize := by
  have some : ¬ queue.count = 0 := by
    intro empty
    have length := queue.length_contents
    rw [held, size, empty] at length
    cases length
  obtain ⟨rest, removed⟩ : ∃ rest, queue.remove = .some rest := by
    rw [remove, if_pos (Nat.pos_of_ne_zero some)]
    exact ⟨_, rfl⟩
  obtain ⟨msg, peeked⟩ : ∃ msg, queue.peek = .some msg := by
    rw [peek, if_neg (by omega)]
    exact ⟨_, rfl⟩
  have popped : queue.pop = .some (msg, rest) := by
    rw [HiveQueueC.pop, peeked, removed]
    rfl
  obtain ⟨restValid, split⟩ := valid.pop popped
  rw [held] at split
  obtain ⟨rfl, rfl⟩ := List.cons.inj split
  refine ⟨rest, removed, peeked, popped, restValid, rfl, ?_⟩
  rw [remove, if_pos (Nat.pos_of_ne_zero some), Option.some.injEq] at removed
  rw [← removed]

theorem contents_eq_nil_iff {queue : HiveQueueC Message} :
    queue.contents = [] ↔ queue.count = 0 := by
  rw [← List.length_eq_zero_iff, length_contents, size]

/-- Whatever is called, the indices stay inside an array of a possible length. -/
theorem call_valid {queue : HiveQueueC Message} (valid : queue.Valid) (sized : queue.Sized)
    (call : QueueCall Message) :
    (queue.call fresh call).2.Valid ∧ (queue.call fresh call).2.Sized := by
  cases waiting : queue.contents with
  | nil =>
      have empty := contents_eq_nil_iff.mp waiting
      cases call with
      | push msg => exact ⟨(valid.push fresh msg).1, sized.push valid fresh msg⟩
      | pop =>
          simp only [HiveQueueC.call, pop_eq_none_iff.mpr empty]
          exact ⟨valid, sized⟩
      | remove =>
          simp only [HiveQueueC.call, HiveQueueC.remove, empty, lt_irrefl, if_false]
          exact ⟨valid, sized⟩
      | peek => exact ⟨valid, sized⟩
      | size => exact ⟨valid, sized⟩
  | cons first later =>
      obtain ⟨rest, removed, -, popped, restValid, -, sameSize⟩ := pop_eq_some valid waiting
      have restSized : rest.Sized :=
        ⟨by rw [sameSize]; exact sized.multiple, by rw [sameSize]; exact sized.below⟩
      cases call with
      | push msg => exact ⟨(valid.push fresh msg).1, sized.push valid fresh msg⟩
      | pop =>
          simp only [HiveQueueC.call, popped]
          exact ⟨restValid, restSized⟩
      | remove =>
          simp only [HiveQueueC.call, removed]
          exact ⟨restValid, restSized⟩
      | peek => exact ⟨valid, sized⟩
      | size => exact ⟨valid, sized⟩

/-- As long as the list is not longer than the longest array, every call has the result that
it has on the list. -/
theorem call_fifo {queue : HiveQueueC Message} (valid : queue.Valid) (sized : queue.Sized)
    (call : QueueCall Message) (below : (fifo queue.contents call).2.length ≤ longestQueue) :
    (queue.call fresh call).1 = (fifo queue.contents call).1 ∧
      (queue.call fresh call).2.contents = (fifo queue.contents call).2 := by
  have count : queue.contents.length = queue.count := queue.length_contents
  cases call with
  | push msg =>
      have accepted := valid.push_accepted sized fresh msg (by
        simp only [fifo, List.length_append, List.length_singleton] at below
        omega)
      have appended := (valid.push fresh msg).2.1
      rw [accepted] at appended
      exact ⟨congrArg QueueAnswer.done accepted, appended⟩
  | size => exact ⟨congrArg QueueAnswer.number count.symm, rfl⟩
  | peek =>
      refine ⟨?_, rfl⟩
      cases waiting : queue.contents with
      | nil =>
          have empty := contents_eq_nil_iff.mp waiting
          simp [HiveQueueC.call, HiveQueueC.peek, empty, fifo]
      | cons first later =>
          obtain ⟨rest, -, peeked, -⟩ := pop_eq_some valid waiting
          simp [HiveQueueC.call, peeked, fifo]
  | pop =>
      cases waiting : queue.contents with
      | nil =>
          have empty := contents_eq_nil_iff.mp waiting
          simp only [HiveQueueC.call, pop_eq_none_iff.mpr empty]
          exact ⟨rfl, waiting⟩
      | cons first later =>
          obtain ⟨rest, -, -, popped, -, left, -⟩ := pop_eq_some valid waiting
          simp only [HiveQueueC.call, popped]
          exact ⟨rfl, left⟩
  | remove =>
      cases waiting : queue.contents with
      | nil =>
          have empty := contents_eq_nil_iff.mp waiting
          simp only [HiveQueueC.call, HiveQueueC.remove, empty, lt_irrefl, if_false]
          exact ⟨rfl, waiting⟩
      | cons first later =>
          obtain ⟨rest, removed, -, -, -, left, -⟩ := pop_eq_some valid waiting
          simp only [HiveQueueC.call, removed]
          exact ⟨rfl, left⟩

variable (fresh) in
/-- A call of `HiveQueueC`; its effect is always defined. -/
def step (queue : HiveQueueC Message) (call : QueueCall Message) :
    Option (QueueAnswer Message × HiveQueueC Message) := some (queue.call fresh call)

/-- In every reachable state the array has a possible length and the indices are inside. -/
theorem reachable_valid {calls : List (QueueCall Message)} {given : List (QueueAnswer Message)}
    {queue : HiveQueueC Message}
    (answered : answers (step fresh) (new fresh) calls = some (given, queue)) :
    queue.Valid ∧ queue.Sized := by
  have keep : ∀ (state : HiveQueueC Message) call result next, state.Valid ∧ state.Sized →
      step fresh state call = some (result, next) → next.Valid ∧ next.Sized := by
    intro state call result next holds stepped
    have same : (state.call fresh call).2 = next := congrArg Prod.snd (Option.some.inj stepped)
    rw [← same]
    exact call_valid holds.1 holds.2 call
  exact answers_invariant (fun queue => queue.Valid ∧ queue.Sized) keep
    ⟨valid_new fresh, sized_new fresh⟩ answered

end HiveQueueC

section Answers

variable {Message : Type u} {calls : List (QueueCall Message)}

theorem hiveQueueC_fifo [Inhabited Message] (fresh : ℕ → ℕ → Message)
    (few : ∀ before, before <+: calls → (after fifo [] before).length ≤ longestQueue) :
    ∃ queue : HiveQueueC Message,
      answers (HiveQueueC.step fresh) (HiveQueueC.new fresh) calls =
        some (results fifo [] calls, queue) ∧
        queue.contents = after fifo [] calls := by
  have keep : ∀ (queue : HiveQueueC Message) waiting call,
      (queue.Valid ∧ queue.Sized) ∧ queue.contents = waiting →
      (fifo waiting call).2.length ≤ longestQueue →
      ∃ next, HiveQueueC.step fresh queue call = some ((fifo waiting call).1, next) ∧
        (next.Valid ∧ next.Sized) ∧ next.contents = (fifo waiting call).2 := by
    rintro queue waiting call ⟨holds, rfl⟩ below
    obtain ⟨sameAnswer, sameContents⟩ :=
      @HiveQueueC.call_fifo _ _ fresh _ holds.1 holds.2 call below
    refine ⟨(queue.call fresh call).2, ?_, HiveQueueC.call_valid holds.1 holds.2 call, sameContents⟩
    rw [HiveQueueC.step, ← sameAnswer]
  obtain ⟨queue, answered, -, contents⟩ := answers_of_simulation
    (fun (queue : HiveQueueC Message) waiting =>
      (queue.Valid ∧ queue.Sized) ∧ queue.contents = waiting)
    (fun waiting : List Message => waiting.length ≤ longestQueue) keep
    ⟨⟨HiveQueueC.valid_new fresh, HiveQueueC.sized_new fresh⟩, HiveQueueC.contents_new fresh⟩ few
  exact ⟨queue, answered, contents⟩

theorem hiveQueue_fifo
    (few : ∀ before, before <+: calls → (after fifo [] before).length < 2 ^ 32) :
    ∃ queue : HiveQueue Message,
      answers HiveQueue.call HiveQueue.new calls = some (results fifo [] calls, queue) ∧
        queue.Represents (after fifo [] calls) :=
  answers_of_simulation HiveQueue.Represents (fun waiting => waiting.length < 2 ^ 32)
    (fun _ _ call related below => HiveQueue.call_fifo related call below)
    ⟨[], HiveQueue.holds_new, rfl⟩ few

/-- Whatever is in new arrays, as long as no more messages wait than the longest array holds, both
queues give the results of the list and hold its messages.  In every reachable state of the ring,
whatever was called, every index is inside its array. -/
theorem queues_fifo [Inhabited Message] (fresh : ℕ → ℕ → Message)
    (few : ∀ before, before <+: calls → (after fifo [] before).length ≤ longestQueue) :
    (∃ ring linked,
      answers (HiveQueueC.step fresh) (HiveQueueC.new fresh) calls =
        some (results fifo [] calls, ring) ∧
        answers HiveQueue.call HiveQueue.new calls = some (results fifo [] calls, linked) ∧
        ring.contents = after fifo [] calls ∧ linked.Represents (after fifo [] calls)) ∧
      ∀ (others : List (QueueCall Message)) given queue,
        answers (HiveQueueC.step fresh) (HiveQueueC.new fresh) others = some (given, queue) →
          queue.head < queue.aSize ∧ queue.tail < queue.aSize ∧
            queue.queue.length = queue.aSize ∧
            ∀ call, ∀ index ∈ queue.indices fresh call, index.1 < index.2 := by
  obtain ⟨ring, ringAnswers, ringContents⟩ := hiveQueueC_fifo fresh few
  obtain ⟨linked, linkedAnswers, represents⟩ := hiveQueue_fifo
    fun before isPrefix => (few before isPrefix).trans_lt (by decide)
  refine ⟨⟨ring, linked, ringAnswers, linkedAnswers, ringContents, represents⟩, ?_⟩
  intro others given queue answered
  obtain ⟨valid, -⟩ := HiveQueueC.reachable_valid answered
  exact ⟨valid.head_lt, valid.tail_lt, valid.length, fun call => valid.indices_below call⟩

end Answers

theorem length_after_le {Message : Type u} (calls : List (QueueCall Message))
    (waiting : List Message) :
    (after fifo waiting calls).length ≤ waiting.length + calls.length := by
  induction calls generalizing waiting with
  | nil => exact le_rfl
  | cons call calls inductionHypothesis =>
      have later := inductionHypothesis (fifo waiting call).2
      have one : (fifo waiting call).2.length ≤ waiting.length + 1 := by
        cases call <;> simp [fifo] <;> omega
      rw [after_cons, List.length_cons]
      omega

/-- The array grows, and is filled again from its start. -/
def wrappingCalls : List (QueueCall ℕ) :=
  List.replicate 60 (.push 4) ++ List.replicate 30 .pop ++ List.replicate 50 (.push 5) ++
    [.peek, .size, .remove]

/-- The answers of both queues to these calls. -/
theorem queues_fifo_wrapped :
    ((∃ ring linked,
      answers (HiveQueueC.step fun _ _ => 9) (HiveQueueC.new fun _ _ => 9) wrappingCalls =
        some (results fifo [] wrappingCalls, ring) ∧
        answers HiveQueue.call HiveQueue.new wrappingCalls =
          some (results fifo [] wrappingCalls, linked) ∧
        ring.contents = after fifo [] wrappingCalls ∧
        linked.Represents (after fifo [] wrappingCalls)) ∧
      ∀ (others : List (QueueCall ℕ)) given queue,
        answers (HiveQueueC.step fun _ _ => 9) (HiveQueueC.new fun _ _ => 9) others =
          some (given, queue) →
          queue.head < queue.aSize ∧ queue.tail < queue.aSize ∧
            queue.queue.length = queue.aSize ∧
            ∀ call, ∀ index ∈ queue.indices (fun _ _ => 9) call, index.1 < index.2) ∧
      ((answers (HiveQueueC.step fun _ _ => 9) (HiveQueueC.new fun _ _ => 9) wrappingCalls).map
        fun answered => (answered.2.aSize, answered.2.head, answered.2.tail)) =
          some (100, 31, 10) := by
  refine ⟨queues_fifo (fun _ _ => 9) fun before isPrefix => ?_, by decide +kernel⟩
  have few := length_after_le before []
  have short := isPrefix.length_le
  have all : wrappingCalls.length ≤ longestQueue := by simp [wrappingCalls, longestQueue]
  simp only [List.length_nil] at few
  omega

/-! ## A full array that cannot grow -/

theorem after_pushes {Message : Type u} (msg : Message) (count : ℕ) (waiting : List Message) :
    after fifo waiting (List.replicate count (.push msg)) =
      waiting ++ List.replicate count msg := by
  induction count generalizing waiting with
  | zero => simp
  | succ count inductionHypothesis =>
      rw [List.replicate_succ, after_cons, inductionHypothesis, List.replicate_succ]
      simp [fifo]

/-- The pushes that were not refused made a list as long as they are many. -/
theorem length_after_pushes {Message : Type u} {msg : Message} {count : ℕ}
    {before : List (QueueCall Message)} (isPrefix : before <+: List.replicate count (.push msg)) :
    (after fifo [] before).length ≤ count := by
  obtain ⟨short, same⟩ := List.prefix_replicate_iff.mp isPrefix
  rw [same, after_pushes]
  simpa using short

def tooManyPushes : List (QueueCall ℕ) :=
  List.replicate longestQueue (.push 0) ++ [.push 0]

/-- The number of waiting messages stays an `unsigned int`, and the ring refuses the last
push, which the linked queue accepts. -/
theorem full_ring_refuses :
    (∀ before, before <+: tooManyPushes → (after fifo [] before).length < 2 ^ 32) ∧
      (answers (HiveQueueC.step fun _ _ => 9) (HiveQueueC.new fun _ _ => 9) tooManyPushes).map
          Prod.fst ≠
        (answers HiveQueue.call HiveQueue.new tooManyPushes).map Prod.fst := by
  have below : ∀ before, before <+: tooManyPushes → (after fifo [] before).length < 2 ^ 32 := by
    intro before isPrefix
    rw [tooManyPushes, ← List.replicate_succ'] at isPrefix
    exact (length_after_pushes isPrefix).trans_lt (by decide)
  refine ⟨below, ?_⟩
  obtain ⟨ring, ringAnswers, ringContents⟩ := hiveQueueC_fifo (fun _ _ => 9)
    fun before (isPrefix : before <+: List.replicate longestQueue (.push 0)) =>
      length_after_pushes isPrefix
  obtain ⟨linked, linkedAnswers, -⟩ := hiveQueue_fifo below
  obtain ⟨valid, sized⟩ := HiveQueueC.reachable_valid ringAnswers
  have count : ring.count = longestQueue := by
    rw [← show ring.contents.length = ring.count from ring.length_contents, ringContents,
      after_pushes]
    simp
  have full : ring.count = ring.aSize := by
    have few := valid.count_le
    have multiple := sized.multiple
    have small := sized.below
    rw [hqInitSize] at multiple
    rw [longestQueue] at count
    omega
  have refused := HiveQueueC.push_refused sized full count (fun _ _ => 9) 0
  have last : answers (HiveQueueC.step fun _ _ => 9) ring [.push 0] =
      some ([.done false], (ring.push (fun _ _ => 9) 0).2) := by
    simp only [answers, HiveQueueC.step, HiveQueueC.call, Option.bind_some, Option.map_some,
      refused]
  rw [linkedAnswers, tooManyPushes, answers_append, ringAnswers, Option.bind_some, last,
    results_append]
  simp [results, fifo]

end OperationFrontLine.Mailbox
