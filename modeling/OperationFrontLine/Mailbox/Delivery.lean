import OperationFrontLine.Library.Run
import OperationFrontLine.Mailbox.HiveQueue

/-!
# Delivery of messages to the owner of a thread handle

`sendMsg` and `sendAll` run on any thread, `receiveMsg` and `receiveAll` on the
owner's; each holds the handle's mutex, so a call is one step.  A blocking
receive is not enabled until `loadMsg` succeeds.  The index of the loop in
`receiveAll` is an `int`, which has no defined effect beyond its greatest value.
-/

namespace OperationFrontLine.Mailbox

open OperationFrontLine.Library

universe u

/-- The message queue of a handle and the owner's `currentMsg`. -/
structure ThreadHive (Message : Type u) where
  msgQueue : HiveQueueC Message
  currentMsg : Message

inductive Call (Message : Type u) where
  | sendMsg (msg : Message)
  | sendAll (messages : List Message)
  | receiveMsg (blocking : Bool)
  | receiveAll (blocking : Bool)

/-- What a call returns; `msg` is `none` when it is not written, `written`
counts the writes to the array `messages` of length `size`. -/
inductive Reply (Message : Type u) where
  | sent (result : Bool)
  | received (result : Bool) (msg : Option Message)
  | receivedAll (result : Bool) (size written : Nat) (messages : List Message)

/-- How a call goes: it waits as long as its predicate fails, and its effect is
not defined where an `int` passes its greatest value. -/
inductive CallOutcome (Message : Type u) where
  | returned (reply : Reply Message) (hive : ThreadHive Message)
  | waits
  | undefined

def intMax : Nat := 2147483647

namespace ThreadHive

-- `fresh` is what the cells of a new array of each length hold
variable {Message : Type u} [Inhabited Message] (fresh : Nat → Nat → Message)

def loadMsg (hive : ThreadHive Message) : Option (ThreadHive Message) :=
  if 0 < hive.msgQueue.size then
    hive.msgQueue.pop.map fun popped =>
      { msgQueue := popped.2, currentMsg := popped.1 }
  else
    none

def sendMsg (hive : ThreadHive Message) (msg : Message) : Bool × ThreadHive Message :=
  ((hive.msgQueue.push fresh msg).1, { hive with msgQueue := (hive.msgQueue.push fresh msg).2 })

def sendAll (result : Bool) (hive : ThreadHive Message) :
    List Message → Bool × ThreadHive Message
  | [] => (result, hive)
  | msg :: messages =>
      sendAll (hive.sendMsg fresh msg).1 (hive.sendMsg fresh msg).2 messages

theorem size_of_loadMsg {hive loaded : ThreadHive Message}
    (result : hive.loadMsg = some loaded) :
    loaded.msgQueue.size + 1 = hive.msgQueue.size := by
  unfold loadMsg at result
  split at result
  case isFalse => cases result
  case isTrue =>
    obtain ⟨popped, took, rfl⟩ := Option.map_eq_some_iff.mp result
    exact HiveQueueC.size_of_pop took

/-- The loop of `receiveAll`: `messages[i] = currentMsg` and `i++` while
`loadMsg` succeeds; `none` where `i` passes its greatest value. -/
def drain (hive : ThreadHive Message) (i : Nat) (messages : List Message) :
    Option (Nat × List Message × ThreadHive Message) :=
  match _loads : hive.loadMsg with
  | some loaded =>
      if i + 1 ≤ intMax then loaded.drain (i + 1) (messages.set i loaded.currentMsg) else none
  | none => some (i, messages, hive)
termination_by hive.msgQueue.size
decreasing_by
  have fewer := size_of_loadMsg _loads
  omega

def receiveMsg (hive : ThreadHive Message) (blocking : Bool) : CallOutcome Message :=
  match hive.loadMsg with
  | some loaded => .returned (.received true (some loaded.currentMsg)) loaded
  | none => if blocking then .waits else .returned (.received false none) hive

/-- How `receiveAll` returns with its array of this size. -/
def allReceived (result : Bool) (size : Nat) :
    Option (Nat × List Message × ThreadHive Message) → CallOutcome Message
  | some drained => .returned (.receivedAll result size drained.1 drained.2.1) drained.2.2
  | none => .undefined

/-- `receiveAll`: a blocking call takes its first message in the predicate. -/
def receiveAll (hive : ThreadHive Message) (blocking : Bool) : CallOutcome Message :=
  if blocking then
    match hive.loadMsg with
    | some loaded =>
        let size := loaded.msgQueue.size + 1
        let messages := (HiveQueueC.newArray (fresh size) size).set 0 loaded.currentMsg
        allReceived true size (loaded.drain 1 messages)
    | none => .waits
  else
    let size := hive.msgQueue.size
    allReceived (decide (0 < size)) size
      (hive.drain 0 (HiveQueueC.newArray (fresh size) size))

def call (hive : ThreadHive Message) : Call Message → CallOutcome Message
  | .sendMsg msg => .returned (.sent (hive.sendMsg fresh msg).1) (hive.sendMsg fresh msg).2
  | .sendAll messages =>
      .returned (.sent (sendAll fresh false hive messages).1) (sendAll fresh false hive messages).2
  | .receiveMsg blocking => hive.receiveMsg blocking
  | .receiveAll blocking => hive.receiveAll fresh blocking

variable {fresh}

/-! ## What each call does to the waiting messages -/

theorem loadMsg_eq_none_iff {hive : ThreadHive Message} :
    hive.loadMsg = none ↔ hive.msgQueue.size = 0 := by
  unfold loadMsg
  split
  case isTrue nonempty =>
    rw [Option.map_eq_none_iff, HiveQueueC.pop_eq_none_iff]
  case isFalse empty => simpa using empty

theorem contents_of_loadMsg {hive loaded : ThreadHive Message}
    (valid : hive.msgQueue.Valid) (result : hive.loadMsg = some loaded) :
    loaded.msgQueue.Valid ∧
      hive.msgQueue.contents = loaded.currentMsg :: loaded.msgQueue.contents := by
  unfold loadMsg at result
  split at result
  case isFalse => cases result
  case isTrue =>
    obtain ⟨popped, took, rfl⟩ := Option.map_eq_some_iff.mp result
    exact valid.pop took

/-- The loop of `receiveAll` writes the waiting messages from `i` on and ends
with an empty queue, as long as there are not too many. -/
theorem drain_spec (hive : ThreadHive Message) (i : Nat) (messages : List Message)
    (valid : hive.msgQueue.Valid) (room : messages.length = i + hive.msgQueue.size)
    (few : messages.length ≤ intMax) :
    ∃ drained, hive.drain i messages = some drained ∧ drained.1 = messages.length ∧
      drained.2.1 = messages.take i ++ hive.msgQueue.contents ∧
      drained.2.2.msgQueue.Valid ∧ drained.2.2.msgQueue.size = 0 := by
  induction hive, i, messages using drain.induct with
  | case1 hive i messages loaded loads inside inductionHypothesis =>
      obtain ⟨loadedValid, split⟩ := contents_of_loadMsg valid loads
      have fewer := size_of_loadMsg loads
      obtain ⟨drained, ended, written, wrote, stillValid, emptied⟩ :=
        inductionHypothesis loadedValid (by rw [List.length_set]; omega)
          (by rwa [List.length_set])
      have unfolded : hive.drain i messages =
          loaded.drain (i + 1) (messages.set i loaded.currentMsg) := by
        rw [drain]
        split <;> simp_all
      refine ⟨drained, unfolded.trans ended, by rw [written, List.length_set], ?_, stillValid,
        emptied⟩
      have prefixGrown : (messages.set i loaded.currentMsg).take (i + 1) =
          messages.take i ++ [loaded.currentMsg] := by
        rw [List.take_add_one, List.take_set_of_le (le_refl i)]
        simp [show i < messages.length by omega]
      rw [wrote, split, prefixGrown]
      simp
  | case2 hive i messages loaded loads outside =>
      have fewer := size_of_loadMsg loads
      omega
  | case3 hive i messages stops =>
      have empty := loadMsg_eq_none_iff.mp stops
      have unfolded : hive.drain i messages = some (i, messages, hive) := by
        rw [drain]
        split <;> simp_all
      have nothing : hive.msgQueue.contents = [] := by
        rw [← List.length_eq_zero_iff, HiveQueueC.length_contents, empty]
      refine ⟨_, unfolded, ?_, ?_, valid, empty⟩
      · dsimp only
        omega
      · simp [nothing, show messages.length ≤ i by omega]

theorem drain_eq_none (hive : ThreadHive Message) (i : Nat) (messages : List Message)
    (waiting : 0 < hive.msgQueue.size) (many : intMax < i + hive.msgQueue.size) :
    hive.drain i messages = none := by
  induction hive, i, messages using drain.induct with
  | case1 hive i messages loaded loads inside inductionHypothesis =>
      have fewer := size_of_loadMsg loads
      have unfolded : hive.drain i messages =
          loaded.drain (i + 1) (messages.set i loaded.currentMsg) := by
        rw [drain]
        split <;> simp_all
      rw [unfolded]
      exact inductionHypothesis (by omega) (by omega)
  | case2 hive i messages loaded loads outside =>
      rw [drain]
      split
      · exact if_neg outside
      · rename_i stops
        rw [stops] at loads
        cases loads
  | case3 hive i messages stops =>
      rw [loadMsg_eq_none_iff.mp stops] at waiting
      cases waiting

end ThreadHive

/-! ## Runs -/

/-- A handle with the messages pushed and handed over since it was created, and
the last call's reply. -/
structure History (Message : Type u) where
  hive : ThreadHive Message
  pushed : List Message
  handed : List Message
  reply : Option (Reply Message)

namespace History

variable {Message : Type u} [Inhabited Message] (fresh : Nat → Nat → Message)

def start (currentMsg : Message) : History Message :=
  { hive := { msgQueue := .new fresh, currentMsg := currentMsg }
    pushed := []
    handed := []
    reply := none }

def offered : Call Message → List Message
  | .sendMsg msg => [msg]
  | .sendAll messages => messages
  | _ => []

/-- The messages that `push` stores, of those passed to it one after another. -/
def accepted (hive : ThreadHive Message) : List Message → List Message
  | [] => []
  | msg :: messages =>
      (if (hive.sendMsg fresh msg).1 then [msg] else []) ++
        accepted (hive.sendMsg fresh msg).2 messages

def received : Reply Message → List Message
  | .sent _ => []
  | .received _ msg => msg.toList
  | .receivedAll _ _ _ messages => messages

def step (history : History Message) (call : Call Message) : Option (History Message) :=
  match history.hive.call fresh call with
  | .returned reply hive => some
      { hive := hive
        pushed := history.pushed ++ accepted fresh history.hive (offered call)
        handed := history.handed ++ received reply
        reply := some reply }
  | _ => none

variable {fresh}

/-- Every message pushed has been handed over or waits, in push order. -/
structure Intact (history : History Message) : Prop where
  valid : history.hive.msgQueue.Valid
  kept : history.pushed = history.handed ++ history.hive.msgQueue.contents

/-- What a call guarantees: the messages handed over are a prefix of those pushed
and the rest waits; a message is refused only by an array of at least
`2^32 - 50` messages; `receiveMsg` hands over the oldest message; `receiveAll`
fills its array and empties the queue. -/
structure Delivered (before : History Message) (call : Call Message)
    (after : History Message) : Prop where
  inOrder : after.handed <+: after.pushed
  kept : after.pushed = after.handed ++ after.hive.msgQueue.contents
  sent : after.pushed = before.pushed ++ offered call ∨
    2 ^ 32 ≤ after.hive.msgQueue.size + hqInitSize
  oldest : ∀ result msg, after.reply = some (.received result msg) →
    msg = before.hive.msgQueue.contents.head? ∧ result = msg.isSome
  complete : ∀ result size written messages,
    after.reply = some (.receivedAll result size written messages) →
      written = size ∧ messages.length = size ∧ after.hive.msgQueue.contents = []

theorem intact_start (fresh : Nat → Nat → Message) (currentMsg : Message) :
    (start fresh currentMsg).Intact where
  valid := HiveQueueC.valid_new fresh
  kept := rfl

theorem send_one (hive : ThreadHive Message) (msg : Message) (valid : hive.msgQueue.Valid) :
    (hive.sendMsg fresh msg).2.msgQueue.Valid ∧
      (hive.sendMsg fresh msg).2.msgQueue.contents =
        hive.msgQueue.contents ++ (if (hive.sendMsg fresh msg).1 then [msg] else []) ∧
      ((hive.sendMsg fresh msg).1 = false → 2 ^ 32 ≤ hive.msgQueue.size + hqInitSize) :=
  valid.push fresh msg

/-- A list of sends appends the messages accepted, all of them unless the array
cannot grow. -/
theorem send_all (messages : List Message) :
    ∀ (result : Bool) (hive : ThreadHive Message), hive.msgQueue.Valid →
      (ThreadHive.sendAll fresh result hive messages).2.msgQueue.Valid ∧
      (ThreadHive.sendAll fresh result hive messages).2.msgQueue.contents =
        hive.msgQueue.contents ++ accepted fresh hive messages ∧
      (accepted fresh hive messages = messages ∨
        2 ^ 32 ≤ (ThreadHive.sendAll fresh result hive messages).2.msgQueue.size +
          hqInitSize) := by
  induction messages with
  | nil =>
      intro result hive valid
      exact ⟨valid, by simp [ThreadHive.sendAll, accepted], .inl rfl⟩
  | cons msg messages inductionHypothesis =>
      intro result hive valid
      obtain ⟨nextValid, appended, refused⟩ := @send_one _ _ fresh hive msg valid
      obtain ⟨lastValid, rest, complete⟩ :=
        inductionHypothesis (hive.sendMsg fresh msg).1 (hive.sendMsg fresh msg).2 nextValid
      simp only [ThreadHive.sendAll, accepted]
      refine ⟨lastValid, by rw [rest, appended, List.append_assoc], ?_⟩
      cases took : (hive.sendMsg fresh msg).1 with
      | true =>
          rw [took] at complete
          exact complete.imp (fun all => by simp [all]) id
      | false =>
          -- the queue never shrinks here, so it is still as long at the end
          right
          have long := refused took
          have grown := congrArg List.length rest
          rw [appended, took] at grown
          simp only [HiveQueueC.length_contents, List.length_append, Bool.false_eq_true,
            if_false, List.length_nil] at grown
          omega

theorem Intact.send {history after : History Message} (intact : history.Intact)
    {messages : List Message} {result : Bool} {call : Call Message}
    (offers : offered call = messages)
    (returns : history.hive.call fresh call =
      .returned (.sent result) (ThreadHive.sendAll fresh false history.hive messages).2)
    (stepped : history.step fresh call = some after) :
    after.Intact ∧ Delivered history call after := by
  simp only [step, returns, offers, Option.some.injEq] at stepped
  subst stepped
  obtain ⟨stillValid, appended, complete⟩ :=
    @send_all _ _ fresh messages false history.hive intact.valid
  have kept : history.pushed ++ accepted fresh history.hive messages = history.handed ++ [] ++
      (ThreadHive.sendAll fresh false history.hive messages).2.msgQueue.contents := by
    rw [appended, intact.kept, List.append_nil, List.append_assoc]
  refine ⟨⟨stillValid, kept⟩, ⟨_, kept.symm⟩, kept, ?_, ?_, ?_⟩
  · rw [offers]
    exact complete.imp (fun all => by rw [all]) id
  · intro _ _ other
    cases other
  · intro _ _ _ _ other
    cases other

/-- A receive that takes `taken` off the front of the queue keeps the account. -/
theorem Intact.receive {history after : History Message} (intact : history.Intact)
    {call : Call Message} {reply : Reply Message} {hive : ThreadHive Message}
    (offers : offered call = [])
    (returns : history.hive.call fresh call = .returned reply hive)
    (valid : hive.msgQueue.Valid)
    (took : history.hive.msgQueue.contents = received reply ++ hive.msgQueue.contents)
    (oldest : ∀ result msg, reply = .received result msg →
      msg = history.hive.msgQueue.contents.head? ∧ result = msg.isSome)
    (complete : ∀ result size written messages,
      reply = .receivedAll result size written messages →
        written = size ∧ messages.length = size ∧ hive.msgQueue.contents = [])
    (stepped : history.step fresh call = some after) :
    after.Intact ∧ Delivered history call after := by
  simp only [step, returns, offers, accepted, List.append_nil, Option.some.injEq] at stepped
  subst stepped
  have kept : history.pushed = history.handed ++ received reply ++ hive.msgQueue.contents := by
    rw [intact.kept, took, List.append_assoc]
  refine ⟨⟨valid, kept⟩, ⟨_, kept.symm⟩, kept, .inl (by rw [offers, List.append_nil]), ?_, ?_⟩
  · intro result msg same
    exact oldest _ _ (Option.some.inj same)
  · intro result size written messages same
    exact complete _ _ _ _ (Option.some.inj same)

theorem contents_eq_nil {queue : HiveQueueC Message}
    (none : queue.size = 0) : queue.contents = [] := by
  rw [← List.length_eq_zero_iff, HiveQueueC.length_contents, none]

/-- `receiveMsg` hands over the oldest message, or nothing from an empty queue. -/
theorem receiveMsg_spec {hive rest : ThreadHive Message} {blocking : Bool}
    {reply : Reply Message} (valid : hive.msgQueue.Valid)
    (returns : hive.receiveMsg blocking = .returned reply rest) :
    rest.msgQueue.Valid ∧
      hive.msgQueue.contents = received reply ++ rest.msgQueue.contents ∧
      reply = .received hive.msgQueue.contents.head?.isSome hive.msgQueue.contents.head? := by
  unfold ThreadHive.receiveMsg at returns
  cases loads : hive.loadMsg with
  | some loaded =>
      simp only [loads, CallOutcome.returned.injEq] at returns
      obtain ⟨rfl, rfl⟩ := returns
      obtain ⟨loadedValid, split⟩ := ThreadHive.contents_of_loadMsg valid loads
      exact ⟨loadedValid, split, by rw [split]; rfl⟩
  | none =>
      cases blocking with
      | true => simp [loads] at returns
      | false =>
          simp only [loads, Bool.false_eq_true, if_false, CallOutcome.returned.injEq] at returns
          obtain ⟨rfl, rfl⟩ := returns
          have empty := contents_eq_nil (ThreadHive.loadMsg_eq_none_iff.mp loads)
          exact ⟨valid, rfl, by rw [empty]; rfl⟩

/-- `receiveAll` hands over every waiting message, and its size is their number. -/
theorem receiveAll_spec {hive : ThreadHive Message} {blocking : Bool}
    (valid : hive.msgQueue.Valid) (enabled : blocking = true → 0 < hive.msgQueue.size)
    (few : hive.msgQueue.size ≤ intMax) :
    ∃ rest, hive.receiveAll fresh blocking =
        .returned (.receivedAll (decide (0 < hive.msgQueue.size)) hive.msgQueue.size
          hive.msgQueue.size hive.msgQueue.contents) rest ∧
      rest.msgQueue.Valid ∧ rest.msgQueue.contents = [] := by
  cases blocking with
  | true =>
      have waiting := enabled rfl
      cases loads : hive.loadMsg with
      | none =>
          have empty := ThreadHive.loadMsg_eq_none_iff.mp loads
          omega
      | some loaded =>
          obtain ⟨loadedValid, split⟩ := ThreadHive.contents_of_loadMsg valid loads
          have fewer := ThreadHive.size_of_loadMsg loads
          obtain ⟨drained, ended, written, wrote, stillValid, emptied⟩ :=
            ThreadHive.drain_spec loaded 1 ((HiveQueueC.newArray
              (fresh (loaded.msgQueue.size + 1)) (loaded.msgQueue.size + 1)).set 0
                loaded.currentMsg) loadedValid (by simp [Nat.add_comm])
              (by simp only [List.length_set, HiveQueueC.length_newArray]; omega)
          refine ⟨drained.2.2, ?_, stillValid, contents_eq_nil emptied⟩
          have first : ((HiveQueueC.newArray (fresh (loaded.msgQueue.size + 1))
              (loaded.msgQueue.size + 1)).set 0 loaded.currentMsg).take 1 =
                [loaded.currentMsg] := by
            simp [HiveQueueC.newArray, List.range_succ_eq_map]
          rw [first, List.singleton_append, ← split] at wrote
          simp only [ThreadHive.receiveAll, if_true, loads, ended, ThreadHive.allReceived, wrote,
            written, List.length_set, HiveQueueC.length_newArray]
          rw [decide_eq_true waiting, fewer]
  | false =>
      obtain ⟨drained, ended, written, wrote, stillValid, emptied⟩ := ThreadHive.drain_spec hive 0
        (HiveQueueC.newArray (fresh hive.msgQueue.size) hive.msgQueue.size) valid (by simp)
        (by simpa using few)
      refine ⟨drained.2.2, ?_, stillValid, contents_eq_nil emptied⟩
      simp only [ThreadHive.receiveAll, Bool.false_eq_true, if_false, ended,
        ThreadHive.allReceived, wrote, written, HiveQueueC.length_newArray, List.take_zero,
        List.nil_append]

/-! ## Which calls return -/

/-- A receive waits on an empty queue only, and only when it is blocking. -/
theorem call_eq_waits_iff {hive : ThreadHive Message} {call : Call Message} :
    hive.call fresh call = .waits ↔ hive.msgQueue.size = 0 ∧
      (call = .receiveMsg true ∨ call = .receiveAll true) := by
  cases call with
  | sendMsg msg => simp [ThreadHive.call]
  | sendAll messages => simp [ThreadHive.call]
  | receiveMsg blocking =>
      rw [ThreadHive.call, ThreadHive.receiveMsg, ← ThreadHive.loadMsg_eq_none_iff]
      cases hive.loadMsg <;> cases blocking <;> simp
  | receiveAll blocking =>
      rw [ThreadHive.call, ThreadHive.receiveAll, ← ThreadHive.loadMsg_eq_none_iff]
      have ends (result : Bool) (size : Nat)
          (drained : Option (Nat × List Message × ThreadHive Message)) :
          ThreadHive.allReceived result size drained ≠ .waits := by
        cases drained <;> simp [ThreadHive.allReceived]
      cases loads : hive.loadMsg <;> cases blocking <;> simp [ends]

/-- The effect of a call is not defined exactly when `receiveAll` finds more messages than its
index can count. -/
theorem call_eq_undefined_iff {hive : ThreadHive Message} (valid : hive.msgQueue.Valid)
    {call : Call Message} :
    hive.call fresh call = .undefined ↔
      intMax < hive.msgQueue.size ∧ ∃ blocking, call = .receiveAll blocking := by
  cases call with
  | sendMsg msg => simp [ThreadHive.call]
  | sendAll messages => simp [ThreadHive.call]
  | receiveMsg blocking =>
      rw [ThreadHive.call, ThreadHive.receiveMsg]
      cases hive.loadMsg <;> cases blocking <;> simp
  | receiveAll blocking =>
      have isReceiveAll : ∃ other, Call.receiveAll blocking = (.receiveAll other : Call Message) :=
        ⟨blocking, rfl⟩
      rw [and_iff_left isReceiveAll, ThreadHive.call]
      constructor
      · intro undefined
        by_contra few
        by_cases enabled : blocking = true → 0 < hive.msgQueue.size
        · obtain ⟨rest, returned, -⟩ := @receiveAll_spec _ _ fresh hive blocking valid enabled
            (by omega)
          rw [returned] at undefined
          cases undefined
        · simp only [Classical.not_imp] at enabled
          have waits : hive.call fresh (.receiveAll blocking) = .waits :=
            call_eq_waits_iff.mpr ⟨by omega, .inr (by rw [enabled.1])⟩
          rw [ThreadHive.call, undefined] at waits
          cases waits
      · intro many
        have long : 1 < intMax := by decide
        rw [ThreadHive.receiveAll]
        cases blocking with
        | true =>
            rw [if_pos rfl]
            cases loads : hive.loadMsg with
            | none =>
                have empty := ThreadHive.loadMsg_eq_none_iff.mp loads
                omega
            | some loaded =>
                have fewer := ThreadHive.size_of_loadMsg loads
                simp only [ThreadHive.drain_eq_none loaded 1 _ (by omega) (by omega),
                  ThreadHive.allReceived]
        | false =>
            simp only [Bool.false_eq_true, if_false,
              ThreadHive.drain_eq_none hive 0 _ (by omega) (by omega), ThreadHive.allReceived]

theorem Intact.step {history after : History Message} {call : Call Message}
    (intact : history.Intact) (stepped : history.step fresh call = some after) :
    after.Intact ∧ Delivered history call after := by
  cases call with
  | sendMsg msg =>
      have offers : offered (.sendMsg msg) = [msg] := rfl
      exact intact.send offers rfl stepped
  | sendAll messages => exact intact.send rfl rfl stepped
  | receiveMsg blocking =>
      have returned := stepped
      rw [History.step] at returned
      split at returned
      · rename_i reply hive returns
        obtain ⟨valid, took, rfl⟩ := receiveMsg_spec intact.valid returns
        refine intact.receive rfl returns valid took ?_ (fun _ _ _ _ other => by cases other)
          stepped
        intro result msg same
        cases same
        exact ⟨rfl, rfl⟩
      · cases returned
  | receiveAll blocking =>
      have returned := stepped
      rw [History.step] at returned
      split at returned
      · rename_i reply hive returns
        have few : history.hive.msgQueue.size ≤ intMax := by
          by_contra many
          rw [(@call_eq_undefined_iff _ _ fresh _ intact.valid (.receiveAll blocking)).mpr
            ⟨by omega, blocking, rfl⟩] at returns
          cases returns
        have enabled : blocking = true → 0 < history.hive.msgQueue.size := by
          rintro rfl
          by_contra empty
          rw [(@call_eq_waits_iff _ _ fresh history.hive (.receiveAll true)).mpr
            ⟨by omega, .inr rfl⟩] at returns
          cases returns
        obtain ⟨rest, ended, valid, emptied⟩ :=
          @receiveAll_spec _ _ fresh _ blocking intact.valid enabled few
        rw [ThreadHive.call, ended] at returns
        cases returns
        refine intact.receive rfl ended valid (by simp [received, emptied])
          (fun _ _ other => by cases other) ?_ stepped
        intro _ _ _ _ same
        cases same
        exact ⟨rfl, HiveQueueC.length_contents _, emptied⟩
      · cases returned

/-- In every run of sends and receives on a handle, every call delivers: what the
owner got so far is a prefix of what was pushed, and the rest still waits.  In
every state of a run a call returns unless it is a blocking receive and the queue
is empty, or a `receiveAll` that finds more messages than an `int` counts. -/
theorem mailbox_delivers (fresh : Nat → Nat → Message) (currentMsg : Message)
    (calls : List (Call Message)) :
    Along (step fresh) Delivered (start fresh currentMsg) calls ∧
      ∀ history, run (step fresh) (start fresh currentMsg) calls = some history → ∀ call,
        (history.hive.call fresh call = .waits ↔ history.hive.msgQueue.size = 0 ∧
          (call = .receiveMsg true ∨ call = .receiveAll true)) ∧
        (history.hive.call fresh call = .undefined ↔
          intMax < history.hive.msgQueue.size ∧ ∃ blocking, call = .receiveAll blocking) := by
  constructor
  · exact along_of_invariant Intact
      (fun _ call _ intact stepped => @Intact.step _ _ fresh _ _ call intact stepped)
      (intact_start fresh currentMsg) calls
  · intro history reached call
    have intact := run_invariant Intact
      (fun _ call _ holds stepped => (@Intact.step _ _ fresh _ _ call holds stepped).1)
      (intact_start fresh currentMsg) reached
    exact ⟨call_eq_waits_iff, call_eq_undefined_iff intact.valid⟩

/-- Two senders and an owner who waits for the last message. -/
theorem mailbox_delivers_three :
    Along (step fun _ _ => 9) Delivered (start (fun _ _ => 9) 0)
        [Call.sendMsg 1, .sendAll [2, 3], .receiveMsg true, .receiveAll true] ∧
      ∀ history, run (step fun _ _ => 9) (start (fun _ _ => 9) 0)
          [Call.sendMsg 1, .sendAll [2, 3], .receiveMsg true, .receiveAll true] = some history →
        ∀ call,
          (history.hive.call (fun _ _ => 9) call = .waits ↔ history.hive.msgQueue.size = 0 ∧
            (call = .receiveMsg true ∨ call = .receiveAll true)) ∧
          (history.hive.call (fun _ _ => 9) call = .undefined ↔
            intMax < history.hive.msgQueue.size ∧ ∃ blocking, call = .receiveAll blocking) :=
  mailbox_delivers (fun _ _ => 9) 0 _

theorem run_sendAll {count : Nat} (few : count + hqInitSize < 2 ^ 32) (msg : Message) :
    ∃ history, run (step fresh) (start fresh msg) [.sendAll (List.replicate count msg)] =
      some history ∧ history.Intact ∧ history.hive.msgQueue.size = count := by
  obtain ⟨history, stepped⟩ : ∃ history,
      (start fresh msg).step fresh (.sendAll (List.replicate count msg)) = some history := ⟨_, rfl⟩
  obtain ⟨intact, delivered⟩ := (intact_start fresh msg).step stepped
  refine ⟨history, by rw [run_cons, stepped]; rfl, intact, ?_⟩
  obtain ⟨-, contents, all⟩ := @send_all _ _ fresh (List.replicate count msg) false
    (start fresh msg).hive (intact_start fresh msg).valid
  have here : history.hive =
      (ThreadHive.sendAll fresh false (start fresh msg).hive (List.replicate count msg)).2 := by
    simp only [step, ThreadHive.call, Option.some.injEq] at stepped
    rw [← stepped]
  have length := congrArg List.length contents
  rw [← here, HiveQueueC.length_contents] at length
  rw [← here] at all
  rw [length, show (start fresh msg).hive.msgQueue.contents = [] from HiveQueueC.contents_new fresh,
    List.nil_append]
  have short : (accepted fresh (start fresh msg).hive (List.replicate count msg)).length ≤
      count := by
    have most (hive : ThreadHive Message) (messages : List Message) :
        (accepted fresh hive messages).length ≤ messages.length := by
      induction messages generalizing hive with
      | nil => exact le_rfl
      | cons first messages inductionHypothesis =>
          have later := inductionHypothesis (hive.sendMsg fresh first).2
          rw [accepted, List.length_append, List.length_cons]
          split <;> simp <;> omega
    simpa using most (start fresh msg).hive (List.replicate count msg)
  rcases all with all | long
  · rw [all, List.length_replicate]
  · rw [length, show (start fresh msg).hive.msgQueue.contents = [] from
      HiveQueueC.contents_new fresh, List.nil_append] at long
    omega

/-- When more messages wait than an `int` counts, `receiveAll` has no defined effect. -/
theorem receiveAll_overflows : ∃ (calls : List (Call Nat)) (history : History Nat),
    run (step fun _ _ => 9) (start (fun _ _ => 9) 7) calls = some history ∧
      history.hive.call (fun _ _ => 9) (.receiveAll true) = .undefined := by
  obtain ⟨history, reached, intact, size⟩ :=
    @run_sendAll Nat _ (fun _ _ => 9) (intMax + 1) (by rw [intMax, hqInitSize]; norm_num) 7
  exact ⟨_, history, reached, (call_eq_undefined_iff intact.valid).mpr ⟨by omega, true, rfl⟩⟩

end History

end OperationFrontLine.Mailbox
