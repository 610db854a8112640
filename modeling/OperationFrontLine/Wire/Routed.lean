import OperationFrontLine.Wire.Conversation

/-!
# Every request reaches its session

Whatever sessions come and go at whatever addresses, a worker hears what the scripts asked
its own session, and the scripts get what it answered.
-/

namespace OperationFrontLine.Wire

open OperationFrontLine.Library OperationFrontLine.Native

variable {Scalar Single : Type}

/-! ## The invariant -/

structure Talk.Addressed (pointers : PointerFormat) (talk : Talk Scalar) : Prop where
  handle : talk.handle =
    .array [.text (pointers.print talk.input), .text (pointers.print talk.output)]
  input : talk.input < 2 ^ 64
  output : talk.output < 2 ^ 64
  names : talk.names.Quotable
  ordinary : talk.names.outputName ∉ [cleanupOutputName, dllOutputName]
  asked : ∃ rejoin rest, talk.requests =
    .connect talk.names.inputName talk.names.outputName talk.names.actName rejoin :: rest
  login : ∀ login ∈ talk.login, login.1.uidName = talk.names.actName
  answered : ∀ answer ∈ talk.posted, answer ≠ []
  committed : talk.deleted = true → talk.committed = true

/-- The objects of a session hold what was said to its worker and what it answered; the
output object has a handle under its name. -/
structure Talk.Carried (numbers : ScriptNumbers Scalar) (extension : Extension Single)
    (talk : Talk Scalar) : Prop where
  input : ∃ thread requests, extension.inputThread talk.input = some thread ∧
    heard thread.messages = some requests ∧
    List.Forall₂ (Request.Means numbers) talk.requests requests
  output : ∃ thread, extension.outputThread talk.output = some thread ∧
    thread.threadName = talk.names.outputName ∧ talk.posted = talk.taken ++ thread.messages
  listed : talk.output ∈ extension.outputs

/-- Every session that is not deleted has objects and an output name of its own, and only
these sessions have handles. -/
structure Routed (pointers : PointerFormat) (numbers : ScriptNumbers Scalar)
    (extension : Extension Single) (talks : List (Talk Scalar)) : Prop where
  addressed : ∀ (index : ℕ) (talk : Talk Scalar), talks[index]? = some talk →
    talk.Addressed pointers
  carried : ∀ (index : ℕ) (talk : Talk Scalar), talks[index]? = some talk →
    talk.deleted = false → talk.Carried numbers extension
  distinct : ∀ (index other : ℕ) (first second : Talk Scalar), index ≠ other →
    talks[index]? = some first → talks[other]? = some second →
    first.deleted = false → second.deleted = false →
    first.input ≠ second.input ∧ first.output ≠ second.output ∧
      first.names.outputName ≠ second.names.outputName
  alive : ∀ pointer ∈ extension.outputs, ∃ (index : ℕ) (talk : Talk Scalar),
    talks[index]? = some talk ∧ talk.deleted = false ∧ talk.output = pointer

section Objects

variable {pointers : PointerFormat} {numbers : ScriptNumbers Scalar}
  {extension : Extension Single} {talks : List (Talk Scalar)} {talk : Talk Scalar} {index : ℕ}

theorem Talk.Carried.elsewhere (carried : talk.Carried numbers extension)
    {after : Extension Single}
    (inputs : after.inputThread talk.input = extension.inputThread talk.input)
    (outputs : after.outputThread talk.output = extension.outputThread talk.output)
    (listed : talk.output ∈ extension.outputs → talk.output ∈ after.outputs) :
    talk.Carried numbers after where
  input := by
    rw [inputs]
    exact carried.input
  output := by
    rw [outputs]
    exact carried.output
  listed := listed carried.listed

theorem Routed.set (routed : Routed pointers numbers extension talks)
    (after : Extension Single) (changed : Talk Scalar) (present : talks[index]? = some talk)
    (live : talk.deleted = false)
    (sameInput : changed.input = talk.input) (sameOutput : changed.output = talk.output)
    (sameNames : changed.names = talk.names) (addressed : changed.Addressed pointers)
    (inputs : ∀ pointer, pointer ≠ talk.input →
      after.inputThread pointer = extension.inputThread pointer)
    (outputs : ∀ pointer, pointer ≠ talk.output →
      after.outputThread pointer = extension.outputThread pointer)
    (listed : ∀ pointer, pointer ≠ talk.output →
      (pointer ∈ after.outputs ↔ pointer ∈ extension.outputs))
    (own : talk.output ∈ after.outputs → changed.deleted = false)
    (carried : changed.deleted = false → changed.Carried numbers after) :
    Routed pointers numbers after (talks.set index changed) := by
  have inside : index < talks.length := (List.getElem?_eq_some_iff.mp present).1
  have found (other : ℕ) (second : Talk Scalar)
      (at_other : (talks.set index changed)[other]? = some second) :
      (other = index ∧ second = changed) ∨ (other ≠ index ∧ talks[other]? = some second) := by
    by_cases same : other = index
    · subst same
      rw [List.getElem?_set_self inside, Option.some.injEq] at at_other
      exact .inl ⟨rfl, at_other.symm⟩
    · rw [List.getElem?_set_ne (Ne.symm same)] at at_other
      exact .inr ⟨same, at_other⟩
  constructor
  · intro other second at_other
    obtain ⟨-, rfl⟩ | ⟨-, before⟩ := found other second at_other
    · exact addressed
    · exact routed.addressed other second before
  · intro other second at_other secondLive
    obtain ⟨-, rfl⟩ | ⟨different, before⟩ := found other second at_other
    · exact carried secondLive
    · obtain ⟨input, output, -⟩ := routed.distinct other index second talk different before
        present secondLive live
      exact (routed.carried other second before secondLive).elsewhere
        (inputs _ input) (outputs _ output) (listed _ output).mpr
  · intro first second one two different at_first at_second firstLive secondLive
    obtain ⟨rfl, rfl⟩ | ⟨firstNe, beforeFirst⟩ := found first one at_first
    · obtain ⟨rfl, -⟩ | ⟨-, beforeSecond⟩ := found second two at_second
      · exact absurd rfl different
      · rw [sameInput, sameOutput, sameNames]
        exact routed.distinct first second talk two different present beforeSecond live secondLive
    · obtain ⟨rfl, rfl⟩ | ⟨-, beforeSecond⟩ := found second two at_second
      · rw [sameInput, sameOutput, sameNames]
        exact routed.distinct first second one talk different beforeFirst present firstLive live
      · exact routed.distinct first second one two different beforeFirst beforeSecond
          firstLive secondLive
  · intro pointer member
    by_cases here : pointer = talk.output
    · subst here
      exact ⟨index, changed, List.getElem?_set_self inside, own member, sameOutput⟩
    · obtain ⟨other, second, atOther, secondLive, same⟩ :=
        routed.alive pointer ((listed pointer here).mp member)
      have different : other ≠ index := by
        rintro rfl
        cases present.symm.trans atOther
        exact here same.symm
      exact ⟨other, second, (List.getElem?_set_ne different.symm).trans atOther, secondLive, same⟩

theorem Routed.append (routed : Routed pointers numbers extension talks)
    (after : Extension Single) (changed : Talk Scalar) (addressed : changed.Addressed pointers)
    (freeInput : extension.inputThread changed.input = none)
    (freeOutput : extension.outputThread changed.output = none)
    (freeName : ∀ talk ∈ talks, talk.deleted = false →
      talk.names.outputName ≠ changed.names.outputName)
    (live : changed.deleted = false)
    (inputs : ∀ pointer, pointer ≠ changed.input →
      after.inputThread pointer = extension.inputThread pointer)
    (outputs : ∀ pointer, pointer ≠ changed.output →
      after.outputThread pointer = extension.outputThread pointer)
    (listed : after.outputs = extension.outputs ++ [changed.output])
    (carried : changed.Carried numbers after) :
    Routed pointers numbers after (talks ++ [changed]) := by
  have apart (other : ℕ) (second : Talk Scalar) (before : talks[other]? = some second)
      (live : second.deleted = false) :
      second.input ≠ changed.input ∧ second.output ≠ changed.output ∧
        second.names.outputName ≠ changed.names.outputName := by
    obtain ⟨⟨input, -, atInput, -⟩, ⟨output, atOutput, -⟩, -⟩ :=
      routed.carried other second before live
    refine ⟨fun same => ?_, fun same => ?_, freeName second (List.mem_of_getElem? before) live⟩
    · rw [same, freeInput] at atInput
      cases atInput
    · rw [same, freeOutput] at atOutput
      cases atOutput
  have found (other : ℕ) (second : Talk Scalar)
      (at_other : (talks ++ [changed])[other]? = some second) :
      (other = talks.length ∧ second = changed) ∨ talks[other]? = some second := by
    rw [List.getElem?_append] at at_other
    split at at_other
    · exact .inr at_other
    · rw [List.getElem?_singleton] at at_other
      split at at_other
      · cases at_other
        exact .inl ⟨by omega, rfl⟩
      · cases at_other
  constructor
  · intro other second at_other
    obtain ⟨-, rfl⟩ | before := found other second at_other
    · exact addressed
    · exact routed.addressed other second before
  · intro other second at_other live
    obtain ⟨-, rfl⟩ | before := found other second at_other
    · exact carried
    · obtain ⟨input, output, -⟩ := apart other second before live
      exact (routed.carried other second before live).elsewhere (inputs _ input)
        (outputs _ output) fun member => by simp [listed, member]
  · intro first second one two different at_first at_second firstLive secondLive
    obtain ⟨rfl, rfl⟩ | beforeFirst := found first one at_first
    · obtain ⟨rfl, -⟩ | beforeSecond := found second two at_second
      · exact absurd rfl different
      · obtain ⟨input, output, name⟩ := apart second two beforeSecond secondLive
        exact ⟨input.symm, output.symm, name.symm⟩
    · obtain ⟨rfl, rfl⟩ | beforeSecond := found second two at_second
      · exact apart first one beforeFirst firstLive
      · exact routed.distinct first second one two different beforeFirst beforeSecond
          firstLive secondLive
  · intro pointer member
    rw [listed, List.mem_append, List.mem_singleton] at member
    rcases member with before | rfl
    · obtain ⟨other, second, atOther, secondLive, same⟩ := routed.alive pointer before
      have inside := (List.getElem?_eq_some_iff.mp atOther).1
      exact ⟨other, second, (List.getElem?_append_left inside).trans atOther, secondLive, same⟩
    · exact ⟨talks.length, changed, by simp, live, rfl⟩

theorem Routed.getThreadHandle (routed : Routed pointers numbers extension talks)
    (present : talks[index]? = some talk) (live : talk.deleted = false) :
    extension.getThreadHandle talk.names.outputName = some talk.output := by
  obtain ⟨-, ⟨thread, atOutput, name, -⟩, listed⟩ := routed.carried index talk present live
  unfold Extension.getThreadHandle
  cases found : extension.outputs.find? fun pointer =>
      (extension.outputThread pointer).any fun thread =>
        thread.threadName = talk.names.outputName with
  | none =>
      have absent := List.find?_eq_none.mp found talk.output listed
      simp [atOutput, name] at absent
  | some pointer =>
      obtain ⟨other, second, atOther, secondLive, rfl⟩ :=
        routed.alive pointer (List.mem_of_find?_eq_some found)
      obtain ⟨-, ⟨thread, atSecond, secondName, -⟩, -⟩ :=
        routed.carried other second atOther secondLive
      have same := List.find?_some found
      simp only [atSecond, Option.any_some, decide_eq_true_eq, secondName] at same
      by_cases here : other = index
      · subst here
        cases atOther.symm.trans present
        rfl
      · exact absurd same
          (routed.distinct other index second talk here atOther present secondLive live).2.2

theorem Talk.Carried.readNames (carried : talk.Carried numbers extension)
    (addressed : talk.Addressed pointers) :
    ∃ thread, extension.inputThread talk.input = some thread ∧
      Wire.readNames thread.messages = some talk.names := by
  obtain ⟨⟨thread, requests, found, hears, all⟩, -, -⟩ := carried
  obtain ⟨rejoin, rest, asked⟩ := addressed.asked
  rw [asked] at all
  cases all with
  | cons means _ =>
      cases means with
      | connect => exact ⟨thread, found, readNames_of_heard hears⟩

/-- A message with the address of a session's input object arrives there. -/
theorem Talk.Carried.publishData (carried : talk.Carried numbers extension)
    (asked : ∃ rejoin rest, talk.requests =
      .connect talk.names.inputName talk.names.outputName talk.names.actName rejoin :: rest)
    (message : ArmaMessage Single)
    (address : (message.data.at? 0).bind ArmaData.asAddress = some talk.input)
    (request : Request (ScriptValue Scalar)) (read : Request (ArmaData Single))
    (reads : readRequest message = some read) (means : request.Means numbers read)
    (committed : Bool) :
    ∃ inputThread, extension.publishData message =
        some { extension with inputThread := inputThread } ∧
      (∀ pointer, pointer ≠ talk.input →
        inputThread pointer = extension.inputThread pointer) ∧
      Talk.Carried numbers { extension with inputThread := inputThread }
        { talk with requests := talk.requests ++ [request], committed := committed } := by
  obtain ⟨⟨thread, requests, found, hears, all⟩, output, listed⟩ := carried
  have started : thread.messages ≠ [] := by
    intro none_sent
    rw [none_sent, heard, Option.some.injEq] at hears
    subst hears
    obtain ⟨rejoin, rest, isAsked⟩ := asked
    rw [List.forall₂_nil_right_iff.mp all] at isAsked
    cases isAsked
  refine ⟨Function.update extension.inputThread talk.input
    (some { thread with messages := thread.messages ++ [message] }), ?_, ?_, ?_⟩
  · simp [Extension.publishData, address, found]
  · intro pointer other
    exact Function.update_of_ne other _ _
  · exact {
      input := ⟨_, _, Function.update_self .., heard_append started hears reads,
        List.rel_append all (.cons means .nil)⟩
      output := output
      listed := listed }

end Objects

/-! ## The pairs of a `Commit` -/

def inputOf (talks : List (Talk Scalar)) (index : ℕ) : ℕ :=
  talks[index]?.elim 0 Talk.input

def outputOf (talks : List (Talk Scalar)) (index : ℕ) : ℕ :=
  talks[index]?.elim 0 Talk.output

section Pairs

variable (pointers : PointerFormat)

/-- What the scripts send for a session that they commit. -/
def pairValue (talks : List (Talk Scalar)) (pair : ℕ × Bool) : ScriptValue Scalar :=
  .array [.text (pointers.print (inputOf talks pair.1)),
    .text (pointers.print (outputOf talks pair.1)), .bool pair.2]

def pairData (talks : List (Talk Scalar)) (pair : ℕ × Bool) : ArmaData Single :=
  .array [.address (inputOf talks pair.1), .address (outputOf talks pair.1),
    .unsigned pair.2.toNat]

variable {pointers} {numbers : ScriptNumbers Scalar} {extension : Extension Single}
  {talks : List (Talk Scalar)}

theorem inputOf_set {index : ℕ} {talk changed : Talk Scalar}
    (present : talks[index]? = some talk) (same : changed.input = talk.input) :
    inputOf (talks.set index changed) = inputOf talks := by
  funext other
  by_cases here : other = index
  · subst here
    simp [inputOf, present, List.getElem?_set_self (List.getElem?_eq_some_iff.mp present).1, same]
  · simp [inputOf, List.getElem?_set_ne (Ne.symm here)]

theorem outputOf_set {index : ℕ} {talk changed : Talk Scalar}
    (present : talks[index]? = some talk) (same : changed.output = talk.output) :
    outputOf (talks.set index changed) = outputOf talks := by
  funext other
  by_cases here : other = index
  · subst here
    simp [outputOf, present, List.getElem?_set_self (List.getElem?_eq_some_iff.mp present).1, same]
  · simp [outputOf, List.getElem?_set_ne (Ne.symm here)]

theorem commitTalk_eq_set {pair : ℕ × Bool} {talk : Talk Scalar}
    (present : talks[pair.1]? = some talk) :
    Conversation.commitTalk talks pair = talks.set pair.1
      { talk with requests := talk.requests ++ [.commit pair.2], committed := true } := by
  apply List.ext_getElem?
  intro other
  have inside := (List.getElem?_eq_some_iff.mp present).1
  rw [Conversation.commitTalk, List.getElem?_modify]
  by_cases here : pair.1 = other
  · subst here
    simp [present, List.getElem?_set_self inside]
  · simp [here, List.getElem?_set_ne here]

theorem pairData_commitTalk {pair : ℕ × Bool} {talk : Talk Scalar}
    (present : talks[pair.1]? = some talk) :
    (pairData (Conversation.commitTalk talks pair) : ℕ × Bool → ArmaData Single) =
      pairData talks := by
  let changed : Talk Scalar :=
    { talk with requests := talk.requests ++ [.commit pair.2], committed := true }
  have input : inputOf (talks.set pair.1 changed) = inputOf talks := inputOf_set present rfl
  have output : outputOf (talks.set pair.1 changed) = outputOf talks := outputOf_set present rfl
  funext other
  rw [pairData, pairData, commitTalk_eq_set present, input, output]

theorem readRequest_pairData (pair : ℕ × Bool) :
    readRequest (⟨false, commitName, pairData talks pair⟩ : ArmaMessage Single) =
      some (.commit pair.2) := by
  obtain ⟨index, left⟩ := pair
  have other : commitName ∉ publishNames := by decide
  cases left <;> simp [readRequest, other, pairData, ArmaData.at?, ArmaData.asUnsigned]

theorem getElem?_commits (pairs : List (ℕ × Bool)) (talks : List (Talk Scalar)) (index : ℕ) :
    (pairs.foldl Conversation.commitTalk talks)[index]? = talks[index]?.map fun talk =>
      { talk with
        requests := talk.requests ++
          (pairs.filter (·.1 = index)).map fun pair => .commit pair.2
        committed := talk.committed || decide (index ∈ pairs.map Prod.fst) } := by
  induction pairs generalizing talks with
  | nil => simp
  | cons pair pairs inductionHypothesis =>
      rw [List.foldl_cons, inductionHypothesis, Conversation.commitTalk, List.getElem?_modify]
      by_cases here : pair.1 = index
      · cases talks[index]? <;> simp [here]
      · have other : index ≠ pair.1 := Ne.symm here
        cases talks[index]? <;> simp [here, other]

theorem inputOf_commits (pairs : List (ℕ × Bool)) (talks : List (Talk Scalar)) :
    inputOf (pairs.foldl Conversation.commitTalk talks) = inputOf talks := by
  funext index
  rw [inputOf, getElem?_commits, inputOf]
  cases talks[index]? <;> rfl

theorem outputOf_commits (pairs : List (ℕ × Bool)) (talks : List (Talk Scalar)) :
    outputOf (pairs.foldl Conversation.commitTalk talks) = outputOf talks := by
  funext index
  rw [outputOf, getElem?_commits, outputOf]
  cases talks[index]? <;> rfl

theorem mapM_handles (routed : Routed pointers numbers extension talks) {pairs : List (ℕ × Bool)}
    (present : ∀ pair ∈ pairs, ∃ talk, talks[pair.1]? = some talk ∧ talk.committed = false) :
    (pairs.mapM fun pair => (talks[pair.1]?).bind fun talk => talk.handle.withFlag pair.2) =
      some (pairs.map (pairValue pointers talks)) := by
  induction pairs with
  | nil => rfl
  | cons pair pairs inductionHypothesis =>
      obtain ⟨talk, found, -⟩ := present pair (by simp)
      have later := inductionHypothesis fun other member =>
        present other (List.mem_cons_of_mem _ member)
      have handle := (routed.addressed pair.1 talk found).handle
      rw [List.mapM_cons, later, found, Option.bind_some, handle]
      simp [ScriptValue.withFlag, pairValue, inputOf, outputOf, found]

theorem sends_pointer {pointer : ℕ} (high : pointer < 2 ^ 64) :
    Sends numbers (.text (pointers.print pointer)) (.address pointer : ArmaData Single) := by
  have sends : Sends numbers (.text (pointers.print pointer))
      (.address (extractHex (pointers.print pointer)) : ArmaData Single) :=
    .text (pointers.nonempty pointer) (pointers.digits pointer)
  rwa [pointers.extractHex_print high] at sends

theorem sends_pair {pair : ℕ × Bool} (input : inputOf talks pair.1 < 2 ^ 64)
    (output : outputOf talks pair.1 < 2 ^ 64) :
    Sends numbers (pairValue pointers talks pair) (pairData talks pair : ArmaData Single) := by
  let elements : List (ScriptValue Scalar × ArmaData Single) :=
    [(.text (pointers.print (inputOf talks pair.1)), .address (inputOf talks pair.1)),
      (.text (pointers.print (outputOf talks pair.1)), .address (outputOf talks pair.1)),
      (.bool pair.2, .unsigned pair.2.toNat)]
  have all : ∀ element ∈ elements, Sends numbers element.1 element.2 := by
    simp only [elements, List.forall_mem_cons, List.not_mem_nil, false_imp_iff, implies_true,
      and_true]
    exact ⟨sends_pointer input, sends_pointer output, .bool pair.2⟩
  exact .array (List.cons_ne_nil _ _) all

/-- Each worker of a `Commit` gets its own pair, whatever the other pairs are. -/
theorem foldlM_commitPair (routed : Routed pointers numbers extension talks)
    {pairs : List (ℕ × Bool)} (once : (pairs.map Prod.fst).Nodup)
    (present : ∀ pair ∈ pairs, ∃ talk, talks[pair.1]? = some talk ∧ talk.committed = false) :
    ∃ inputThread, (pairs.map (pairData talks)).foldlM Extension.commitPair extension =
        some { extension with inputThread := inputThread } ∧
      Routed pointers numbers { extension with inputThread := inputThread }
        (pairs.foldl Conversation.commitTalk talks) := by
  induction pairs generalizing extension talks with
  | nil => exact ⟨extension.inputThread, rfl, routed⟩
  | cons pair pairs inductionHypothesis =>
      obtain ⟨talk, found, openTalk⟩ := present pair (by simp)
      have addressed := routed.addressed pair.1 talk found
      have live : talk.deleted = false := by
        by_contra deleted
        simp [addressed.committed (by simpa using deleted)] at openTalk
      rw [List.map_cons, List.nodup_cons] at once
      obtain ⟨inputThread, published, elsewhere, carried⟩ :=
        (routed.carried pair.1 talk found live).publishData addressed.asked
          ⟨false, commitName, pairData talks pair⟩
          (by simp [pairData, ArmaData.at?, ArmaData.asAddress, inputOf, found])
          (.commit pair.2) (.commit pair.2) (readRequest_pairData pair) (.commit pair.2) true
      obtain ⟨rejoin, rest, asked⟩ := addressed.asked
      have moved := routed.set { extension with inputThread := inputThread }
        { talk with requests := talk.requests ++ [.commit pair.2], committed := true }
        found live rfl rfl rfl
        { addressed with
          asked := ⟨rejoin, rest ++ [.commit pair.2], by simp [asked]⟩
          committed := fun _ => rfl }
        elsewhere (fun _ _ => rfl) (fun _ _ => Iff.rfl) (fun _ => live) fun _ => carried
      rw [← commitTalk_eq_set found] at moved
      obtain ⟨final, folded, routedFinal⟩ := inductionHypothesis moved once.2 fun other member => by
        obtain ⟨second, secondFound, secondOpen⟩ := present other (List.mem_cons_of_mem _ member)
        have different : pair.1 ≠ other.1 := fun same =>
          once.1 (same ▸ List.mem_map_of_mem member)
        refine ⟨second, ?_, secondOpen⟩
        rw [commitTalk_eq_set found, List.getElem?_set_ne different, secondFound]
      rw [pairData_commitTalk found] at folded
      refine ⟨final, ?_, routedFinal⟩
      rw [List.map_cons, List.foldlM_cons, Extension.commitPair]
      simp only [pairData, ArmaData.asArray] at published ⊢
      simp only [Option.bind_some, published, Option.bind_eq_bind]
      exact folded

end Pairs

/-! ## One call -/

def objects (pair : ArmaData Single) : Option ℕ × Option ℕ :=
  ((pair.at? 0).bind ArmaData.asAddress, (pair.at? 1).bind ArmaData.asAddress)

namespace Conversation

/-- Every crash report was looked up or is still there. -/
def Reported (numbers : ScriptNumbers Scalar) (extension : Extension Single)
    (reported : List Loss) (looked : List (Text × Bool)) : Prop :=
  ∃ read pending, reported = read ++ pending ∧
    looked.map Prod.fst = read.map (Loss.lookup numbers) ∧
    extension.threadState = pending.map Loss.text ∧ ∀ loss ∈ pending, loss.Quotable

structure Sound (pointers : PointerFormat) (numbers : ScriptNumbers Scalar)
    (state : Conversation Scalar Single) : Prop where
  routed : Routed pointers numbers state.extension state.talks
  addresses : state.extension.cleanupThread.map objects = state.waiting.map fun index =>
    (some (inputOf state.talks index), some (outputOf state.talks index))
  waiting : ∀ index ∈ state.waiting, ∃ talk, state.talks[index]? = some talk ∧
    talk.committed = true ∧ talk.deleted = false
  once : state.waiting.Nodup
  reports : Reported numbers state.extension state.reported state.looked

variable {pointers : PointerFormat} {numbers : ScriptNumbers Scalar}
  {state : Conversation Scalar Single}

theorem sound_start : (start : Conversation Scalar Single).Sound pointers numbers where
  routed := ⟨by simp [start], by simp [start], by simp [start],
    by simp [start, Extension.start]⟩
  addresses := rfl
  waiting := by simp [start]
  once := .nil
  reports := ⟨[], [], rfl, rfl, rfl, by simp⟩

theorem Sound.live (sound : state.Sound pointers numbers) {index : ℕ} {talk : Talk Scalar}
    (present : state.talks[index]? = some talk) (openTalk : talk.committed = false) :
    talk.deleted = false := by
  by_contra deleted
  have committed := (sound.routed.addressed index talk present).committed (by simpa using deleted)
  simp [committed] at openTalk

/-- A change of one session that leaves its marks and the cleanup thread alone. -/
theorem Sound.set (sound : state.Sound pointers numbers) (extension : Extension Single)
    (changed : Talk Scalar) {reported : List Loss} {index : ℕ} {talk : Talk Scalar}
    (present : state.talks[index]? = some talk) (sameInput : changed.input = talk.input)
    (sameOutput : changed.output = talk.output) (sameMark : changed.committed = talk.committed)
    (alive : changed.deleted = talk.deleted)
    (sameCleanup : extension.cleanupThread = state.extension.cleanupThread)
    (reports : Reported numbers extension reported state.looked)
    (routed : Routed pointers numbers extension (state.talks.set index changed)) :
    Sound pointers numbers { state with
      extension := extension
      talks := state.talks.set index changed
      reported := reported } where
  routed := routed
  addresses := by
    have input := inputOf_set present sameInput
    have output := outputOf_set present sameOutput
    simp only [input, output, sameCleanup]
    exact sound.addresses
  waiting := by
    intro other member
    obtain ⟨second, found, committed, live⟩ := sound.waiting other member
    by_cases here : other = index
    · subst here
      cases found.symm.trans present
      exact ⟨changed, List.getElem?_set_self (List.getElem?_eq_some_iff.mp present).1,
        sameMark.trans committed, alive.trans live⟩
    · exact ⟨second, (List.getElem?_set_ne (Ne.symm here)).trans found, committed, live⟩
  once := sound.once
  reports := reports

section Calls

variable [DecidableEq Scalar] {floats : FloatFormat Single} {mktime : BrokenDownTime → ℤ}
  {surroundings : Surroundings}

/-- The extension gets the data that the argument of a call stands for. -/
theorem callExtension_eq (state : Conversation Scalar Single) {name : Text}
    (member : name ∈ functionNames) (elements : List (ScriptValue Scalar × ArmaData Single))
    (nonempty : elements ≠ []) (all : ∀ element ∈ elements, Sends numbers element.1 element.2) :
    state.callExtension pointers numbers floats mktime surroundings name
        (.array (elements.map Prod.fst)) =
      state.extension.dispatch pointers mktime surroundings
        (callText numbers name (.array (elements.map Prod.fst)))
        ⟨true, name, .array (elements.map Prod.snd)⟩ := by
  rw [callExtension, Extension.RVExtension,
    parse_callText floats (functionName_of_mem member) nonempty all]

theorem Sound.connect (sound : state.Sound pointers numbers)
    {inputName outputName actName : Text} {rejoin : Bool}
    (allowed : state.Allowed numbers surroundings (.connect inputName outputName actName rejoin)) :
    ∃ after, state.step pointers numbers floats mktime surroundings
        (.connect inputName outputName actName rejoin) = some after ∧
      after.Sound pointers numbers := by
  obtain ⟨input, output, act, highInput, highOutput, freeInput, freeOutput, ordinary, freeName⟩ :=
    allowed
  let elements : List (ScriptValue Scalar × ArmaData Single) :=
    [(.string inputName, .string inputName), (.string outputName, .string outputName),
      (.string actName, .string actName), (.bool rejoin, .unsigned rejoin.toNat)]
  have all : ∀ element ∈ elements, Sends numbers element.1 element.2 := by
    simp only [elements, List.forall_mem_cons, List.not_mem_nil, false_imp_iff, implies_true,
      and_true]
    exact ⟨input.sends, output.sends, act.sends, .bool rejoin⟩
  have called : state.callExtension pointers numbers floats mktime surroundings connectName
      (.array [.string inputName, .string outputName, .string actName, .bool rejoin]) = _ :=
    callExtension_eq state (by decide) elements (List.cons_ne_nil _ _) all
  rw [Extension.dispatch_connect _ _ _ _ _ rfl] at called
  simp only [elements, List.map_cons, List.map_nil] at called
  refine ⟨_, by
    simp only [step, called, Extension.connect, ArmaData.at?, ArmaData.asString,
      List.getElem?_cons_zero, List.getElem?_cons_succ, Option.bind_some, Option.bind_eq_bind,
      Option.pure_def, parse_handle numbers pointers]
    rfl, ?_⟩
  have fresh (index : ℕ) (member : index ∈ state.waiting) : index < state.talks.length := by
    obtain ⟨talk, found, -⟩ := sound.waiting index member
    exact (List.getElem?_eq_some_iff.mp found).1
  constructor
  · refine sound.routed.append _ _ ⟨rfl, highInput, highOutput, ⟨input, output, act⟩, ordinary,
      ⟨rejoin, [], rfl⟩, by simp, by simp, by simp⟩ freeInput freeOutput freeName rfl
      (fun pointer other => Function.update_of_ne other _ _)
      (fun pointer other => Function.update_of_ne other _ _) rfl ⟨?_, ?_, by simp⟩
    · refine ⟨_, [.connect inputName outputName actName rejoin], Function.update_self .., ?_,
        .cons (.connect ..) .nil⟩
      cases rejoin <;>
        simp [heard, readConnect, ArmaData.at?, ArmaData.asString, ArmaData.asUnsigned]
    · exact ⟨_, Function.update_self .., rfl, rfl⟩
  · simp only [sound.addresses]
    refine List.map_congr_left fun index member => ?_
    simp [inputOf, outputOf, List.getElem?_append_left (fresh index member)]
  · intro index member
    obtain ⟨talk, found, marks⟩ := sound.waiting index member
    exact ⟨talk, (List.getElem?_append_left (fresh index member)).trans found, marks⟩
  · exact sound.once
  · exact sound.reports

theorem Sound.publish (sound : state.Sound pointers numbers) {index : ℕ} {name : Text}
    {payload : ScriptValue Scalar}
    (allowed : state.Allowed numbers surroundings (.publish index name payload)) :
    ∃ after, state.step pointers numbers floats mktime surroundings
        (.publish index name payload) = some after ∧
      after.Sound pointers numbers := by
  obtain ⟨publish, ⟨data, sends⟩, talk, found, openTalk⟩ := allowed
  have addressed := sound.routed.addressed index talk found
  have live := sound.live found openTalk
  have member : name ∈ functionNames := List.mem_append_right _ publish
  let elements : List (ScriptValue Scalar × ArmaData Single) :=
    [(.text (pointers.print talk.input), .address talk.input), (payload, data)]
  have all : ∀ element ∈ elements, Sends numbers element.1 element.2 := by
    simp only [elements, List.forall_mem_cons, List.not_mem_nil, false_imp_iff, implies_true,
      and_true]
    exact ⟨sends_pointer addressed.input, sends⟩
  have called : state.callExtension pointers numbers floats mktime surroundings name
      (.array [.text (pointers.print talk.input), payload]) = _ :=
    callExtension_eq state member elements (List.cons_ne_nil _ _) all
  obtain ⟨inputThread, published, elsewhere, carried⟩ :=
    (sound.routed.carried index talk found live).publishData addressed.asked
      ⟨true, name, .array [.address talk.input, data]⟩ rfl (.publish name payload)
      (.publish name data) (by simp [readRequest, publish, ArmaData.at?]) (.publish name sends)
      talk.committed
  rw [Extension.dispatch_publish _ _ _ _ _ publish] at called
  simp only [elements, List.map_cons, List.map_nil, published] at called
  have select : talk.handle.select 0 = some (.text (pointers.print talk.input)) := by
    rw [addressed.handle]
    rfl
  refine ⟨_, by
    simp only [step, found, Option.bind_some, Option.bind_eq_bind, select, called,
      Option.map_some, Option.pure_def]
    rfl, ?_⟩
  obtain ⟨rejoin, rest, asked⟩ := addressed.asked
  exact sound.set { state.extension with inputThread := inputThread }
    { talk with requests := talk.requests ++ [.publish name payload] }
    found rfl rfl rfl rfl rfl sound.reports (sound.routed.set _ _ found live rfl rfl rfl
      { addressed with asked := ⟨rejoin, rest ++ [.publish name payload], by simp [asked]⟩ }
      elsewhere (fun _ _ => rfl) (fun _ _ => Iff.rfl) (fun _ => live) fun _ => carried)

theorem Sound.getOutput (sound : state.Sound pointers numbers) {index : ℕ}
    (allowed : state.Allowed numbers surroundings (.getOutput index)) :
    ∃ after, state.step pointers numbers floats mktime surroundings
        (.getOutput index) = some after ∧
      after.Sound pointers numbers := by
  obtain ⟨talk, found, openTalk⟩ := allowed
  have addressed := sound.routed.addressed index talk found
  have live := sound.live found openTalk
  let elements : List (ScriptValue Scalar × ArmaData Single) :=
    [(.text (pointers.print talk.output), .address talk.output)]
  have all : ∀ element ∈ elements, Sends numbers element.1 element.2 := by
    intro element member
    rw [List.mem_singleton.mp member]
    exact sends_pointer addressed.output
  have called : state.callExtension pointers numbers floats mktime surroundings getOutputName
      (.array [.text (pointers.print talk.output)]) = _ :=
    callExtension_eq state (by decide) elements (List.cons_ne_nil _ _) all
  rw [Extension.dispatch_getOutput _ _ _ _ _ rfl] at called
  obtain ⟨inputs, ⟨thread, atOutput, name, posted⟩, listed⟩ :=
    sound.routed.carried index talk found live
  have select : talk.handle.select 1 = some (.text (pointers.print talk.output)) := by
    rw [addressed.handle]
    rfl
  cases waits : thread.messages with
  | nil =>
      have got : state.extension.getOutput
          ⟨true, getOutputName, .array (elements.map Prod.snd)⟩ = some (state.extension, []) := by
        simp [elements, Extension.getOutput, ArmaData.at?, ArmaData.asAddress, atOutput, waits]
      rw [got] at called
      refine ⟨_, by
        simp only [step, found, Option.bind_some, Option.bind_eq_bind, select, called, if_true,
          Option.pure_def]
        rfl, ?_⟩
      exact sound.set state.extension talk found rfl rfl rfl rfl rfl sound.reports
        (sound.routed.set _ _ found live rfl rfl rfl addressed (fun _ _ => rfl) (fun _ _ => rfl)
          (fun _ _ => Iff.rfl) (fun _ => live)
          fun _ => ⟨inputs, ⟨thread, atOutput, name, posted⟩, listed⟩)
  | cons out messages =>
      have got : state.extension.getOutput
          ⟨true, getOutputName, .array (elements.map Prod.snd)⟩ = some ({ state.extension with
            outputThread := Function.update state.extension.outputThread talk.output
              (some { thread with messages := messages }) }, out) := by
        simp [elements, Extension.getOutput, ArmaData.at?, ArmaData.asAddress, atOutput, waits]
      rw [got] at called
      refine ⟨_, by
        simp only [step, found, Option.bind_some, Option.bind_eq_bind, select, called,
          Option.pure_def]
        rfl, ?_⟩
      have taken : talk.posted = (if out = [] then talk.taken else talk.taken ++ [out]) ++
          messages := by
        rw [if_neg (addressed.answered out (by simp [posted, waits])), posted, waits]
        simp
      exact sound.set { state.extension with
          outputThread := Function.update state.extension.outputThread talk.output
            (some { thread with messages := messages }) }
        { talk with taken := if out = [] then talk.taken else talk.taken ++ [out] }
        found rfl rfl rfl rfl rfl sound.reports (sound.routed.set _ _ found live rfl rfl rfl
          { addressed with } (fun _ _ => rfl)
          (fun pointer other => Function.update_of_ne other _ _) (fun _ _ => Iff.rfl)
          (fun _ => live) fun _ => ⟨inputs, ⟨_, Function.update_self .., name, taken⟩, listed⟩)

theorem Sound.reply (sound : state.Sound pointers numbers) {index : ℕ}
    {statistics : Statistics} {administration : Ban.Account} {isBanned : Bool}
    (allowed : state.Allowed numbers surroundings
      (.reply index statistics administration isBanned)) :
    ∃ after, state.step pointers numbers floats mktime surroundings
        (.reply index statistics administration isBanned) = some after ∧
      after.Sound pointers numbers := by
  obtain ⟨⟨talk, found, -, live⟩, first⟩ := allowed
  have addressed := sound.routed.addressed index talk found
  have carried := sound.routed.carried index talk found live
  obtain ⟨inputThread, atInput, reads⟩ := carried.readNames addressed
  obtain ⟨inputs, ⟨thread, atOutput, name, posted⟩, listed⟩ := carried
  let row : AccountRow := ⟨talk.names.actName, statistics, administration⟩
  let out := streamOf talk.login ++ row.reply isBanned
  have ordinary := addressed.ordinary
  simp only [List.mem_cons, List.not_mem_nil, or_false, not_or] at ordinary
  have sent : state.extension.sendMsg talk.names.outputName out = some { state.extension with
      outputThread := Function.update state.extension.outputThread talk.output
        (some { thread with messages := thread.messages ++ [out] }) } := by
    simp [Extension.sendMsg, ordinary, sound.routed.getThreadHandle found live, atOutput]
  refine ⟨_, by
    simp only [step, found, Option.bind_some, Option.bind_eq_bind, atInput, reads, out, row]
      at sent ⊢
    rw [sent]
    rfl, ?_⟩
  have answered : ∀ answer ∈ talk.posted ++ [out], answer ≠ [] := by
    intro answer member
    rcases List.mem_append.mp member with before | last
    · exact addressed.answered answer before
    · rw [List.mem_singleton.mp last]
      simp [out, AccountRow.reply]
  have login : ∀ login ∈ some (row, isBanned), login.1.uidName = talk.names.actName := by
    rintro login ⟨rfl⟩
    rfl
  exact sound.set _ { talk with login := some (row, isBanned), posted := talk.posted ++ [out] }
    found rfl rfl rfl rfl rfl sound.reports (sound.routed.set _ _ found live rfl rfl rfl
      { addressed with answered := answered, login := login } (fun _ _ => rfl)
      (fun pointer other => Function.update_of_ne other _ _) (fun _ _ => Iff.rfl)
      (fun _ => live) fun _ =>
        ⟨inputs, ⟨_, Function.update_self .., name, by simp [posted, out, row]⟩, listed⟩)

theorem Sound.report (sound : state.Sound pointers numbers) {index : ℕ}
    (allowed : state.Allowed numbers surroundings (.report index)) :
    ∃ after, state.step pointers numbers floats mktime surroundings (.report index) =
        some after ∧ after.Sound pointers numbers := by
  obtain ⟨talk, found, -, live⟩ := allowed
  have addressed := sound.routed.addressed index talk found
  have carried := sound.routed.carried index talk found live
  obtain ⟨inputThread, atInput, reads⟩ := carried.readNames addressed
  obtain ⟨inputs, outputs, listed⟩ := carried
  let loss : Loss := ⟨talk.names, talk.login⟩
  have quotable : loss.Quotable := by
    refine ⟨addressed.names, fun login isLogin => ?_⟩
    rw [addressed.login login isLogin]
    exact addressed.names.actName.noUnit
  refine ⟨_, by
    simp only [step, found, Option.bind_some, Option.bind_eq_bind, atInput, reads,
      Extension.sendMsg, if_true, Option.pure_def]
    rfl, ?_⟩
  obtain ⟨read, pending, reported, looked, threadState, quotables⟩ := sound.reports
  have reports : Reported numbers { state.extension with
      threadState := state.extension.threadState ++ [loss.text] } (state.reported ++ [loss])
      state.looked := by
    refine ⟨read, pending ++ [loss], by simp [reported], looked, by simp [threadState], ?_⟩
    intro other member
    rcases List.mem_append.mp member with before | last
    · exact quotables other before
    · rw [List.mem_singleton.mp last]
      exact quotable
  exact sound.set _ { talk with lost := true } found rfl rfl rfl rfl rfl reports
    (sound.routed.set _ _ found live rfl rfl rfl { addressed with } (fun _ _ => rfl)
      (fun _ _ => rfl) (fun _ _ => Iff.rfl) (fun _ => live) fun _ => ⟨inputs, outputs, listed⟩)

theorem Sound.commit (sound : state.Sound pointers numbers) {pairs : List (ℕ × Bool)}
    (allowed : state.Allowed numbers surroundings (.commit pairs)) :
    ∃ after, state.step pointers numbers floats mktime surroundings (.commit pairs) = some after ∧
      after.Sound pointers numbers := by
  obtain ⟨some_pair, once, opened⟩ := allowed
  have handles : state.commitArguments pairs =
      some (pairs.map (pairValue pointers state.talks)) := mapM_handles sound.routed opened
  obtain ⟨inputThread, folded, routed⟩ := foldlM_commitPair sound.routed once opened
  let elements : List (ScriptValue Scalar × ArmaData Single) :=
    pairs.map fun pair => (pairValue pointers state.talks pair, pairData state.talks pair)
  have all : ∀ element ∈ elements, Sends numbers element.1 element.2 := by
    intro element member
    obtain ⟨pair, present, rfl⟩ := List.mem_map.mp member
    obtain ⟨talk, found, -⟩ := opened pair present
    have addressed := sound.routed.addressed pair.1 talk found
    exact sends_pair (by simpa [inputOf, found] using addressed.input)
      (by simpa [outputOf, found] using addressed.output)
  have called : state.callExtension pointers numbers floats mktime surroundings commitName
      (.array (elements.map Prod.fst)) = _ :=
    callExtension_eq state (by decide) elements (by simpa [elements] using some_pair) all
  have values : elements.map Prod.fst = pairs.map (pairValue pointers state.talks) := by
    simp [elements]
  have datas : elements.map Prod.snd = pairs.map (pairData state.talks) := by
    simp [elements]
  rw [Extension.dispatch_commit _ _ _ _ _ rfl, values, datas] at called
  simp only [Extension.commit, ArmaData.asArray, Option.bind_eq_bind, Option.bind_some, folded,
    Option.pure_def, Option.map_some] at called
  refine ⟨_, by
    simp only [step, handles, Option.bind_some, Option.bind_eq_bind, called, Option.pure_def]
    rfl, ?_⟩
  constructor
  · exact ⟨routed.addressed, fun index talk found live =>
      (routed.carried index talk found live).elsewhere rfl rfl id, routed.distinct, routed.alive⟩
  · simp only [List.map_append, sound.addresses, inputOf_commits, outputOf_commits]
    simp [objects, pairData, ArmaData.at?, ArmaData.asAddress, Function.comp_def]
  · intro index member
    rcases List.mem_append.mp member with before | now
    · obtain ⟨talk, found, committed, live⟩ := sound.waiting index before
      have after := getElem?_commits pairs state.talks index
      rw [found, Option.map_some] at after
      exact ⟨_, after, by simp [committed], live⟩
    · obtain ⟨pair, present, rfl⟩ := List.mem_map.mp now
      obtain ⟨talk, found, openTalk⟩ := opened pair present
      have live := sound.live found openTalk
      have after := getElem?_commits pairs state.talks pair.1
      rw [found, Option.map_some] at after
      exact ⟨_, after, by simp only [decide_eq_true now, Bool.or_true], live⟩
  · refine List.nodup_append.mpr ⟨sound.once, once, fun index before other now same => ?_⟩
    subst same
    obtain ⟨talk, found, committed, -⟩ := sound.waiting index before
    obtain ⟨pair, present, rfl⟩ := List.mem_map.mp now
    obtain ⟨second, foundToo, openTalk⟩ := opened pair present
    cases found.symm.trans foundToo
    simp [committed] at openTalk
  · exact sound.reports

theorem Sound.getState (sound : state.Sound pointers numbers) (connected : Text → Bool) :
    ∃ after, state.step pointers numbers floats mktime surroundings (.getState connected) =
        some after ∧ after.Sound pointers numbers := by
  obtain ⟨read, pending, reported, looked, threadState, quotable⟩ := sound.reports
  have called : state.callExtension pointers numbers floats mktime surroundings getStateName
      (.string []) = some state.extension.getState := by
    rw [callExtension, Extension.RVExtension,
      parse_callText_empty floats (functionName_of_mem (by decide))]
    exact Extension.dispatch_getState _ _ _ _ _ rfl
  refine ⟨_, by
    simp only [step, called, Extension.getState, threadState, Option.bind_some,
      Option.bind_eq_bind, parse_reports numbers quotable, lookups_reports, Option.pure_def]
    rfl, ?_⟩
  exact {
    routed := ⟨sound.routed.addressed, fun index talk found live =>
      (sound.routed.carried index talk found live).elsewhere rfl rfl id, sound.routed.distinct,
      sound.routed.alive⟩
    addresses := sound.addresses
    waiting := sound.waiting
    once := sound.once
    reports := ⟨read ++ pending, [], by simp [reported],
      by simp [looked, Function.comp_def], rfl, by simp⟩ }

theorem Sound.cleanUp (sound : state.Sound pointers numbers)
    (allowed : state.Allowed numbers surroundings .cleanUp) :
    ∃ after, state.step pointers numbers floats mktime surroundings .cleanUp = some after ∧
      after.Sound pointers numbers := by
  obtain ⟨index, waiting, waits⟩ := List.exists_cons_of_ne_nil allowed
  obtain ⟨talk, found, committed, live⟩ := sound.waiting index (by simp [waits])
  have addressed := sound.routed.addressed index talk found
  obtain ⟨⟨input, requests, atInput, -⟩, ⟨output, atOutput, -⟩, -⟩ :=
    sound.routed.carried index talk found live
  obtain ⟨pair, pairs, cleanup⟩ : ∃ pair pairs, state.extension.cleanupThread = pair :: pairs := by
    refine List.exists_cons_of_ne_nil fun none_left => ?_
    have lengths := congrArg List.length sound.addresses
    simp [none_left, waits] at lengths
  have addresses := sound.addresses
  simp only [cleanup, waits, List.map_cons, List.cons.injEq] at addresses
  obtain ⟨first, rest⟩ := addresses
  simp only [objects, Prod.mk.injEq, inputOf, outputOf, found, Option.elim_some] at first
  have cleaned : state.extension.cleanUp = some { state.extension with
      inputThread := Function.update state.extension.inputThread talk.input none
      outputThread := Function.update state.extension.outputThread talk.output none
      outputs := state.extension.outputs.filter (· ≠ talk.output)
      cleanupThread := pairs } := by
    simp [Extension.cleanUp, cleanup, first, atInput, atOutput]
  refine ⟨_, by
    simp only [step, waits, List.head?_cons, Option.bind_some, Option.bind_eq_bind, found,
      cleaned, Option.pure_def, List.tail_cons]
    rfl, ?_⟩
  have once := sound.once
  rw [waits, List.nodup_cons] at once
  constructor
  · exact sound.routed.set _ { talk with deleted := true } found live rfl rfl rfl
      { addressed with committed := fun _ => committed }
      (fun pointer other => Function.update_of_ne other _ _)
      (fun pointer other => Function.update_of_ne other _ _)
      (fun pointer other => by simp [other]) (by simp) (by simp)
  · have sameInput : inputOf (state.talks.set index { talk with deleted := true }) =
        inputOf state.talks := inputOf_set found rfl
    have sameOutput : outputOf (state.talks.set index { talk with deleted := true }) =
        outputOf state.talks := outputOf_set found rfl
    simpa only [sameInput, sameOutput] using rest
  · intro other member
    obtain ⟨second, secondFound, marks⟩ := sound.waiting other (by simp [waits, member])
    have different : index ≠ other := fun same => once.1 (same ▸ member)
    exact ⟨second, (List.getElem?_set_ne different).trans secondFound, marks⟩
  · exact once.2
  · exact sound.reports

theorem Sound.step (sound : state.Sound pointers numbers) {call : Call Scalar}
    (allowed : state.Allowed numbers surroundings call) :
    ∃ after, state.step pointers numbers floats mktime surroundings call = some after ∧
      after.Sound pointers numbers := by
  cases call with
  | connect => exact sound.connect allowed
  | publish => exact sound.publish allowed
  | getOutput => exact sound.getOutput allowed
  | commit => exact sound.commit allowed
  | getState connected => exact sound.getState connected
  | reply => exact sound.reply allowed
  | report => exact sound.report allowed
  | cleanUp => exact sound.cleanUp allowed

theorem Reached.sound (reached : state.Reached pointers numbers floats mktime) :
    state.Sound pointers numbers := by
  induction reached with
  | start => exact sound_start
  | call reached allowed stepped inductionHypothesis =>
      obtain ⟨after, isAfter, sound⟩ := inductionHypothesis.step allowed
      cases stepped.symm.trans isAfter
      exact sound

end Calls

/-! ## A session -/

def wholeFloats : FloatFormat ℤ := ⟨stoll, fun _ => printInteger⟩

def player : Text := "76561198000000000".toList

def connected : Conversation ℤ ℤ :=
  (start.step paddedPointers wholeNumbers wholeFloats BrokenDownTime.seconds ⟨160, 164, 0⟩
    (.connect "2".toList "1".toList player false)).get (by decide +kernel)

def published : Conversation ℤ ℤ :=
  (connected.step paddedPointers wholeNumbers wholeFloats BrokenDownTime.seconds ⟨0, 0, 0⟩
    (.publish 0 publishAccountName (.array [.string player, .scalar 3, .scalar 250]))).get
      (by decide +kernel)

end Conversation

end OperationFrontLine.Wire
