import OperationFrontLine.Wire.Dispatch

/-!
# The conversation of the scripts with the extension

The scripts keep what `Connect` replied and send it back with every later call of the
session; the extension takes it for the addresses of its objects.  The objects of a session
are deleted after its `Commit`, and the allocator may give their addresses to a later one.
A worker writes all it posts into one stream, which it never clears: a crash report stands
behind the reply to the login, if there was one.
-/

namespace OperationFrontLine.Wire

open OperationFrontLine.Library OperationFrontLine.Native

variable {Scalar Single Payload : Type}

inductive Request (Payload : Type) where
  | connect (inputName outputName actName : Text) (rejoin : Bool)
  | publish (name : Text) (payload : Payload)
  | commit (left : Bool)

def readConnect (message : ArmaMessage Single) : Option (Request (ArmaData Single)) := do
  let inputName ← (message.data.at? 0).bind ArmaData.asString
  let outputName ← (message.data.at? 1).bind ArmaData.asString
  let actName ← (message.data.at? 2).bind ArmaData.asString
  let rejoin ← (message.data.at? 3).bind ArmaData.asUnsigned
  return .connect inputName outputName actName (rejoin ≠ 0)

/-- `mycallback` reads a later one: what is no publication is a `Commit`. -/
def readRequest (message : ArmaMessage Single) : Option (Request (ArmaData Single)) :=
  if message.name ∈ publishNames then
    (message.data.at? 1).map (.publish message.name)
  else
    ((message.data.at? 2).bind ArmaData.asUnsigned).map fun left => .commit (left ≠ 0)

/-- The names that `mycallback` takes from its first message. -/
structure Names where
  inputName : Text
  outputName : Text
  actName : Text

def readNames (messages : List (ArmaMessage Single)) : Option Names := do
  let first ← messages.head?
  match ← readConnect first with
  | .connect inputName outputName actName _ => return ⟨inputName, outputName, actName⟩
  | _ => none

def heard : List (ArmaMessage Single) → Option (List (Request (ArmaData Single)))
  | [] => some []
  | first :: rest => do
      let connect ← readConnect first
      let requests ← rest.mapM readRequest
      return connect :: requests

inductive Request.Means (numbers : ScriptNumbers Scalar) :
    Request (ScriptValue Scalar) → Request (ArmaData Single) → Prop where
  | connect (inputName outputName actName : Text) (rejoin : Bool) :
      Means numbers (.connect inputName outputName actName rejoin)
        (.connect inputName outputName actName rejoin)
  | publish (name : Text) {payload : ScriptValue Scalar} {data : ArmaData Single}
      (sends : Sends numbers payload data) :
      Means numbers (.publish name payload) (.publish name data)
  | commit (left : Bool) : Means numbers (.commit left) (.commit left)

/-- `$`, and the text between two units -/
def quoted (value : Text) : Text := adString :: adUnit :: (value ++ [adUnit])

/-- What a worker writes when its connection is lost. -/
def Names.text (names : Names) : Text :=
  arrayText [quoted names.inputName, quoted names.outputName, quoted names.actName]

/-- A text that is a string of the format everywhere. -/
structure Quotable (value : Text) : Prop where
  nonempty : value ≠ []
  noUnit : adUnit ∉ value
  noArray : adArray ∉ value

theorem Quotable.sends {numbers : ScriptNumbers Scalar} {value : Text}
    (quotable : Quotable value) :
    Sends numbers (.string value) (.string value : ArmaData Single) :=
  .string quotable.nonempty quotable.noUnit quotable.noArray

structure Names.Quotable (names : Names) : Prop where
  inputName : Wire.Quotable names.inputName
  outputName : Wire.Quotable names.outputName
  actName : Wire.Quotable names.actName

/-- The reply to a login, with whether the player is banned. -/
abbrev Login := AccountRow × Bool

/-- The stream of a worker behind a login, or without one. -/
def streamOf (login : Option Login) : Text :=
  login.elim [] fun login => login.1.reply login.2

/-- A lost connection: the names that the worker had read, and its login. -/
structure Loss where
  names : Names
  login : Option Login

def Loss.text (loss : Loss) : Text := streamOf loss.login ++ loss.names.text

namespace ScriptValue

/-- `select` on an array -/
def select (value : ScriptValue Scalar) (index : ℕ) : Option (ScriptValue Scalar) :=
  match value with
  | .array elements => elements[index]?
  | _ => none

/-- `format ["%1", value]`, for strings and numbers -/
def print (numbers : ScriptNumbers Scalar) : ScriptValue Scalar → Option Text
  | .string value => some value
  | .scalar value => some (numbers.format value)
  | _ => none

/-- The UIDs that `RankMain` looks up: `_x select 2` of everything in the reply. -/
def lookups (numbers : ScriptNumbers Scalar) : ScriptValue Scalar → Option (List Text)
  | .array reports => reports.mapM fun report => (report.select 2).bind (print numbers)
  | _ => none

/-- `_handle + [left]` -/
def withFlag (handle : ScriptValue Scalar) (left : Bool) : Option (ScriptValue Scalar) :=
  match handle with
  | .array elements => some (.array (elements ++ [.bool left]))
  | _ => none

end ScriptValue

/-- A session: the handle that the scripts keep and the addresses of its objects, the names
and requests that the scripts gave it, how its worker logged in and whether its connection was
lost, what it posted and what the scripts have got of that. -/
structure Talk (Scalar : Type) where
  handle : ScriptValue Scalar
  input : ℕ
  output : ℕ
  names : Names
  requests : List (Request (ScriptValue Scalar))
  login : Option Login
  lost : Bool
  posted : List Text
  taken : List Text
  committed : Bool
  deleted : Bool

/-- The extension, the sessions in order of their `Connect` calls, those that wait to be
deleted, the crash reports so far, and the UIDs that the scripts looked up for them, each with
whether it was that of a client, who was kicked then. -/
structure Conversation (Scalar Single : Type) where
  extension : Extension Single
  talks : List (Talk Scalar)
  waiting : List ℕ
  reported : List Loss
  looked : List (Text × Bool)

/-- A call of the scripts, or what a thread of the extension does by itself. -/
inductive Call (Scalar : Type) where
  | connect (inputName outputName actName : Text) (rejoin : Bool)
  | publish (talk : ℕ) (name : Text) (payload : ScriptValue Scalar)
  | getOutput (talk : ℕ)
  | commit (pairs : List (ℕ × Bool))
  /-- with the UIDs of the clients -/
  | getState (connected : Text → Bool)
  | reply (talk : ℕ) (statistics : Statistics) (administration : Ban.Account) (isBanned : Bool)
  | report (talk : ℕ)
  | cleanUp

namespace Conversation

def start : Conversation Scalar Single where
  extension := .start
  talks := []
  waiting := []
  reported := []
  looked := []

/-- The marks that a `Commit` leaves on its sessions. -/
def commitTalk (talks : List (Talk Scalar)) (pair : ℕ × Bool) : List (Talk Scalar) :=
  talks.modify pair.1 fun talk =>
    { talk with requests := talk.requests ++ [.commit pair.2], committed := true }

section Step

variable [DecidableEq Scalar] (pointers : PointerFormat) (numbers : ScriptNumbers Scalar)
  (floats : FloatFormat Single) (mktime : BrokenDownTime → ℤ)

/-- `[_, name, argument] call PCS_CallExtension`, up to the text of the reply -/
def callExtension (state : Conversation Scalar Single) (surroundings : Surroundings)
    (name : Text) (argument : ScriptValue Scalar) : Option (Extension Single × Text) :=
  state.extension.RVExtension pointers floats mktime surroundings
    (callText numbers name argument)

def commitArguments (state : Conversation Scalar Single) (pairs : List (ℕ × Bool)) :
    Option (List (ScriptValue Scalar)) :=
  pairs.mapM fun pair => (state.talks[pair.1]?).bind fun talk => talk.handle.withFlag pair.2

/-- One call; `none` where it is undefined. -/
def step (state : Conversation Scalar Single) (surroundings : Surroundings) :
    Call Scalar → Option (Conversation Scalar Single)
  | .connect inputName outputName actName rejoin => do
      let (extension, reply) ← state.callExtension pointers numbers floats mktime surroundings
        connectName (.array [.string inputName, .string outputName, .string actName, .bool rejoin])
      let handle ← ScriptValue.parseArmaData numbers reply
      return { state with
        extension := extension
        talks := state.talks ++ [{
          handle := handle
          input := surroundings.newInput
          output := surroundings.newOutput
          names := ⟨inputName, outputName, actName⟩
          requests := [.connect inputName outputName actName rejoin]
          login := none
          lost := false
          posted := []
          taken := []
          committed := false
          deleted := false }] }
  | .publish index name payload => do
      let talk ← state.talks[index]?
      let input ← talk.handle.select 0
      let (extension, _) ← state.callExtension pointers numbers floats mktime surroundings
        name (.array [input, payload])
      return { state with
        extension := extension
        talks := state.talks.set index
          { talk with requests := talk.requests ++ [.publish name payload] } }
  | .getOutput index => do
      let talk ← state.talks[index]?
      let output ← talk.handle.select 1
      let (extension, out) ← state.callExtension pointers numbers floats mktime surroundings
        getOutputName (.array [output])
      return { state with
        extension := extension
        talks := state.talks.set index
          { talk with taken := if out = [] then talk.taken else talk.taken ++ [out] } }
  | .commit pairs => do
      let handles ← state.commitArguments pairs
      let (extension, _) ← state.callExtension pointers numbers floats mktime surroundings
        commitName (.array handles)
      return { state with
        extension := extension
        talks := pairs.foldl commitTalk state.talks
        waiting := state.waiting ++ pairs.map Prod.fst }
  | .getState connected => do
      let (extension, out) ← state.callExtension pointers numbers floats mktime surroundings
        getStateName (.string [])
      let states ← ScriptValue.parseArmaData numbers out
      let lookups ← states.lookups numbers
      return { state with
        extension := extension
        looked := state.looked ++ lookups.map fun uid => (uid, connected uid) }
  | .reply index statistics administration isBanned => do
      let talk ← state.talks[index]?
      let thread ← state.extension.inputThread talk.input
      let names ← readNames thread.messages
      let row : AccountRow := ⟨names.actName, statistics, administration⟩
      let out := streamOf talk.login ++ row.reply isBanned
      let extension ← state.extension.sendMsg names.outputName out
      return { state with
        extension := extension
        talks := state.talks.set index
          { talk with login := some (row, isBanned), posted := talk.posted ++ [out] } }
  | .report index => do
      let talk ← state.talks[index]?
      let thread ← state.extension.inputThread talk.input
      let names ← readNames thread.messages
      let loss : Loss := ⟨names, talk.login⟩
      let extension ← state.extension.sendMsg cleanupOutputName loss.text
      return { state with
        extension := extension
        talks := state.talks.set index { talk with lost := true }
        reported := state.reported ++ [loss] }
  | .cleanUp => do
      let index ← state.waiting.head?
      let talk ← state.talks[index]?
      let extension ← state.extension.cleanUp
      return { state with
        extension := extension
        talks := state.talks.set index { talk with deleted := true }
        waiting := state.waiting.tail }

def kicked (state : Conversation Scalar Single) : List Text :=
  (state.looked.filter Prod.snd).map Prod.fst

def Open (state : Conversation Scalar Single) (index : ℕ) : Prop :=
  ∃ talk, state.talks[index]? = some talk ∧ talk.committed = false

def Runs (state : Conversation Scalar Single) (index : ℕ) : Prop :=
  ∃ talk, state.talks[index]? = some talk ∧ talk.lost = false ∧ talk.deleted = false

/-- What the scripts and the threads keep to.  The allocator gives addresses at which there
is no object, no two sessions that are not deleted have one output name, a session is left
alone after its `Commit`, and its worker logs in once and posts nothing after its end. -/
def Allowed (state : Conversation Scalar Single) (surroundings : Surroundings) :
    Call Scalar → Prop
  | .connect inputName outputName actName _ =>
      Quotable inputName ∧ Quotable outputName ∧ Quotable actName ∧
        surroundings.newInput < 2 ^ 64 ∧ surroundings.newOutput < 2 ^ 64 ∧
        state.extension.inputThread surroundings.newInput = none ∧
        state.extension.outputThread surroundings.newOutput = none ∧
        outputName ∉ [cleanupOutputName, dllOutputName] ∧
        ∀ talk ∈ state.talks, talk.deleted = false → talk.names.outputName ≠ outputName
  | .publish index name payload =>
      name ∈ publishNames ∧ (∃ data : ArmaData Single, Sends numbers payload data) ∧
        state.Open index
  | .getOutput index => state.Open index
  | .commit pairs =>
      pairs ≠ [] ∧ (pairs.map Prod.fst).Nodup ∧ ∀ pair ∈ pairs, state.Open pair.1
  | .getState _ => True
  | .reply index _ _ _ =>
      state.Runs index ∧ ∀ talk, state.talks[index]? = some talk → talk.login = none
  | .report index => state.Runs index
  | .cleanUp => state.waiting ≠ []

inductive Reached : Conversation Scalar Single → Prop where
  | start : Reached start
  | call {before after : Conversation Scalar Single} {surroundings : Surroundings}
      {call : Call Scalar} (reached : Reached before)
      (allowed : before.Allowed numbers surroundings call)
      (stepped : before.step pointers numbers floats mktime surroundings call = some after) :
      Reached after

end Step

end Conversation

/-! ## What the replies are read as -/

section Replies

variable (numbers : ScriptNumbers Scalar)

theorem parse_handle (pointers : PointerFormat) (input output : ℕ) :
    ScriptValue.parseArmaData numbers
        (arrayText [adAddress :: pointers.print input, adAddress :: pointers.print output]) =
      some (.array [.text (pointers.print input), .text (pointers.print output)]) := by
  have encodes : Encodes (ScriptValue.Leaf numbers) .array
      (arrayText ([input, output].map fun pointer => adAddress :: pointers.print pointer))
      (.array ([input, output].map fun pointer => .text (pointers.print pointer))) :=
    Encodes.arrayMap _ _ (List.cons_ne_nil input [output]) fun pointer _ =>
      .leaf (.text fun character member =>
        plain_of_isDigitOf (pointers.digits pointer character member))
  exact ScriptValue.parseArmaData_of_encodes encodes

/-- A number as it is written by the extension, read and written by the scripts. -/
def rewritten (number : ℤ) : Text := numbers.format (numbers.parseNumber (printInteger number))

namespace Loss

/-- The flag at the end of the reply, which runs into the first name of the report. -/
def flagWord (loss : Loss) (isBanned : Bool) : Text :=
  printNatural 10 (if isBanned then 1 else 0) ++
    ([adAsRight, adArray, adAsLeft] ++ quoted loss.names.inputName)

/-- The texts that the scripts find in a crash report, and what they make of each. -/
def elements (loss : Loss) : List (Text × ScriptValue Scalar) :=
  match loss.login with
  | none => [loss.names.inputName, loss.names.outputName, loss.names.actName].map fun name =>
      (quoted name, .string name)
  | some (row, isBanned) =>
      (quoted row.uidName, .string row.uidName) ::
        (row.numbers.map fun number =>
          (adSigned :: printInteger number, .scalar (numbers.parseNumber (printInteger number)))) ++
        (adUnsigned :: loss.flagWord isBanned,
            .scalar (numbers.parseNumber (loss.flagWord isBanned))) ::
          [loss.names.outputName, loss.names.actName].map fun name => (quoted name, .string name)

/-- The UID that is looked up for a crash report: behind a login the scripts find the level of
the account where the name should be. -/
def lookup (loss : Loss) : Text :=
  loss.login.elim loss.names.actName fun login => rewritten numbers login.1.statistics.level

structure Quotable (loss : Loss) : Prop where
  names : loss.names.Quotable
  uidName : ∀ login ∈ loss.login, adUnit ∉ login.1.uidName

theorem text_eq (loss : Loss) :
    loss.text = arrayText ((loss.elements numbers).map Prod.fst) := by
  obtain ⟨names, login⟩ := loss
  cases login with
  | none => rfl
  | some login =>
      obtain ⟨row, isBanned⟩ := login
      have joins := congrArg (· ++ [adAsRight]) <| joined_append_joined
        (quoted row.uidName :: row.numbers.map fun number => adSigned :: printInteger number)
        (adUnsigned :: printNatural 10 (if isBanned then 1 else 0))
        [adAsRight, adArray, adAsLeft] (quoted names.inputName)
        [quoted names.outputName, quoted names.actName]
      simp only [text, streamOf, Option.elim_some, AccountRow.reply_eq, Names.text, arrayText,
        elements, flagWord, List.map_append, List.map_cons, List.map_map, Function.comp_def,
        List.map_nil]
      simpa [quoted] using joins

theorem Quotable.readable {loss : Loss} (quotable : loss.Quotable) :
    ∀ element ∈ loss.elements numbers,
      ScriptValue.Readable numbers element.1 element.2 := by
  obtain ⟨⟨input, output, act⟩, uidName⟩ := quotable
  have name {name : Text} (noUnit : adUnit ∉ name) :
      ScriptValue.Readable numbers (quoted name) (.string name) := .leaf (.string noUnit)
  intro element member
  unfold elements at member
  split at member
  · simp only [List.map_cons, List.map_nil, List.mem_cons, List.not_mem_nil, or_false] at member
    rcases member with rfl | rfl | rfl
    · exact name input.noUnit
    · exact name output.noUnit
    · exact name act.noUnit
  · rename_i row isBanned isLogin
    simp only [List.map_cons, List.map_nil, List.cons_append, List.mem_cons, List.mem_append,
      List.mem_map, List.not_mem_nil, or_false] at member
    rcases member with rfl | ⟨number, -, rfl⟩ | rfl | rfl | rfl
    · exact name (uidName _ isLogin)
    · exact .leaf (.scalar (.inr (.inr rfl)) (plain_printInteger number))
    · refine .number (.inr (.inl rfl)) fun parse => ?_
      have flag : ScriptValue.Copied parse 0 (printNatural 10 (if isBanned then 1 else 0)) :=
        .plainWord (plain_printNatural (by decide) (by decide) _)
      exact flag.append (ScriptValue.Copied.reopened.append ((name input.noUnit).copied parse))
    · exact name output.noUnit
    · exact name act.noUnit

theorem lookup_elements (loss : Loss) :
    ((ScriptValue.array ((loss.elements numbers).map Prod.snd)).select 2).bind
      (ScriptValue.print numbers) = some (loss.lookup numbers) := by
  obtain ⟨names, login⟩ := loss
  cases login with
  | none => rfl
  | some login => rfl

end Loss

/-- The reply to `GetState` is read as the crash reports, also when there are none. -/
theorem parse_reports {losses : List Loss} (quotable : ∀ loss ∈ losses, loss.Quotable) :
    ScriptValue.parseArmaData numbers (arrayText (losses.map Loss.text)) =
      some (.array (losses.map fun loss => .array ((loss.elements numbers).map Prod.snd))) := by
  cases losses with
  | nil => rfl
  | cons loss losses =>
      let pairs : List (Text × ScriptValue Scalar) := (loss :: losses).map fun loss =>
        (loss.text, .array ((loss.elements numbers).map Prod.snd))
      have read := @ScriptValue.Readable.parseArmaData_array Scalar numbers pairs
        (by simp [pairs]) (by
          intro element member
          obtain ⟨other, present, rfl⟩ := List.mem_map.mp member
          dsimp only
          rw [other.text_eq numbers]
          refine .array ?_ ((quotable other present).readable numbers)
          unfold Loss.elements
          split <;> simp)
      simpa [pairs, Function.comp_def] using read

theorem lookups_reports (losses : List Loss) :
    (ScriptValue.array (losses.map fun loss =>
      .array ((loss.elements numbers).map Prod.snd))).lookups numbers =
        some (losses.map (Loss.lookup numbers)) := by
  rw [ScriptValue.lookups]
  induction losses with
  | nil => rfl
  | cons loss losses inductionHypothesis =>
      rw [List.map_cons, List.mapM_cons, inductionHypothesis, loss.lookup_elements numbers]
      rfl

end Replies

/-! ## What a worker hears -/

theorem readNames_of_heard {messages : List (ArmaMessage Single)}
    {inputName outputName actName : Text} {rejoin : Bool}
    {rest : List (Request (ArmaData Single))}
    (hears : heard messages = some (.connect inputName outputName actName rejoin :: rest)) :
    readNames messages = some ⟨inputName, outputName, actName⟩ := by
  cases messages with
  | nil => cases hears
  | cons first messages =>
      simp only [heard, Option.bind_eq_bind, Option.bind_eq_some_iff, Option.pure_def,
        Option.some.injEq] at hears
      obtain ⟨connect, read, requests, -, same⟩ := hears
      cases same
      simp [readNames, read]

theorem heard_append {messages : List (ArmaMessage Single)} {message : ArmaMessage Single}
    {requests : List (Request (ArmaData Single))} {request : Request (ArmaData Single)}
    (started : messages ≠ []) (before : heard messages = some requests)
    (read : readRequest message = some request) :
    heard (messages ++ [message]) = some (requests ++ [request]) := by
  obtain ⟨first, rest, rfl⟩ := List.exists_cons_of_ne_nil started
  simp only [heard, Option.bind_eq_bind, Option.bind_eq_some_iff, Option.pure_def,
    Option.some.injEq] at before
  obtain ⟨connect, connected, later, reads, rfl⟩ := before
  rw [List.cons_append, heard, connected, List.mapM_append, reads]
  simp [read]

end OperationFrontLine.Wire
