import OperationFrontLine.Wire.Statistics

/-!
# `RVExtension`

A call of the scripts is one text: the name of a function, a comma and the deparsed
argument.  The objects of a session are found by the addresses in it, which are those that
the reply to its `Connect` printed.
-/

namespace OperationFrontLine.Wire

open OperationFrontLine.Library OperationFrontLine.Native

/-- How a stream prints an address: in hexadecimal digits, however many. -/
structure PointerFormat where
  print : ℕ → Text
  nonempty : ∀ pointer, print pointer ≠ []
  digits : ∀ pointer, ∀ character ∈ print pointer, isDigitOf 16 character = true
  value : ∀ pointer, digitsValue 16 0 (print pointer) = pointer

theorem extractHex_digits {digits : Text} (nonempty : digits ≠ [])
    (all : ∀ character ∈ digits, isDigitOf 16 character = true)
    (high : digitsValue 16 0 digits < 2 ^ 64) : extractHex digits = digitsValue 16 0 digits := by
  have absent {character : Char} (other : isDigitOf 16 character = false) :
      character ∉ digits := fun member => by simp [all character member] at other
  have noPrefix : skipHexPrefix digits = digits := by
    unfold skipHexPrefix
    split
    · exact absurd (by simp) (absent (by decide : isDigitOf 16 'x' = false))
    · exact absurd (by simp) (absent (by decide : isDigitOf 16 'X' = false))
    · rfl
  have natural := readNatural_append nonempty all (stops_nil 16)
  rw [List.append_nil] at natural
  have magnitude : hexMagnitude digits = digitsValue 16 0 digits := by
    simp only [hexMagnitude, noPrefix, natural]
    omega
  unfold extractHex
  rw [skipSpace_of_digit all]
  split
  · exact absurd (by simp) (absent (by decide : isDigitOf 16 '-' = false))
  · exact absurd (by simp) (absent (by decide : isDigitOf 16 '+' = false))
  · exact magnitude

theorem PointerFormat.extractHex_print (pointers : PointerFormat) {pointer : ℕ}
    (high : pointer < 2 ^ 64) : extractHex (pointers.print pointer) = pointer := by
  have value := pointers.value pointer
  have small : digitsValue 16 0 (pointers.print pointer) < 2 ^ 64 := value.symm ▸ high
  rw [extractHex_digits (pointers.nonempty pointer) (pointers.digits pointer) small, value]

/-- At least eight digits, as on a machine with 32-bit addresses. -/
def paddedPointers : PointerFormat where
  print pointer := (printNatural 16 pointer).leftpad 8 '0'
  nonempty pointer := by simp [List.leftpad, printNatural_ne_nil]
  digits pointer := by
    intro character member
    rcases List.mem_append.mp member with zero | digit
    · rw [List.eq_of_mem_replicate zero]
      rfl
    · exact printNatural_digits (by decide) le_rfl pointer character digit
  value pointer := by
    have zeros (count : ℕ) : digitsValue 16 0 (List.replicate count '0') = 0 := by
      induction count with
      | zero => rfl
      | succ count inductionHypothesis =>
          simpa [digitsValue, List.replicate_succ, digitValue] using inductionHypothesis
    have before := zeros (8 - (printNatural 16 pointer).length)
    rw [digitsValue] at before
    rw [List.leftpad, digitsValue, List.foldl_append, before]
    exact digitsValue_printNatural (by decide) le_rfl pointer

namespace ArmaData

variable {Single : Type}

/-- `AsType<std::string>()` -/
def asString : ArmaData Single → Option Text
  | .string value => some value
  | _ => none

/-- `AsType<unsigned long long int>()` -/
def asUnsigned : ArmaData Single → Option ℕ
  | .unsigned value => some value
  | _ => none

/-- `AsType<void *>()` -/
def asAddress : ArmaData Single → Option ℕ
  | .address value => some value
  | _ => none

/-- `AsType<ARMA_ARRAY>()` -/
def asArray : ArmaData Single → Option (List (ArmaData Single))
  | .array elements => some elements
  | _ => none

end ArmaData

def getStateName : Text := "GetState".toList
def getDllStateName : Text := "GetDllState".toList
def connectName : Text := "Connect".toList
def getOutputName : Text := "GetOutput".toList
def publishKillsName : Text := "PublishKills".toList
def publishChickensName : Text := "PublishChickens".toList
def commitName : Text := "Commit".toList
def isBannedName : Text := "IsBanned".toList
def gmTimeName : Text := "GMTime".toList

def cleanupOutputName : Text := "CLEANUP_O".toList
def dllOutputName : Text := "DLL_O".toList

def publishNames : List Text := [publishKillsName, publishChickensName, publishAccountName]

/-- A `ThreadHive` object: the name of its handle, and what was sent to that and, where the
extension itself receives it, not yet received. -/
structure Thread (Message : Type) where
  threadName : Text
  messages : List Message

/-- What the calls and the threads share; the objects are at their addresses.  Of the
messages to the cleanup thread, the pairs are listed that it still has to delete. -/
structure Extension (Single : Type) where
  inputThread : ℕ → Option (Thread (ArmaMessage Single))
  outputThread : ℕ → Option (Thread Text)
  /-- the addresses of the output objects, in the order of their handles -/
  outputs : List ℕ
  threadState : List Text
  dllState : List Text
  cleanupThread : List (ArmaData Single)

/-- What the allocator and the clock answer during a call. -/
structure Surroundings where
  newInput : ℕ
  newOutput : ℕ
  now : ℤ

namespace Extension

variable {Single : Type}

def start : Extension Single where
  inputThread _ := none
  outputThread _ := none
  outputs := []
  threadState := []
  dllState := []
  cleanupThread := []

def getState (extension : Extension Single) : Extension Single × Text :=
  ({ extension with threadState := [] }, arrayText extension.threadState)

def getDllState (extension : Extension Single) : Extension Single × Text :=
  match extension.dllState with
  | [] => (extension, [adUnsigned, '0'])
  | out :: dllState => ({ extension with dllState := dllState }, out)

/-- `new` gives addresses at which there is no other object. -/
def connect (pointers : PointerFormat) (extension : Extension Single)
    (surroundings : Surroundings) (message : ArmaMessage Single) :
    Option (Extension Single × Text) := do
  let inputName ← (message.data.at? 0).bind ArmaData.asString
  let outputName ← (message.data.at? 1).bind ArmaData.asString
  return ({ extension with
      inputThread := Function.update extension.inputThread surroundings.newInput
        (some ⟨inputName, [message]⟩)
      outputThread := Function.update extension.outputThread surroundings.newOutput
        (some ⟨outputName, []⟩)
      outputs := extension.outputs ++ [surroundings.newOutput] },
    arrayText [adAddress :: pointers.print surroundings.newInput,
      adAddress :: pointers.print surroundings.newOutput])

def getOutput (extension : Extension Single) (message : ArmaMessage Single) :
    Option (Extension Single × Text) := do
  let outputThread ← (message.data.at? 0).bind ArmaData.asAddress
  let thread ← extension.outputThread outputThread
  match thread.messages with
  | [] => return (extension, [])
  | out :: messages =>
      return ({ extension with
          outputThread := Function.update extension.outputThread outputThread
            (some { thread with messages := messages }) }, out)

/-- The first handle with the name, of those behind the two of the first call. -/
def getThreadHandle (extension : Extension Single) (threadName : Text) : Option ℕ :=
  extension.outputs.find? fun pointer =>
    (extension.outputThread pointer).any fun thread => thread.threadName = threadName

/-- `com.sendMsg(com.getThreadHandle(threadName), out)`; `none` when there is no handle. -/
def sendMsg (extension : Extension Single) (threadName out : Text) :
    Option (Extension Single) :=
  if threadName = cleanupOutputName then
    some { extension with threadState := extension.threadState ++ [out] }
  else if threadName = dllOutputName then
    some { extension with dllState := extension.dllState ++ [out] }
  else do
    let outputThread ← extension.getThreadHandle threadName
    let thread ← extension.outputThread outputThread
    return { extension with
      outputThread := Function.update extension.outputThread outputThread
        (some { thread with messages := thread.messages ++ [out] }) }

/-- `PublishData`; `none` when there is no object at the address. -/
def publishData (extension : Extension Single) (message : ArmaMessage Single) :
    Option (Extension Single) := do
  let inputThread ← (message.data.at? 0).bind ArmaData.asAddress
  let thread ← extension.inputThread inputThread
  return { extension with
    inputThread := Function.update extension.inputThread inputThread
      (some { thread with messages := thread.messages ++ [message] }) }

/-- One pair of a `Commit`: a message of its own for the worker. -/
def commitPair (extension : Extension Single) (data : ArmaData Single) :
    Option (Extension Single) :=
  data.asArray.bind fun elements =>
    extension.publishData ⟨false, commitName, .array elements⟩

def commit (extension : Extension Single) (message : ArmaMessage Single) :
    Option (Extension Single) := do
  let pairs ← message.data.asArray
  let committed ← pairs.foldlM commitPair extension
  return { committed with cleanupThread := committed.cleanupThread ++ pairs }

def banReply (mktime : BrokenDownTime → ℤ) (now : ℤ) (message : ArmaMessage Single) :
    Option Text := do
  let year ← (message.data.at? 0).bind ArmaData.asSigned
  let month ← (message.data.at? 1).bind ArmaData.asSigned
  let day ← (message.data.at? 2).bind ArmaData.asSigned
  let hour ← (message.data.at? 3).bind ArmaData.asSigned
  let minute ← (message.data.at? 4).bind ArmaData.asSigned
  let second ← (message.data.at? 5).bind ArmaData.asSigned
  let banHours ← (message.data.at? 6).bind ArmaData.asSigned
  let banned := Ban.isBanned mktime now ⟨year, month, day, hour, minute, second⟩ banHours
  return [adSigned, if banned then '1' else '0']

def timeReply (now : ℤ) : Text :=
  let time := BrokenDownTime.utc now
  arrayText ([time.year, time.month, time.day, time.hour, time.minute, time.second].map
    fun number => adSigned :: printInteger number)

/-- One iteration of the cleanup thread: both objects of a pair are deleted. -/
def cleanUp (extension : Extension Single) : Option (Extension Single) :=
  match extension.cleanupThread with
  | [] => none
  | pair :: cleanupThread => do
      let inputThread ← (pair.at? 0).bind ArmaData.asAddress
      let outputThread ← (pair.at? 1).bind ArmaData.asAddress
      let _ ← extension.inputThread inputThread
      let _ ← extension.outputThread outputThread
      return { extension with
        inputThread := Function.update extension.inputThread inputThread none
        outputThread := Function.update extension.outputThread outputThread none
        outputs := extension.outputs.filter (· ≠ outputThread)
        cleanupThread := cleanupThread }

def dispatch (pointers : PointerFormat) (mktime : BrokenDownTime → ℤ)
    (extension : Extension Single) (surroundings : Surroundings) (function : Text)
    (message : ArmaMessage Single) : Option (Extension Single × Text) :=
  if message.name = getStateName then
    some extension.getState
  else if message.name = getDllStateName then
    some extension.getDllState
  else if message.name = connectName then
    extension.connect pointers surroundings message
  else if message.name = getOutputName then
    extension.getOutput message
  else if message.name ∈ publishNames then
    (extension.publishData message).map (·, [])
  else if message.name = commitName then
    (extension.commit message).map (·, [])
  else if message.name = isBannedName then
    (banReply mktime surroundings.now message).map (extension, ·)
  else if message.name = gmTimeName then
    some (extension, timeReply surroundings.now)
  else
    some (extension, function)

/-- A call; `none` when an exception is thrown or the behaviour is undefined. -/
def RVExtension (pointers : PointerFormat) (floats : FloatFormat Single)
    (mktime : BrokenDownTime → ℤ) (extension : Extension Single) (surroundings : Surroundings)
    (function : Text) : Option (Extension Single × Text) :=
  match ArmaMessage.parseArmaData floats function with
  | .error _ => none
  | .ok message => extension.dispatch pointers mktime surroundings function message

section Branches

variable (pointers : PointerFormat) (mktime : BrokenDownTime → ℤ) (extension : Extension Single)
  (surroundings : Surroundings) (function : Text) {message : ArmaMessage Single}

theorem dispatch_getState (named : message.name = getStateName) :
    extension.dispatch pointers mktime surroundings function message =
      some extension.getState := by
  rw [dispatch, if_pos named]

theorem dispatch_connect (named : message.name = connectName) :
    extension.dispatch pointers mktime surroundings function message =
      extension.connect pointers surroundings message := by
  simp [dispatch, named, show connectName ≠ getStateName by decide,
    show connectName ≠ getDllStateName by decide]

theorem dispatch_getOutput (named : message.name = getOutputName) :
    extension.dispatch pointers mktime surroundings function message =
      extension.getOutput message := by
  simp [dispatch, named, show getOutputName ≠ getStateName by decide,
    show getOutputName ≠ getDllStateName by decide, show getOutputName ≠ connectName by decide]

theorem dispatch_publish (publish : message.name ∈ publishNames) :
    extension.dispatch pointers mktime surroundings function message =
      (extension.publishData message).map (·, []) := by
  have others : ∀ name ∈ [getStateName, getDllStateName, connectName, getOutputName],
      message.name ≠ name := by
    intro name member same
    have apart : ∀ name ∈ [getStateName, getDllStateName, connectName, getOutputName],
        name ∉ publishNames := by decide
    exact apart name member (same ▸ publish)
  simp [dispatch, others, publish]

theorem dispatch_commit (named : message.name = commitName) :
    extension.dispatch pointers mktime surroundings function message =
      (extension.commit message).map (·, []) := by
  simp [dispatch, named, show commitName ≠ getStateName by decide,
    show commitName ≠ getDllStateName by decide, show commitName ≠ connectName by decide,
    show commitName ≠ getOutputName by decide, show commitName ∉ publishNames by decide]

end Branches

end Extension

/-! ## What a call is understood as -/

section Calls

variable {Scalar Single : Type} (numbers : ScriptNumbers Scalar)

/-- A value that the scripts send, and the data that the extension makes of it. -/
inductive Sends : ScriptValue Scalar → ArmaData Single → Prop where
  | scalar {number : ℤ} (exact_float : number.natAbs ≤ 2 ^ 24) :
      Sends (.scalar (numbers.ofInt number)) (.signed (saved number))
  | bool (value : Bool) : Sends (.bool value) (.unsigned value.toNat)
  | string {value : Text} (nonempty : value ≠ []) (noUnit : adUnit ∉ value)
      (noArray : adArray ∉ value) : Sends (.string value) (.string value)
  | text {word : Text} (nonempty : word ≠ [])
      (digits : ∀ character ∈ word, isDigitOf 16 character = true) :
      Sends (.text word) (.address (extractHex word))
  | array {elements : List (ScriptValue Scalar × ArmaData Single)} (nonempty : elements ≠ [])
      (all : ∀ element ∈ elements, Sends element.1 element.2) :
      Sends (.array (elements.map Prod.fst)) (.array (elements.map Prod.snd))

/-- `format ["%1,%2", name, argument call PCS_DeparseArmaData]` -/
def callText [DecidableEq Scalar] (name : Text) (argument : ScriptValue Scalar) : Text :=
  name ++ adSeperator :: argument.deparseArmaData numbers

variable {numbers} [DecidableEq Scalar] (floats : FloatFormat Single)

theorem Sends.encodes {value : ScriptValue Scalar} {data : ArmaData Single}
    (sends : Sends numbers value data) :
    Encodes (ArmaData.Leaf floats) .array (value.deparseArmaData numbers) data := by
  induction sends with
  | @scalar number exact_float =>
      rw [ScriptValue.deparse_scalar numbers exact_float]
      have value := (stoll_printGeneral exact_float).1
      have nonempty : printGeneral number ≠ [] := by
        intro none_printed
        simp [none_printed, stoll, skipSpace, readInteger, readNatural] at value
      exact .leaf (ArmaData.leaf_signed floats nonempty (plain_printGeneral number) value)
  | bool value =>
      rw [ScriptValue.deparseArmaData]
      cases value
      · exact .leaf (ArmaData.leaf_unsigned floats (by decide : 0 < 2 ^ 64))
      · exact .leaf (ArmaData.leaf_unsigned floats (by decide : 1 < 2 ^ 64))
  | string nonempty noUnit noArray =>
      rw [ScriptValue.deparseArmaData]
      exact .leaf (.string nonempty noUnit noArray)
  | text nonempty digits =>
      rw [ScriptValue.deparseArmaData]
      exact .leaf (ArmaData.leaf_address floats nonempty fun character member =>
        plain_of_isDigitOf (digits character member))
  | @array elements nonempty all inductionHypothesis =>
      rw [ScriptValue.deparse_array numbers (by simpa using nonempty), List.map_map]
      exact Encodes.arrayMap _ Prod.snd nonempty inductionHypothesis

theorem parse_callText {name : Text} (function : FunctionName name)
    {elements : List (ScriptValue Scalar × ArmaData Single)} (nonempty : elements ≠ [])
    (all : ∀ element ∈ elements, Sends numbers element.1 element.2) :
    ArmaMessage.parseArmaData floats (callText numbers name (.array (elements.map Prod.fst))) =
      .ok ⟨true, name, .array (elements.map Prod.snd)⟩ := by
  rw [callText, ScriptValue.deparse_array numbers (by simpa using nonempty), List.map_map,
    ArmaMessage.parse_call floats function (by simp [arrayText]),
    ArmaData.buildData_arrayMap (_ ∘ Prod.fst) Prod.snd nonempty
      (fun element member => (all element member).encodes floats) le_rfl]
  rfl

theorem parse_callText_empty {name : Text} (function : FunctionName name) :
    ArmaMessage.parseArmaData floats (callText numbers name (.string [])) =
      .ok ⟨true, name, .string [adUnit, adUnit]⟩ := by
  rw [callText, ScriptValue.deparseArmaData, ArmaMessage.parse_call floats function (by simp)]
  rfl

def functionNames : List Text :=
  [getStateName, getDllStateName, connectName, getOutputName, commitName, isBannedName,
    gmTimeName] ++ publishNames

theorem functionName_of_mem {name : Text} (member : name ∈ functionNames) : FunctionName name := by
  have every : functionNames.all (fun name => name ≠ [] && adSeperator ∉ name &&
      name.head?.all fun first => !ArmaMessage.isType first) = true := by decide
  have checked := List.all_eq_true.mp every name member
  simp only [Bool.and_eq_true, decide_eq_true_eq, Option.all_eq_true, Bool.not_eq_true'] at checked
  exact ⟨checked.1.1, checked.1.2, checked.2⟩

end Calls

end OperationFrontLine.Wire
