import OperationFrontLine.Wire.Agreement
import OperationFrontLine.Wire.Quoting
import OperationFrontLine.Wire.Scan

/-!
# Malformed input

`BuildData` reports most malformed texts with `ThrowError`.  It looks for the end of the text
on some of its branches only: an array without its bracket is read past its end, and what is
no number makes the standard library throw.
-/

namespace OperationFrontLine.Wire

open OperationFrontLine.Library OperationFrontLine.Native

namespace ArmaData

variable {Single : Type} (floats : FloatFormat Single)

def ReadsAs (type : Char) (payload : Text) : Prop :=
  type = adString ∨ type = adAddress ∨ (type = adFloat ∧ floats.stof payload ≠ none) ∨
    (type = adSigned ∧ stoll payload ≠ none) ∨ (type = adUnsigned ∧ stoull payload ≠ none)

def BadNumber (type : Char) (payload : Text) : Prop :=
  (type = adFloat ∧ floats.stof payload = none) ∨ (type = adSigned ∧ stoll payload = none) ∨
    (type = adUnsigned ∧ stoull payload = none)

/-- A text that is read, when these are the elements that are. -/
inductive AcceptedWith (ok : Text → Prop) : Text → Prop where
  | scalar {type first : Char} {rest : Text} (reads : ReadsAs floats type (first :: rest)) :
      AcceptedWith ok (type :: first :: rest)
  | bare : AcceptedWith ok [adArray, adAsLeft]
  | array {body : Text} (closes : Body ok (Closes ok) body) :
      AcceptedWith ok (adArray :: adAsLeft :: body)

/-- A text that is read past its end or holds a bad number. -/
inductive FaultyWith (ok bad : Text → Prop) : Text → Prop where
  | number {type first : Char} {rest : Text} (isBad : BadNumber floats type (first :: rest)) :
      FaultyWith ok bad (type :: first :: rest)
  | array {body : Text} (runsOff : Body ok (RunsOff bad) body) :
      FaultyWith ok bad (adArray :: adAsLeft :: body)

/-- The texts that are read, with arrays up to a depth. -/
def Accepted : ℕ → Text → Prop
  | 0 => AcceptedWith floats fun _ => False
  | depth + 1 => AcceptedWith floats (Accepted depth)

/-- The texts that `ThrowError` does not report, with arrays up to a depth. -/
def Faulty : ℕ → Text → Prop
  | 0 => FaultyWith floats (fun _ => False) fun _ => False
  | depth + 1 => FaultyWith floats (Accepted floats depth) (Faulty depth)

section Levels

variable {floats} {parse : Text → Except ParseError (ArmaData Single)} {ok bad : Text → Prop}
  {text : Text}

theorem newElement_of_ok {value : ArmaData Single} (parsed : parse text = .ok value)
    (hasData : value.hasData = true) : newElement parse text = .ok value := by
  rw [newElement, parsed]
  exact if_pos hasData

theorem newElement_of_error {failure : ParseError} (parsed : parse text = .error failure) :
    newElement parse text = .error failure := by
  rw [newElement, parsed]
  rfl

theorem newElement_of_null (parsed : parse text = .ok .null) :
    newElement parse text = .error .errorType := by
  rw [newElement, parsed]
  rfl

theorem crash_newElement {failure : ParseError} (crash : Crash failure) :
    newElement parse text = .error failure ↔ parse text = .error failure := by
  refine ⟨fun built => ?_, newElement_of_error⟩
  cases parsed : parse text with
  | error other =>
      rw [newElement_of_error parsed] at built
      exact built
  | ok value =>
      rw [newElement, parsed] at built
      change (if value.hasData = true then _ else _) = _ at built
      split at built
      · cases built
      · cases built
        exact absurd crash not_crash_errorType

section Scalars

variable {type first : Char} {rest : Text}

theorem buildDataWith_reads (reads : ReadsAs floats type (first :: rest)) :
    ∃ value : ArmaData Single, value.hasData = true ∧
      buildDataWith floats parse (type :: first :: rest) = .ok value := by
  rcases reads with rfl | rfl | ⟨rfl, read⟩ | ⟨rfl, read⟩ | ⟨rfl, read⟩
  · exact ⟨.string (first :: rest), rfl, rfl⟩
  · exact ⟨.address (extractHex (first :: rest)), rfl, rfl⟩
  · obtain ⟨value, read⟩ := Option.ne_none_iff_exists'.mp read
    refine ⟨.float value (decimalPlaces (first :: rest) % 2 ^ 16), rfl, ?_⟩
    simp [buildDataWith, read, show adFloat ≠ adString by decide]
  · obtain ⟨value, read⟩ := Option.ne_none_iff_exists'.mp read
    refine ⟨.signed value, rfl, ?_⟩
    simp [buildDataWith, read, show adSigned ≠ adString by decide,
      show adSigned ≠ adFloat by decide]
  · obtain ⟨value, read⟩ := Option.ne_none_iff_exists'.mp read
    refine ⟨.unsigned value, rfl, ?_⟩
    simp [buildDataWith, read, show adUnsigned ≠ adString by decide,
      show adUnsigned ≠ adFloat by decide, show adUnsigned ≠ adSigned by decide]

theorem buildDataWith_badNumber (isBad : BadNumber floats type (first :: rest)) :
    buildDataWith floats parse (type :: first :: rest) = .error .invalidNumber := by
  rcases isBad with ⟨rfl, read⟩ | ⟨rfl, read⟩ | ⟨rfl, read⟩
  · simp [buildDataWith, read, show adFloat ≠ adString by decide]
  · simp [buildDataWith, read, show adSigned ≠ adString by decide,
      show adSigned ≠ adFloat by decide]
  · simp [buildDataWith, read, show adUnsigned ≠ adString by decide,
      show adUnsigned ≠ adFloat by decide, show adUnsigned ≠ adSigned by decide]

theorem buildDataWith_other (noArray : type ≠ adArray)
    (noData : ¬ReadsAs floats type (first :: rest))
    (notBad : ¬BadNumber floats type (first :: rest)) :
    buildDataWith floats parse (type :: first :: rest) = .error .errorType := by
  have noFloat : type ≠ adFloat := fun isFloat => notBad (.inl ⟨isFloat, by
    by_contra read
    exact noData (.inr (.inr (.inl ⟨isFloat, read⟩)))⟩)
  have noSigned : type ≠ adSigned := fun isSigned => notBad (.inr (.inl ⟨isSigned, by
    by_contra read
    exact noData (.inr (.inr (.inr (.inl ⟨isSigned, read⟩))))⟩))
  have noUnsigned : type ≠ adUnsigned := fun isUnsigned => notBad (.inr (.inr ⟨isUnsigned, by
    by_contra read
    exact noData (.inr (.inr (.inr (.inr ⟨isUnsigned, read⟩))))⟩))
  have noString : type ≠ adString := fun isString => noData (.inl isString)
  have noAddress : type ≠ adAddress := fun isAddress => noData (.inr (.inl isAddress))
  simp [buildDataWith, noString, noFloat, noSigned, noUnsigned, noAddress, noArray]

end Scalars

theorem AcceptedWith.read (accepts : ∀ text, ok text → ∃ value, newElement parse text = .ok value)
    (accepted : AcceptedWith floats ok text) :
    ∃ value, newElement (buildDataWith floats parse) text = .ok value := by
  cases accepted with
  | scalar reads =>
      obtain ⟨value, hasData, parsed⟩ := buildDataWith_reads reads
      exact ⟨value, newElement_of_ok parsed hasData⟩
  | bare => exact ⟨.array [], rfl⟩
  | array closes =>
      obtain ⟨values, loop⟩ := closes.closes accepts []
      refine ⟨.array values, newElement_of_ok ?_ rfl⟩
      rw [buildDataWith_array (closes.ne_nil fun _ => Closes.ne_nil), loop]
      rfl

theorem FaultyWith.crashes
    (accepts : ∀ text, ok text → ∃ value, newElement parse text = .ok value)
    (crashes : ∀ text, bad text → ∃ failure, newElement parse text = .error failure ∧
      Crash failure)
    (faulty : FaultyWith floats ok bad text) :
    ∃ failure, newElement (buildDataWith floats parse) text = .error failure ∧ Crash failure := by
  cases faulty with
  | number isBad => exact ⟨_, newElement_of_error (buildDataWith_badNumber isBad), .inr rfl⟩
  | array runsOff =>
      obtain ⟨failure, loop, crash⟩ := runsOff.runsOff accepts crashes []
      refine ⟨failure, newElement_of_error ?_, crash⟩
      rw [buildDataWith_array (runsOff.ne_nil fun _ => RunsOff.ne_nil), loop]
      rfl

theorem buildDataWith_cases
    (accepts : ∀ text value, newElement parse text = .ok value → ok text)
    (crashes : ∀ text failure, newElement parse text = .error failure → Crash failure → bad text)
    (text : Text) :
    AcceptedWith floats ok text ∨ FaultyWith floats ok bad text ∨
      ∃ failure, newElement (buildDataWith floats parse) text = .error failure ∧
        ¬Crash failure := by
  rcases text with _ | ⟨type, _ | ⟨first, rest⟩⟩
  · exact .inr (.inr ⟨_, newElement_of_null rfl, not_crash_errorType⟩)
  · exact .inr (.inr ⟨_, newElement_of_error rfl, not_crash_errorType⟩)
  · by_cases isArray : type = adArray
    · subst isArray
      by_cases opens : first = adAsLeft
      · subst opens
        by_cases none : rest = []
        · subst none
          exact .inl .bare
        · rcases taken accepts crashes none [] with closes | runsOff | ⟨failure, loop, noCrash⟩
          · exact .inl (.array closes)
          · exact .inr (.inl (.array runsOff))
          · refine .inr (.inr ⟨failure, newElement_of_error ?_, noCrash⟩)
            rw [buildDataWith_array none, loop]
            rfl
      · refine .inr (.inr ⟨_, newElement_of_null ?_, not_crash_errorType⟩)
        simp only [buildDataWith, show adArray ≠ adString by decide,
          show adArray ≠ adFloat by decide, show adArray ≠ adSigned by decide,
          show adArray ≠ adUnsigned by decide, if_false, if_true, if_neg opens]
    · by_cases reads : ReadsAs floats type (first :: rest)
      · exact .inl (.scalar reads)
      · by_cases isBad : BadNumber floats type (first :: rest)
        · exact .inr (.inl (.number isBad))
        · exact .inr (.inr ⟨_, newElement_of_error (buildDataWith_other isArray reads isBad),
            not_crash_errorType⟩)

theorem buildDataWith_level
    (accepts : ∀ text, (∃ value, newElement parse text = .ok value) ↔ ok text)
    (crashes : ∀ text, (∃ failure, newElement parse text = .error failure ∧ Crash failure) ↔
      bad text) (text : Text) :
    ((∃ value, newElement (buildDataWith floats parse) text = .ok value) ↔
        AcceptedWith floats ok text) ∧
      ((∃ failure, newElement (buildDataWith floats parse) text = .error failure ∧
        Crash failure) ↔ FaultyWith floats ok bad text) := by
  have read : AcceptedWith floats ok text → _ :=
    AcceptedWith.read fun text => (accepts text).mpr
  have crash : FaultyWith floats ok bad text → _ :=
    FaultyWith.crashes (fun text => (accepts text).mpr) fun text => (crashes text).mpr
  refine ⟨⟨fun parsed => ?_, read⟩, fun failed => ?_, crash⟩
  · obtain ⟨value, parsed⟩ := parsed
    rcases @buildDataWith_cases _ floats parse ok bad
        (fun text value built => (accepts text).mp ⟨value, built⟩)
        (fun text failure built crash => (crashes text).mp ⟨failure, built, crash⟩) text with
      accepted | faulty | ⟨failure, failed, -⟩
    · exact accepted
    · obtain ⟨failure, failed, -⟩ := crash faulty
      rw [parsed] at failed
      cases failed
    · rw [parsed] at failed
      cases failed
  · obtain ⟨failure, failed, isCrash⟩ := failed
    rcases @buildDataWith_cases _ floats parse ok bad
        (fun text value built => (accepts text).mp ⟨value, built⟩)
        (fun text failure built crash => (crashes text).mp ⟨failure, built, crash⟩) text with
      accepted | faulty | ⟨other, failedOther, noCrash⟩
    · obtain ⟨value, parsed⟩ := read accepted
      rw [failed] at parsed
      cases parsed
    · exact faulty
    · rw [failed] at failedOther
      cases failedOther
      exact absurd isCrash noCrash

/-- At every depth the texts that are read, and those that crash, are the described ones. -/
theorem buildData_level (depth : ℕ) (text : Text) :
    ((∃ value, newElement (buildData floats depth) text = .ok value) ↔
        Accepted floats depth text) ∧
      ((∃ failure, newElement (buildData floats depth) text = .error failure ∧ Crash failure) ↔
        Faulty floats depth text) := by
  induction depth generalizing text with
  | zero =>
      refine buildDataWith_level (fun text => ?_) (fun text => ?_) text
      · refine ⟨fun parsed => ?_, False.elim⟩
        obtain ⟨value, parsed⟩ := parsed
        cases parsed
      · refine ⟨fun failed => ?_, False.elim⟩
        obtain ⟨failure, failed, crash⟩ := failed
        cases failed
        rcases crash with same | same <;> cases same
  | succ depth inductionHypothesis =>
      exact buildDataWith_level (fun text => (inductionHypothesis text).1)
        (fun text => (inductionHypothesis text).2) text

/-! ## Elements are shorter than their array -/

theorem bind_ne_error {Value Result : Type} {first : Except ParseError Value}
    {next : Value → Except ParseError Result} {failure : ParseError}
    (notFirst : first ≠ .error failure)
    (notNext : ∀ value, first = .ok value → next value ≠ .error failure) :
    first.bind next ≠ .error failure := by
  cases first with
  | error other => simpa [Except.bind] using notFirst
  | ok value => exact notNext value rfl

def collectedLength : Phase → ℕ
  | .flat temp _ => temp.length
  | .nested temp _ _ _ => temp.length

theorem arrayLoop_ne_tooDeep {phase : Phase} {tempArray : List (ArmaData Single)}
    (shallow : ∀ element, element.length ≤ collectedLength phase + text.length →
      newElement parse element ≠ .error .tooDeep) :
    arrayLoop parse phase tempArray text ≠ .error .tooDeep := by
  fun_induction arrayLoop with
  | case1 | case2 | case4 | case8 => simp
  | case3 temp ignore tempArray bracket next opens inductionHypothesis =>
      refine inductionHypothesis fun element short => shallow element ?_
      simp only [collectedLength, List.length_cons, List.length_nil] at short ⊢
      omega
  | case5 => split <;> simp
  | case6 temp ignore tempArray character flat temp' ignore' next after ends
      inductionHypothesis =>
      have small : temp'.length ≤ temp.length + 1 := by
        simp only [temp']
        split <;> simp
      refine bind_ne_error (shallow temp' ?_) fun value built => ?_
      · simp only [collectedLength, List.length_cons]
        omega
      · split
        · split <;> simp
        · split
          · simp
          · refine inductionHypothesis value fun element short => shallow element ?_
            simp only [collectedLength, List.length_cons, List.length_nil] at short ⊢
            omega
  | case7 temp ignore tempArray character flat temp' ignore' next after goes
      inductionHypothesis =>
      have small : temp'.length ≤ temp.length + 1 := by
        simp only [temp']
        split <;> simp
      refine inductionHypothesis fun element short => shallow element ?_
      simp only [collectedLength, List.length_cons] at short ⊢
      omega
  | case9 temp ignore left right tempArray character rest ignore' temp' left' right' closes
      inductionHypothesis =>
      have size : temp'.length = temp.length + 1 := by simp [temp']
      refine bind_ne_error (shallow temp' ?_) fun value built => ?_
      · simp only [collectedLength, List.length_cons]
        omega
      · rcases rest with _ | ⟨separator, _ | ⟨first, after⟩⟩
        · simp
        · dsimp only
          split <;> simp
        · dsimp only
          split
          · simp
          · split
            · simp
            · refine inductionHypothesis value fun element short => shallow element ?_
              simp only [collectedLength, List.length_cons, List.length_nil] at short ⊢
              omega
  | case10 temp ignore left right tempArray character rest ignore' temp' left' right' inside
      inductionHypothesis =>
      have size : temp'.length = temp.length + 1 := by simp [temp']
      refine inductionHypothesis fun element short => shallow element ?_
      simp only [collectedLength, List.length_cons] at short ⊢
      omega

theorem buildDataWith_ne_tooDeep
    (shallow : ∀ element, element.length + 2 ≤ text.length →
      newElement parse element ≠ .error .tooDeep) :
    buildDataWith floats parse text ≠ .error .tooDeep := by
  rcases text with _ | ⟨type, _ | ⟨first, rest⟩⟩
  · simp [buildDataWith]
  · simp [buildDataWith]
  · by_cases isArray : type = adArray
    · subst isArray
      by_cases opens : first = adAsLeft
      · subst opens
        by_cases none : rest = []
        · subst none
          exact fun same => by cases same
        · have loop := @arrayLoop_ne_tooDeep _ parse rest (.flat [] false) []
            fun element short => shallow element (by
              simp only [collectedLength, List.length_nil, List.length_cons] at short ⊢
              omega)
          rw [buildDataWith_array none]
          cases parsed : arrayLoop parse (.flat [] false) [] rest with
          | error failure =>
              rw [parsed] at loop
              simpa [Except.map] using loop
          | ok values => simp [Except.map]
      · simp [buildDataWith, opens, show adArray ≠ adString by decide,
          show adArray ≠ adFloat by decide, show adArray ≠ adSigned by decide,
          show adArray ≠ adUnsigned by decide]
    · by_cases reads : ReadsAs floats type (first :: rest)
      · obtain ⟨value, -, parsed⟩ := @buildDataWith_reads _ floats parse type first rest reads
        rw [parsed]
        simp
      · by_cases isBad : BadNumber floats type (first :: rest)
        · rw [buildDataWith_badNumber isBad]
          simp
        · rw [buildDataWith_other isArray reads isBad]
          simp

theorem buildData_ne_tooDeep (depth : ℕ) (deep : text.length ≤ depth) :
    buildData floats depth text ≠ .error .tooDeep := by
  induction depth generalizing text with
  | zero =>
      rw [List.length_eq_zero_iff.mp (Nat.le_zero.mp deep)]
      simp [buildData, buildDataWith]
  | succ depth inductionHypothesis =>
      refine buildDataWith_ne_tooDeep fun element short built => ?_
      refine bind_ne_error (@inductionHypothesis element (by omega)) (fun value _ => ?_) built
      split <;> simp

end Levels

/-- A value, a false result or the exit of `ThrowError`. -/
def Safe {Value : Type} (result : Except ParseError Value) : Prop :=
  ∀ failure, result = .error failure →
    failure = .errorType ∨ failure = .errorExpected ∨ failure = .errorEnd

theorem safe_map {Value Result : Type} (result : Except ParseError Value)
    (next : Value → Result) : Safe (result.map next) ↔ Safe result := by
  cases result with
  | error failure => simp [Safe, Except.map]
  | ok value => simp [Safe, Except.map]

theorem safe_buildData_iff {depth : ℕ} {text : Text} (deep : text.length ≤ depth) :
    Safe (buildData floats depth text) ↔ ¬Faulty floats depth text := by
  have level := (@buildData_level _ floats depth text).2
  have shallow := @buildData_ne_tooDeep _ floats text depth deep
  rw [← level]
  constructor
  · rintro safe ⟨failure, built, crash⟩
    rw [crash_newElement crash] at built
    rcases safe failure built with rfl | rfl | rfl
    · exact not_crash_errorType crash
    · exact not_crash_errorExpected crash
    · exact not_crash_errorEnd crash
  · intro noCrash failure failed
    cases failure with
    | errorType => exact .inl rfl
    | errorExpected => exact .inr (.inl rfl)
    | errorEnd => exact .inr (.inr rfl)
    | pastEnd => exact absurd ⟨_, newElement_of_error failed, .inl rfl⟩ noCrash
    | invalidNumber => exact absurd ⟨_, newElement_of_error failed, .inr rfl⟩ noCrash
    | tooDeep => exact absurd failed shallow

end ArmaData

/-- The messages with a name and no data behind its separator, and those with faulty data. -/
inductive FaultyMessage {Single : Type} (floats : FloatFormat Single) : Text → Prop where
  | data {first : Char} {rest : Text} (isType : ArmaMessage.isType first = true)
      (faulty : ArmaData.Faulty floats (first :: rest).length (first :: rest)) :
      FaultyMessage floats (first :: rest)
  | name {name : Text} (noSeperator : adSeperator ∉ name)
      (noType : ∀ first ∈ name.head?, ArmaMessage.isType first = false) :
      FaultyMessage floats (name ++ [adSeperator])
  | call {name data : Text} (noSeperator : adSeperator ∉ name)
      (noType : ∀ first ∈ name.head?, ArmaMessage.isType first = false)
      (faulty : ArmaData.Faulty floats data.length data) :
      FaultyMessage floats (name ++ adSeperator :: data)

namespace ArmaMessage

variable {Single : Type} {floats : FloatFormat Single} {name data : Text}

/-- A text without a type in front is a name, or a name with something behind a separator. -/
theorem name_cases {first : Char} {rest : Text} (noType : isType first = false) :
    adSeperator ∉ first :: rest ∨ ∃ name data, first :: rest = name ++ adSeperator :: data ∧
      adSeperator ∉ name ∧ ∀ first ∈ name.head?, isType first = false := by
  by_cases member : adSeperator ∈ first :: rest
  · obtain ⟨name, data, whole, before⟩ := List.eq_append_cons_of_mem member
    refine .inr ⟨name, data, whole, before, fun character isFirst => ?_⟩
    rcases name with _ | ⟨other, name⟩
    · cases isFirst
    · cases isFirst
      rw [List.cons_append] at whole
      rw [← (List.cons.inj whole).1]
      exact noType
  · exact .inl member

theorem parse_name {first : Char} {rest : Text} (noType : isType first = false)
    (noSeperator : adSeperator ∉ first :: rest) :
    parseArmaData floats (first :: rest) = .ok ⟨true, first :: rest, .null⟩ := by
  have goes : ∀ character ∈ first :: rest, decide (character ≠ adSeperator) = true :=
    fun character member => by
      simpa using fun same : character = adSeperator => noSeperator (same ▸ member)
  have taken : (first :: rest).takeWhile (· ≠ adSeperator) = first :: rest :=
    List.takeWhile_eq_self_iff.mpr goes
  have dropped : (first :: rest).dropWhile (· ≠ adSeperator) = [] :=
    List.dropWhile_eq_nil_iff.mpr goes
  simp only [parseArmaData, noType, Bool.false_eq_true, if_false, taken, dropped]

theorem parse_named_nil (noSeperator : adSeperator ∉ name)
    (noType : ∀ first ∈ name.head?, isType first = false) :
    parseArmaData floats (name ++ [adSeperator]) = .error .pastEnd := by
  have goes : ∀ character ∈ name, decide (character ≠ adSeperator) = true :=
    fun character member => by
      simpa using fun same : character = adSeperator => noSeperator (same ▸ member)
  have dropped : (name ++ [adSeperator]).dropWhile (· ≠ adSeperator) = [adSeperator] := by
    rw [List.dropWhile_append_of_pos goes]
    simp
  obtain ⟨first, rest, shape, plain⟩ : ∃ first rest,
      name ++ [adSeperator] = first :: rest ∧ isType first = false := by
    cases name with
    | nil => exact ⟨adSeperator, [], rfl, by decide⟩
    | cons first rest => exact ⟨first, rest ++ [adSeperator], rfl, noType first rfl⟩
  rw [shape] at dropped ⊢
  simp only [parseArmaData, plain, Bool.false_eq_true, if_false, dropped]

theorem parse_typed {first : Char} {rest : Text} (hasType : isType first = true) :
    parseArmaData floats (first :: rest) =
      (ArmaData.buildData floats (first :: rest).length (first :: rest)).map
        (⟨false, [], ·⟩) := by
  simp only [parseArmaData, hasType, if_true]

end ArmaMessage

theorem ArmaData.Faulty.ne_nil {Single : Type} {floats : FloatFormat Single} {depth : ℕ}
    {text : Text} (faulty : Faulty floats depth text) : text ≠ [] := by
  cases depth <;> cases faulty <;> simp

open ArmaData in
theorem FaultyMessage.not_safe {Single : Type} {floats : FloatFormat Single} {text : Text}
    (faulty : FaultyMessage floats text) : ¬Safe (ArmaMessage.parseArmaData floats text) := by
  cases faulty with
  | data isType faulty =>
      rw [ArmaMessage.parse_typed isType, safe_map, safe_buildData_iff floats le_rfl, not_not]
      exact faulty
  | name noSeperator noType =>
      rw [ArmaMessage.parse_named_nil noSeperator noType]
      intro safe
      rcases safe _ rfl with same | same | same <;> cases same
  | call noSeperator noType faulty =>
      rw [ArmaMessage.parse_named floats noSeperator noType faulty.ne_nil, safe_map,
        safe_buildData_iff floats le_rfl, not_not]
      exact faulty

open ArmaData in
/-- Both parsers end with a value, a false result or `ThrowError` on all texts but the faulty
ones: on these they are read past their end, or a number is none. -/
theorem parse_safe_iff {Single : Type} (floats : FloatFormat Single) (text : Text) :
    (Safe (ArmaData.parseArmaData floats text) ↔ ¬Faulty floats text.length text) ∧
      (Safe (ArmaMessage.parseArmaData floats text) ↔ ¬FaultyMessage floats text) := by
  refine ⟨safe_buildData_iff floats le_rfl, fun safe faulty => faulty.not_safe safe, fun fine => ?_⟩
  rcases text with _ | ⟨first, rest⟩
  · intro failure failed
    cases failed
  · cases hasType : ArmaMessage.isType first with
    | true =>
        rw [ArmaMessage.parse_typed hasType, safe_map, safe_buildData_iff floats le_rfl]
        exact fun faulty => fine (.data hasType faulty)
    | false =>
        rcases ArmaMessage.name_cases hasType with noSeperator |
          ⟨name, data, shape, noSeperator, noType⟩
        · rw [ArmaMessage.parse_name hasType noSeperator]
          intro failure failed
          cases failed
        · rw [shape] at fine ⊢
          by_cases none : data = []
          · subst none
            exact absurd (.name noSeperator noType) fine
          · rw [ArmaMessage.parse_named floats noSeperator noType none, safe_map,
              safe_buildData_iff floats le_rfl]
            exact fun faulty => fine (.call noSeperator noType faulty)

/-- An array that closes at once is read past its end, as is one that does not close, and a
call without data behind its separator. -/
theorem empty_array_read_past_end :
    let floats : FloatFormat ℤ := ⟨stoll, fun _ => printInteger⟩
    ArmaData.parseArmaData floats "@[]".toList = .error .pastEnd ∧
      ¬ArmaData.Safe (ArmaData.parseArmaData floats "@[]".toList) ∧
      ArmaData.parseArmaData floats "@[-1".toList = .error .pastEnd ∧
      (ArmaMessage.parseArmaData floats "Connect,".toList).map ArmaMessage.hasFunc =
        .error .pastEnd := by
  intro floats
  have empty : ArmaData.parseArmaData floats "@[]".toList = .error .pastEnd := rfl
  refine ⟨empty, fun safe => ?_, rfl, rfl⟩
  rcases safe _ empty with same | same | same <;> cases same

end OperationFrontLine.Wire
