import OperationFrontLine.Wire.RoundTrip
import OperationFrontLine.Wire.ScriptReader

/-!
# The two implementations agree

The scripts and the extension write the same text for the same tree, and each
of them reads what the other one writes.
-/

namespace OperationFrontLine.Wire

open OperationFrontLine.Library OperationFrontLine.Native

variable {Scalar Single : Type}

/-- A value of the scripts that can be sent, and its tree in the extension. -/
inductive Sent (numbers : ScriptNumbers Scalar) :
    ScriptValue Scalar → ArmaData Single → Prop where
  | scalar {number : ℤ} (small : number.natAbs < 10 ^ 6) :
      Sent numbers (.scalar (numbers.ofInt number)) (.signed number)
  | string {value : Text} (nonempty : value ≠ []) (noUnit : adUnit ∉ value)
      (noArray : adArray ∉ value) : Sent numbers (.string value) (.string value)
  | array {elements : List (ScriptValue Scalar × ArmaData Single)} (nonempty : elements ≠ [])
      (all : ∀ element ∈ elements, Sent numbers element.1 element.2) :
      Sent numbers (.array (elements.map Prod.fst)) (.array (elements.map Prod.snd))

structure FunctionName (name : Text) : Prop where
  nonempty : name ≠ []
  noSeperator : adSeperator ∉ name
  noType : ∀ first ∈ name.head?, ArmaMessage.isType first = false

namespace ScriptValue

variable [DecidableEq Scalar] (numbers : ScriptNumbers Scalar)

theorem deparseElements_eq {elements : List (ScriptValue Scalar)} (nonempty : elements ≠ []) :
    deparseElements numbers elements =
      joined (elements.map (deparseArmaData numbers)) ++ [adSeperator] := by
  induction elements with
  | nil => exact absurd rfl nonempty
  | cons element elements inductionHypothesis =>
      rw [deparseElements]
      cases elements with
      | nil => rfl
      | cons second elements =>
          rw [inductionHypothesis (by simp)]
          simp [joined_cons_cons]

theorem deparse_array {elements : List (ScriptValue Scalar)} (nonempty : elements ≠ []) :
    deparseArmaData numbers (.array elements) =
      arrayText (elements.map (deparseArmaData numbers)) := by
  have positive : elements.length > 0 := List.length_pos_iff.mpr nonempty
  rw [deparseArmaData, deparseElements_eq numbers nonempty]
  have trimmed : (adArray :: adAsLeft :: (joined (elements.map (deparseArmaData numbers)) ++
      [adSeperator])).dropLast =
        adArray :: adAsLeft :: joined (elements.map (deparseArmaData numbers)) := by
    rw [← List.cons_append, ← List.cons_append, List.dropLast_concat]
  simp only [if_pos positive, trimmed]
  rfl

theorem deparse_scalar {number : ℤ} (small : number.natAbs ≤ 2 ^ 24) :
    deparseArmaData numbers (.scalar (numbers.ofInt number)) =
      adSigned :: printGeneral number := by
  rw [deparseArmaData, if_pos (numbers.round_ofInt number small).symm,
    numbers.format_ofInt number small]

end ScriptValue

namespace Sent

variable {numbers : ScriptNumbers Scalar} {value : ScriptValue Scalar} {data : ArmaData Single}

theorem wireSafe (sent : Sent numbers value data) : data.WireSafe := by
  induction sent with
  | scalar small => exact .signed (by omega) (by omega)
  | string nonempty noUnit noArray => exact .string nonempty noUnit noArray
  | array nonempty all inductionHypothesis =>
      refine .array (by simpa using nonempty) fun element member => ?_
      obtain ⟨source, present, rfl⟩ := List.mem_map.mp member
      exact inductionHypothesis source present

theorem all_hasData {elements : List (ScriptValue Scalar × ArmaData Single)}
    (all : ∀ element ∈ elements, Sent numbers element.1 element.2) :
    ∀ data ∈ elements.map Prod.snd, data.hasData = true := by
  intro data member
  obtain ⟨element, present, rfl⟩ := List.mem_map.mp member
  exact (all element present).wireSafe.hasData

theorem deparse_eq [DecidableEq Scalar] (sent : Sent numbers value data)
    (floats : FloatFormat Single) :
    value.deparseArmaData numbers = data.deparseArmaData floats := by
  induction sent with
  | scalar small =>
      rw [ScriptValue.deparse_scalar numbers (by omega), printGeneral_small small,
        ArmaData.deparseArmaData]
  | string => rfl
  | array nonempty all inductionHypothesis =>
      rw [ScriptValue.deparse_array numbers (by simpa using nonempty),
        ArmaData.deparse_array floats (by simpa using nonempty) (all_hasData all),
        List.map_map, List.map_map]
      exact congrArg arrayText (List.map_congr_left inductionHypothesis)

theorem scriptEncodes (sent : Sent numbers value data) (floats : FloatFormat Single) :
    Encodes (ScriptValue.Leaf numbers) .array (data.deparseArmaData floats) value := by
  induction sent with
  | @scalar number small =>
      rw [ArmaData.deparseArmaData, ← numbers.parseNumber_printInteger number (by omega)]
      exact .leaf (.scalar (.inr (.inr rfl)) (plain_printInteger number))
  | string nonempty noUnit noArray => exact .leaf (.string noUnit)
  | @array elements nonempty all inductionHypothesis =>
      rw [ArmaData.deparse_array floats (by simpa using nonempty) (all_hasData all),
        List.map_map]
      exact Encodes.arrayMap _ Prod.fst nonempty inductionHypothesis

end Sent

theorem ArmaMessage.parse_named (floats : FloatFormat Single) {name : Text}
    (noSeperator : adSeperator ∉ name)
    (noType : ∀ first ∈ name.head?, ArmaMessage.isType first = false) {data : Text}
    (some : data ≠ []) :
    ArmaMessage.parseArmaData floats (name ++ adSeperator :: data) =
      (ArmaData.buildData floats data.length data).map (⟨true, name, ·⟩) := by
  have goes : ∀ character ∈ name, decide (character ≠ adSeperator) = true :=
    fun character member => by
      simpa using fun same : character = adSeperator => noSeperator (same ▸ member)
  have taken : (name ++ adSeperator :: data).takeWhile (· ≠ adSeperator) = name := by
    rw [List.takeWhile_append_of_pos goes]
    simp
  have dropped : (name ++ adSeperator :: data).dropWhile (· ≠ adSeperator) =
      adSeperator :: data := by
    rw [List.dropWhile_append_of_pos goes]
    simp
  obtain ⟨first, rest, shape, plain⟩ : ∃ first rest,
      name ++ adSeperator :: data = first :: rest ∧ ArmaMessage.isType first = false := by
    cases name with
    | nil => exact ⟨adSeperator, data, rfl, by decide⟩
    | cons first rest => exact ⟨first, rest ++ adSeperator :: data, rfl, noType first rfl⟩
  rw [shape] at taken dropped ⊢
  simp only [ArmaMessage.parseArmaData, plain, Bool.false_eq_true, if_false, taken, dropped]

theorem ArmaMessage.parse_call (floats : FloatFormat Single) {name : Text}
    (function : FunctionName name) {data : Text} (some : data ≠ []) :
    ArmaMessage.parseArmaData floats (name ++ adSeperator :: data) =
      (ArmaData.buildData floats data.length data).map (⟨true, name, ·⟩) :=
  ArmaMessage.parse_named floats function.noSeperator function.noType some

/-- What the scripts send, the extension reads as the tree of the value, and
what the extension sends back, the scripts read as the value again. -/
theorem implementations_agree [DecidableEq Scalar] (numbers : ScriptNumbers Scalar)
    (floats : FloatFormat Single) {values : List (ScriptValue Scalar)}
    {elements : List (ArmaData Single)} (sent : Sent numbers (.array values) (.array elements))
    {name : Text} (function : FunctionName name) :
    ArmaMessage.parseArmaData floats
        (name ++ adSeperator :: (ScriptValue.array values).deparseArmaData numbers) =
      .ok ⟨true, name, .array elements⟩ ∧
    ScriptValue.parseArmaData numbers ((ArmaData.array elements).deparseArmaData floats) =
      some (.array values) := by
  constructor
  · have read := ArmaData.parseArmaData_deparseArmaData floats sent.wireSafe
    have some : (ScriptValue.array values).deparseArmaData numbers ≠ [] := by
      simp [ScriptValue.deparseArmaData]
    rw [ArmaMessage.parse_call floats function some, sent.deparse_eq floats]
    rw [ArmaData.parseArmaData] at read
    rw [read]
    rfl
  · exact ScriptValue.parseArmaData_of_encodes (sent.scriptEncodes floats)

/-- A call with a negative number and a string full of syntax. -/
theorem implementations_agree_call :
    let floats : FloatFormat ℤ := ⟨stoll, fun _ => printInteger⟩
    let values : List (ScriptValue ℤ) := [.scalar (-5), .array [.string "a],[$".toList]]
    let elements : List (ArmaData ℤ) := [.signed (-5), .array [.string "a],[$".toList]]
    ArmaMessage.parseArmaData floats "Connect,@[--5,@[$\x1fa],[$\x1f]]".toList =
      .ok ⟨true, "Connect".toList, .array elements⟩ ∧
    ScriptValue.parseArmaData wholeNumbers ((ArmaData.array elements).deparseArmaData floats) =
      some (.array values) := by
  intro floats values elements
  have inner : Sent wholeNumbers (.array [.string "a],[$".toList])
      (.array [.string "a],[$".toList] : ArmaData ℤ) := by
    refine @Sent.array _ _ _ [(.string "a],[$".toList, .string "a],[$".toList)]
      (by simp) fun element member => ?_
    rw [List.mem_singleton.mp member]
    exact .string (by decide) (by decide) (by decide)
  have sent : Sent wholeNumbers (.array values) (.array elements) := by
    refine @Sent.array _ _ _ [(.scalar (-5), .signed (-5)), (.array _, .array _)]
      (by simp) fun element member => ?_
    simp only [List.mem_cons, List.not_mem_nil, or_false] at member
    rcases member with rfl | rfl
    · exact @Sent.scalar _ _ wholeNumbers (-5) (by decide)
    · exact inner
  have text : "Connect,@[--5,@[$\x1fa],[$\x1f]]".toList = "Connect".toList ++ adSeperator ::
      (ScriptValue.array values).deparseArmaData wholeNumbers := by decide +kernel
  rw [text]
  exact implementations_agree wholeNumbers floats sent
    ⟨by decide, by decide, by rintro first ⟨⟩; decide⟩

end OperationFrontLine.Wire
