import OperationFrontLine.Wire.Agreement

/-!
# Empty arrays in the scripts

`PCS_ParseArmaData` knows the empty array by the whole text it is given.  The
text of an empty array inside another one comes as codes instead, and the
closing bracket taken off, no field is left to parse.
-/

namespace OperationFrontLine.Wire

open OperationFrontLine.Library

namespace ScriptValue

variable {Scalar : Type}

/-- Values of whole numbers and strings, nested to any depth. -/
inductive Carried (numbers : ScriptNumbers Scalar) : ScriptValue Scalar → Prop where
  | scalar {number : ℤ} (small : number.natAbs < 10 ^ 6) :
      Carried numbers (.scalar (numbers.ofInt number))
  | string {value : Text} (noUnit : adUnit ∉ value) : Carried numbers (.string value)
  | array {elements : List (ScriptValue Scalar)}
      (all : ∀ element ∈ elements, Carried numbers element) : Carried numbers (.array elements)

/-- Some array of the value has no elements. -/
inductive Hollow : ScriptValue Scalar → Prop where
  | empty : Hollow (.array [])
  | inside {elements : List (ScriptValue Scalar)} {element : ScriptValue Scalar}
      (member : element ∈ elements) (hollow : Hollow element) : Hollow (.array elements)

theorem hollow_array_iff {elements : List (ScriptValue Scalar)} :
    Hollow (.array elements) ↔ elements = [] ∨ ∃ element ∈ elements, Hollow element := by
  constructor
  · intro hollow
    cases hollow with
    | empty => exact .inl rfl
    | inside member hollow => exact .inr ⟨_, member, hollow⟩
  · rintro (rfl | ⟨element, member, hollow⟩)
    · exact .empty
    · exact .inside member hollow

variable {numbers : ScriptNumbers Scalar} {parse : Text → Option (ScriptValue Scalar)}

theorem fieldLoop_joined_none {texts : List Text} (copied : ∀ text ∈ texts, Copied parse 0 text)
    (unread : ∃ text ∈ texts, parse text = none) (fields : List (ScriptValue Scalar)) :
    ((fieldLoop parse fields true 0 [] (joined texts ++ [adAsRight])).bind
      fun (fields, field) =>
        (parse field.dropLast).map fun value => ScriptValue.array (fields ++ [value])) = none := by
  induction texts generalizing fields with
  | nil => simp at unread
  | cons text texts inductionHypothesis =>
      have first := copied text (by simp)
      cases texts with
      | nil =>
          have none : parse text = none := by simpa using unread
          have single : joined [text] = text := rfl
          rw [single, first _ _ _ _ le_rfl]
          simp [fieldLoop, show adAsRight ≠ adUnit by decide, none]
      | cons second texts =>
          rw [joined_cons_cons, List.append_assoc, List.cons_append, first _ _ _ _ le_rfl,
            List.nil_append, fieldLoop, if_neg (by decide), if_neg (by decide),
            if_pos (by decide)]
          cases parsed : parse text with
          | none => rfl
          | some value =>
              apply inductionHypothesis
              · intro other member
                exact copied other (List.mem_cons_of_mem _ member)
              · obtain ⟨other, member, none⟩ := unread
                rcases List.mem_cons.mp member with rfl | later
                · simp [parsed] at none
                · exact ⟨other, later, none⟩

variable [DecidableEq Scalar]

theorem deparse_length_pos (value : ScriptValue Scalar) :
    0 < (deparseArmaData numbers value).length := by
  cases value with
  | scalar =>
      rw [deparseArmaData]
      split <;> simp
  | array => simp [deparseArmaData]
  | _ => simp [deparseArmaData]

namespace Carried

theorem leaf_scalar {number : ℤ} (small : number.natAbs < 10 ^ 6) :
    Leaf numbers (deparseArmaData numbers (.scalar (numbers.ofInt number)))
      (.scalar (numbers.ofInt number)) := by
  rw [deparse_scalar numbers (by omega), printGeneral_small small,
    ← numbers.parseNumber_printInteger number (by omega)]
  exact .scalar (.inr (.inr rfl)) (plain_printInteger number)

theorem copied {value : ScriptValue Scalar} (carried : Carried numbers value)
    (parse : Text → Option (ScriptValue Scalar)) :
    Copied parse 0 (deparseArmaData numbers value) := by
  induction carried with
  | scalar small => exact (leaf_scalar small).copied parse
  | @string value noUnit =>
      have leaf : Leaf numbers (deparseArmaData numbers (.string value)) (.string value) :=
        .string noUnit
      exact leaf.copied parse
  | @array elements all inductionHypothesis =>
      have text : deparseArmaData numbers (.array elements) =
          arrayText (elements.map (deparseArmaData numbers)) := by
        cases elements with
        | nil => rfl
        | cons => exact deparse_array numbers (by simp)
      rw [text]
      apply Copied.array
      intro text member
      obtain ⟨element, present, rfl⟩ := List.mem_map.mp member
      exact inductionHypothesis element present

theorem encodes {value : ScriptValue Scalar} (carried : Carried numbers value)
    (solid : ¬Hollow value) :
    Encodes (Leaf numbers) .array (deparseArmaData numbers value) value := by
  induction carried with
  | scalar small => exact .leaf (leaf_scalar small)
  | string noUnit => exact .leaf (.string noUnit)
  | @array elements all inductionHypothesis =>
      rw [hollow_array_iff, not_or, not_exists] at solid
      rw [deparse_array numbers solid.1]
      have elementEncodes : ∀ element ∈ elements,
          Encodes (Leaf numbers) .array (deparseArmaData numbers element) element :=
        fun element member =>
          inductionHypothesis element member fun hollow => solid.2 element ⟨member, hollow⟩
      simpa using Encodes.arrayMap (deparseArmaData numbers) id solid.1 elementEncodes

theorem parseCodes_hollow {value : ScriptValue Scalar} (carried : Carried numbers value)
    (hollow : Hollow value) (depth : ℕ) :
    parseCodes numbers depth (deparseArmaData numbers value) = none := by
  induction hollow generalizing depth with
  | empty =>
      cases depth with
      | zero => rfl
      | succ depth =>
          have noCodes : parseCodes numbers depth [] = none := by cases depth <;> rfl
          exact congrArg (Option.map _) noCodes
  | @inside elements element member hollow inductionHypothesis =>
      cases carried with
      | array all =>
          have stops : ∀ parse : Text → Option (ScriptValue Scalar),
              parse (deparseArmaData numbers element) = none →
                parseWith numbers parse (deparseArmaData numbers (.array elements)) = none := by
            intro parse none
            rw [deparse_array numbers (List.ne_nil_of_mem member), arrayText, parseWith,
              if_pos rfl]
            apply fieldLoop_joined_none
            · intro text present
              obtain ⟨other, otherMember, rfl⟩ := List.mem_map.mp present
              exact (all other otherMember).copied parse
            · exact ⟨_, List.mem_map_of_mem member, none⟩
          cases depth with
          | zero => exact stops _ rfl
          | succ depth => exact stops _ (inductionHypothesis (all element member) depth)

end Carried

/-- An array is read back exactly when none of the arrays inside it is empty. -/
theorem parse_deparse_iff (numbers : ScriptNumbers Scalar) {elements : List (ScriptValue Scalar)}
    (carried : Carried numbers (.array elements)) :
    parseArmaData numbers (deparseArmaData numbers (.array elements)) = some (.array elements) ↔
      ∀ element ∈ elements, ¬Hollow element := by
  by_cases empty : elements = []
  · subst empty
    simp [parseArmaData, deparseArmaData, deparseElements]
  · constructor
    · intro read element member hollow
      have long : deparseArmaData numbers (.array elements) ≠ [adArray, adAsLeft, adAsRight] := by
        rw [deparse_array numbers empty]
        intro same
        have length := congrArg List.length same
        have text : 0 < (deparseArmaData numbers element).length := deparse_length_pos element
        have shorter := length_le_joined
          (List.mem_map_of_mem (f := deparseArmaData numbers) member)
        simp only [length_arrayText, List.length_cons, List.length_nil] at length
        omega
      rw [parseArmaData, if_neg long,
        carried.parseCodes_hollow (.inside member hollow)] at read
      cases read
    · intro solid
      apply parseArmaData_of_encodes
      apply carried.encodes
      rw [hollow_array_iff, not_or, not_exists]
      exact ⟨empty, fun element inside => solid element inside.1 inside.2⟩

theorem parse_deparse_iff_nested :
    let value : List (ScriptValue ℤ) := [.scalar (-5), .array [.string [], .string "],[".toList]]
    parseArmaData wholeNumbers (deparseArmaData wholeNumbers (.array value)) =
      some (.array value) := by
  intro value
  refine (parse_deparse_iff wholeNumbers (.array fun element member => ?_)).mpr
    fun element member => ?_
  all_goals simp only [value, List.mem_cons, List.not_mem_nil, or_false] at member
  · rcases member with rfl | rfl
    · exact @Carried.scalar _ wholeNumbers (-5) (by decide)
    · refine .array fun element member => ?_
      simp only [List.mem_cons, List.not_mem_nil, or_false] at member
      rcases member with rfl | rfl
      · exact .string (by decide)
      · exact .string (by decide)
  · rcases member with rfl | rfl
    · intro hollow
      cases hollow
    · rw [hollow_array_iff]
      rintro (empty | ⟨element, member, hollow⟩)
      · cases empty
      · simp only [List.mem_cons, List.not_mem_nil, or_false] at member
        rcases member with rfl | rfl <;> cases hollow

/-- The array that holds an empty array is printed as `@[@[]]`. -/
theorem nested_empty_array_lost :
    ¬∀ elements : List (ScriptValue ℤ), Carried wholeNumbers (.array elements) →
      parseArmaData wholeNumbers (deparseArmaData wholeNumbers (.array elements)) =
        some (.array elements) := by
  intro survives
  have carried : Carried wholeNumbers (.array [.array []]) := by
    refine .array fun element member => ?_
    rw [List.mem_singleton.mp member]
    exact .array fun element member => absurd member (by simp)
  have stops : parseArmaData wholeNumbers
      (deparseArmaData wholeNumbers (.array [.array []])) = none := rfl
  have read := survives [.array []] carried
  rw [stops] at read
  cases read

end ScriptValue

end OperationFrontLine.Wire
