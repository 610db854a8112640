import OperationFrontLine.Wire.Script

/-!
# `PCS_ParseArmaData` reads the format

Inside brackets, and inside the quotes of a string, the loop copies; a comma
outside of them is the end of a field.
-/

namespace OperationFrontLine.Wire

open OperationFrontLine.Library

namespace ScriptValue

variable {Scalar : Type}

inductive Leaf (numbers : ScriptNumbers Scalar) : Text → ScriptValue Scalar → Prop where
  | string {value : Text} (noUnit : adUnit ∉ value) :
      Leaf numbers (adString :: adUnit :: (value ++ [adUnit])) (.string value)
  | scalar {type : Char} {word : Text}
      (number : type = adFloat ∨ type = adUnsigned ∨ type = adSigned)
      (plains : ∀ character ∈ word, Plain character) :
      Leaf numbers (type :: word) (.scalar (numbers.parseNumber word))
  | text {word : Text} (plains : ∀ character ∈ word, Plain character) :
      Leaf numbers (adAddress :: word) (.text word)

/-- From this bracket level on, the loop copies the word into its field. -/
def Copied (parse : Text → Option (ScriptValue Scalar)) (least : ℤ) (word : Text) : Prop :=
  ∀ fields arr field rest, least ≤ arr →
    fieldLoop parse fields true arr field (word ++ rest) =
      fieldLoop parse fields true arr (field ++ word) rest

namespace Copied

variable {parse : Text → Option (ScriptValue Scalar)} {least : ℤ} {first second word : Text}

theorem nil : Copied parse least [] := fun _ _ _ _ _ => by simp

theorem append (firstCopied : Copied parse least first) (secondCopied : Copied parse least second) :
    Copied parse least (first ++ second) := by
  intro fields arr field rest level
  rw [List.append_assoc, firstCopied _ _ _ _ level, secondCopied _ _ _ _ level, List.append_assoc]

theorem mono {more : ℤ} (copied : Copied parse least word) (le : least ≤ more) :
    Copied parse more word :=
  fun fields arr field rest level => copied fields arr field rest (le.trans level)

theorem plain {character : Char} (plain : Plain character) : Copied parse least [character] := by
  intro fields arr field rest _
  simp only [Plain, List.mem_cons, List.not_mem_nil, or_false, not_or] at plain
  obtain ⟨-, noUnit, noSeperator, noRight, noLeft⟩ := plain
  rw [List.singleton_append, fieldLoop, if_neg noUnit, if_neg (by simp [noLeft, noRight]),
    if_neg (by simp [noSeperator])]

theorem plainWord (plains : ∀ character ∈ word, Plain character) : Copied parse least word := by
  induction word with
  | nil => exact nil
  | cons character word inductionHypothesis =>
      exact (plain (plains character (by simp))).append
        (inductionHypothesis fun other member => plains other (List.mem_cons_of_mem _ member))

theorem seperator (inside : 1 ≤ least) : Copied parse least [adSeperator] := by
  intro fields arr field rest level
  rw [List.singleton_append, fieldLoop, if_neg (by decide), if_neg (by decide),
    if_neg (by simp; omega)]

theorem quoted (noUnit : adUnit ∉ word) : Copied parse least (adUnit :: (word ++ [adUnit])) := by
  intro fields arr field rest _
  have copied : ∀ field, fieldLoop parse fields false arr field (word ++ adUnit :: rest) =
      fieldLoop parse fields true arr (field ++ (word ++ [adUnit])) rest := by
    induction word with
    | nil => exact fun field => by simp [fieldLoop]
    | cons character word inductionHypothesis =>
        intro field
        have different : character ≠ adUnit := fun same => noUnit (by simp [same])
        have fewer : adUnit ∉ word := fun member => noUnit (by simp [member])
        rw [List.cons_append, fieldLoop, if_neg different, if_neg (by simp), if_neg (by simp),
          inductionHypothesis fewer]
        simp
  rw [List.cons_append, List.append_assoc, List.singleton_append, fieldLoop, if_pos rfl,
    Bool.not_true, copied]
  simp

theorem bracketed (copied : Copied parse (least + 1) word) :
    Copied parse least (adAsLeft :: (word ++ [adAsRight])) := by
  intro fields arr field rest level
  have left : arr + 92 - (adAsLeft.toNat : ℤ) = arr + 1 := by
    simp [adAsLeft]
    omega
  have right : arr + 1 + 92 - (adAsRight.toNat : ℤ) = arr := by
    simp [adAsRight]
    omega
  rw [List.cons_append, List.append_assoc, List.singleton_append, fieldLoop,
    if_neg (by decide), if_pos (by decide), left, copied _ _ _ _ (by omega), fieldLoop,
    if_neg (by decide), if_pos (by decide), right]
  simp

theorem joined {texts : List Text} (inside : 1 ≤ least)
    (all : ∀ text ∈ texts, Copied parse least text) :
    Copied parse least (Wire.joined texts) := by
  induction texts with
  | nil => exact nil
  | cons text texts inductionHypothesis =>
      have first := all text (by simp)
      cases texts with
      | nil => exact first
      | cons second texts =>
          have later := inductionHypothesis fun other member =>
            all other (List.mem_cons_of_mem _ member)
          exact first.append ((seperator inside).append later)

theorem array {texts : List Text} (all : ∀ text ∈ texts, Copied parse 0 text) :
    Copied parse 0 (arrayText texts) := by
  have type : Copied parse 0 [adArray] := fun fields arr field rest _ => by
    rw [List.singleton_append, fieldLoop, if_neg (by decide), if_neg (by decide),
      if_neg fun comma => absurd comma.1 (by decide)]
  apply type.append
  apply bracketed
  apply joined (by decide)
  intro text member
  exact (all text member).mono (by decide)

end Copied

variable {numbers : ScriptNumbers Scalar}

theorem Leaf.copied {text : Text} {value : ScriptValue Scalar} (leaf : Leaf numbers text value)
    (parse : Text → Option (ScriptValue Scalar)) : Copied parse 0 text := by
  cases leaf with
  | string noUnit => exact (Copied.plain (by decide : Plain adString)).append (.quoted noUnit)
  | @scalar type word number plains =>
      have plain : Plain type := by
        rcases number with rfl | rfl | rfl <;> decide
      exact (Copied.plain plain).append (.plainWord plains)
  | text plains => exact (Copied.plain (by decide : Plain adAddress)).append (.plainWord plains)

theorem copied_of_encodes {text : Text} {value : ScriptValue Scalar}
    (encodes : Encodes (Leaf numbers) array text value)
    (parse : Text → Option (ScriptValue Scalar)) : Copied parse 0 text := by
  induction encodes with
  | leaf leaf => exact leaf.copied parse
  | array nonempty all inductionHypothesis =>
      apply Copied.array
      intro text member
      obtain ⟨element, present, rfl⟩ := List.mem_map.mp member
      exact inductionHypothesis element present

theorem filter_unit {word : Text} (noUnit : adUnit ∉ word) :
    word.filter (· ≠ adUnit) = word :=
  List.filter_eq_self.mpr fun character member => by
    simpa using fun same : character = adUnit => noUnit (same ▸ member)

theorem Leaf.read {text : Text} {value : ScriptValue Scalar} (leaf : Leaf numbers text value)
    (parse : Text → Option (ScriptValue Scalar)) : parseWith numbers parse text = some value := by
  cases leaf with
  | @string value noUnit =>
      have quotes : (adUnit :: (value ++ [adUnit])).filter (· ≠ adUnit) = value := by
        rw [List.filter_cons_of_neg (by simp), List.filter_append, filter_unit noUnit]
        simp
      rw [parseWith, if_neg (by decide), if_pos rfl, quotes]
  | @scalar type word number plains =>
      have notArray : type ≠ adArray := by rcases number with rfl | rfl | rfl <;> decide
      have notString : type ≠ adString := by rcases number with rfl | rfl | rfl <;> decide
      have notAddress : type ≠ adAddress := by rcases number with rfl | rfl | rfl <;> decide
      rw [parseWith, if_neg notArray, if_neg notString, if_neg notAddress, if_pos number]
  | text plains =>
      rw [parseWith, if_neg (by decide), if_neg (by decide), if_pos rfl,
        filter_unit fun member => plains adUnit member (by simp)]

/-- The fields of an array, the last of them still with the closing bracket. -/
theorem fieldLoop_joined {parse : Text → Option (ScriptValue Scalar)}
    {elements : List (Text × ScriptValue Scalar)} (nonempty : elements ≠ [])
    (copied : ∀ element ∈ elements, Copied parse 0 element.1)
    (read : ∀ element ∈ elements, parse element.1 = some element.2)
    (fields : List (ScriptValue Scalar)) :
    ((fieldLoop parse fields true 0 [] (joined (elements.map Prod.fst) ++ [adAsRight])).bind
      fun (fields, field) => (parse field.dropLast).map fun value => array (fields ++ [value])) =
      some (array (fields ++ elements.map Prod.snd)) := by
  induction elements generalizing fields with
  | nil => exact absurd rfl nonempty
  | cons element elements inductionHypothesis =>
      have first := copied element (by simp)
      cases elements with
      | nil =>
          have single : joined ([element].map Prod.fst) = element.1 := rfl
          rw [single, first _ _ _ _ le_rfl]
          simp [fieldLoop, show adAsRight ≠ adUnit by decide, read element (by simp)]
      | cons second elements =>
          have later := inductionHypothesis (by simp)
            (fun other member => copied other (List.mem_cons_of_mem _ member))
            (fun other member => read other (List.mem_cons_of_mem _ member))
            (fields ++ [element.2])
          rw [List.map_cons, List.map_cons, joined_cons_cons, ← List.map_cons,
            List.append_assoc, List.cons_append, first _ _ _ _ le_rfl, List.nil_append,
            fieldLoop, if_neg (by decide), if_neg (by decide), if_pos (by decide),
            read element (by simp), Option.bind_some, later]
          simp

theorem parseWith_arrayText {parse : Text → Option (ScriptValue Scalar)}
    {elements : List (Text × ScriptValue Scalar)} (nonempty : elements ≠ [])
    (all : ∀ element ∈ elements, Encodes (Leaf numbers) array element.1 element.2)
    (read : ∀ element ∈ elements, parse element.1 = some element.2) :
    parseWith numbers parse (arrayText (elements.map Prod.fst)) =
      some (array (elements.map Prod.snd)) := by
  rw [arrayText, parseWith, if_pos rfl]
  exact fieldLoop_joined nonempty
    (fun element member => copied_of_encodes (all element member) parse) read []

theorem parseCodes_of_encodes {text : Text} {value : ScriptValue Scalar}
    (encodes : Encodes (Leaf numbers) array text value) :
    ∀ depth, text.length ≤ depth → parseCodes numbers depth text = some value := by
  induction encodes with
  | leaf leaf =>
      intro depth _
      cases depth with
      | zero => exact leaf.read _
      | succ depth => exact leaf.read _
  | @array elements nonempty all inductionHypothesis =>
      intro depth long
      rw [length_arrayText] at long
      obtain ⟨depth, rfl⟩ : ∃ less, depth = less + 1 := ⟨depth - 1, by omega⟩
      refine parseWith_arrayText nonempty all fun element member =>
        inductionHypothesis element member depth ?_
      have shorter := length_le_joined (List.mem_map_of_mem (f := Prod.fst) member)
      omega

theorem ne_empty_of_encodes {text : Text} {value : ScriptValue Scalar}
    (encodes : Encodes (Leaf numbers) array text value) :
    text ≠ [adArray, adAsLeft, adAsRight] := by
  have nonempty : ∀ {text : Text} {value : ScriptValue Scalar},
      Encodes (Leaf numbers) array text value → 0 < text.length := by
    intro text value encodes
    cases encodes with
    | leaf leaf => cases leaf <;> simp
    | array => simp
  cases encodes with
  | leaf leaf =>
      cases leaf with
      | string => simp [show adString ≠ adArray by decide]
      | scalar number =>
          rcases number with rfl | rfl | rfl <;> simp [adArray, adFloat, adUnsigned, adSigned]
      | text => simp [show adAddress ≠ adArray by decide]
  | @array elements some all =>
      obtain ⟨element, elements, rfl⟩ := List.exists_cons_of_ne_nil some
      have first := nonempty (all element (by simp))
      have longer := length_le_joined
        (List.mem_map_of_mem (f := Prod.fst) (List.mem_cons_self (a := element) (l := elements)))
      intro same
      have length := congrArg List.length same
      simp only [length_arrayText, List.length_cons, List.length_nil] at length longer
      omega

theorem parseArmaData_of_encodes {text : Text} {value : ScriptValue Scalar}
    (encodes : Encodes (Leaf numbers) array text value) :
    parseArmaData numbers text = some value := by
  rw [parseArmaData, if_neg (ne_empty_of_encodes encodes)]
  exact parseCodes_of_encodes encodes _ le_rfl

/-! ### Texts that were not meant as one -/

/-- A text that is taken for one element where it stands in an array, and read as a value. -/
structure Readable (numbers : ScriptNumbers Scalar) (text : Text) (value : ScriptValue Scalar) :
    Prop where
  copied : ∀ parse : Text → Option (ScriptValue Scalar), Copied parse 0 text
  read : ∀ depth, text.length ≤ depth → parseCodes numbers depth text = some value
  nonempty : text ≠ []

namespace Readable

theorem leaf {text : Text} {value : ScriptValue Scalar} (leaf : Leaf numbers text value) :
    Readable numbers text value where
  copied := leaf.copied
  read depth _ := by
    cases depth with
    | zero => exact leaf.read _
    | succ depth => exact leaf.read _
  nonempty := by cases leaf <;> simp

theorem number {type : Char} {word : Text}
    (isNumber : type = adFloat ∨ type = adUnsigned ∨ type = adSigned)
    (copied : ∀ parse : Text → Option (ScriptValue Scalar), Copied parse 0 word) :
    Readable numbers (type :: word) (.scalar (numbers.parseNumber word)) where
  copied parse := by
    have plain : Plain type := by rcases isNumber with rfl | rfl | rfl <;> decide
    exact (Copied.plain plain).append (copied parse)
  read depth _ := by
    have notArray : type ≠ adArray := by rcases isNumber with rfl | rfl | rfl <;> decide
    have notString : type ≠ adString := by rcases isNumber with rfl | rfl | rfl <;> decide
    have notAddress : type ≠ adAddress := by rcases isNumber with rfl | rfl | rfl <;> decide
    have first (parse : Text → Option (ScriptValue Scalar)) :
        parseWith numbers parse (type :: word) = some (.scalar (numbers.parseNumber word)) := by
      rw [parseWith, if_neg notArray, if_neg notString, if_neg notAddress, if_pos isNumber]
    cases depth with
    | zero => exact first _
    | succ depth => exact first _
  nonempty := List.cons_ne_nil _ _

variable {elements : List (Text × ScriptValue Scalar)}

theorem array (some_element : elements ≠ [])
    (all : ∀ element ∈ elements, Readable numbers element.1 element.2) :
    Readable numbers (arrayText (elements.map Prod.fst)) (.array (elements.map Prod.snd)) where
  copied parse := by
    apply Copied.array
    intro text member
    obtain ⟨element, present, rfl⟩ := List.mem_map.mp member
    exact (all element present).copied parse
  read depth long := by
    rw [length_arrayText] at long
    obtain ⟨depth, rfl⟩ : ∃ less, depth = less + 1 := ⟨depth - 1, by omega⟩
    rw [parseCodes, arrayText, parseWith, if_pos rfl]
    refine fieldLoop_joined some_element (fun element member => (all element member).copied _)
      (fun element member => (all element member).read depth ?_) []
    have shorter := length_le_joined (List.mem_map_of_mem (f := Prod.fst) member)
    omega
  nonempty := by simp [arrayText]

theorem parseArmaData_array (some_element : elements ≠ [])
    (all : ∀ element ∈ elements, Readable numbers element.1 element.2) :
    parseArmaData numbers (arrayText (elements.map Prod.fst)) =
      some (.array (elements.map Prod.snd)) := by
  have other : arrayText (elements.map Prod.fst) ≠ [adArray, adAsLeft, adAsRight] := by
    obtain ⟨element, elements, rfl⟩ := List.exists_cons_of_ne_nil some_element
    have first := List.length_pos_of_ne_nil (all element (by simp)).nonempty
    have longer := length_le_joined
      (List.mem_map_of_mem (f := Prod.fst) (List.mem_cons_self (a := element) (l := elements)))
    intro same
    have length := congrArg List.length same
    simp only [length_arrayText, List.length_cons, List.length_nil] at length longer
    omega
  rw [parseArmaData, if_neg other]
  exact (array some_element all).read _ le_rfl

end Readable

/-- An array that is closed and another one that is opened stay in one element. -/
theorem Copied.reopened {parse : Text → Option (ScriptValue Scalar)} {least : ℤ} :
    Copied parse least [adAsRight, adArray, adAsLeft] := by
  intro fields arr field rest _
  have level : arr + 92 - (adAsRight.toNat : ℤ) + 92 - (adAsLeft.toNat : ℤ) = arr := by
    simp [adAsRight, adAsLeft]
    omega
  simp only [List.cons_append, List.nil_append]
  rw [fieldLoop, if_neg (by decide), if_pos (by decide), fieldLoop, if_neg (by decide),
    if_neg (by decide), if_neg fun comma => absurd comma.1 (by decide), fieldLoop,
    if_neg (by decide), if_pos (by decide), level]
  simp

end ScriptValue

end OperationFrontLine.Wire
