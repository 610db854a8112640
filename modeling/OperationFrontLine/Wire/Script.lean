import OperationFrontLine.Library.GeneralFormat
import OperationFrontLine.Wire.Format

/-!
# The wire format in the scripts

`PCS_DeparseArmaData` and `PCS_ParseArmaData`.  Strings are the lists of their
characters, as `toArray` gives them, and `none` stands for a script error.
-/

namespace OperationFrontLine.Wire

open OperationFrontLine.Library

/-- The numbers of the script engine, and what it promises about whole ones. -/
structure ScriptNumbers (Scalar : Type) where
  ofInt : ℤ → Scalar
  round : Scalar → Scalar
  /-- `format ["%1", scalar]` -/
  format : Scalar → Text
  parseNumber : Text → Scalar
  round_ofInt : ∀ number : ℤ, number.natAbs ≤ 2 ^ 24 → round (ofInt number) = ofInt number
  format_ofInt : ∀ number : ℤ, number.natAbs ≤ 2 ^ 24 →
    format (ofInt number) = printGeneral number
  parseNumber_printInteger : ∀ number : ℤ, number.natAbs ≤ 2 ^ 24 →
    parseNumber (printInteger number) = ofInt number

/-- A script engine without fractions. -/
def wholeNumbers : ScriptNumbers ℤ where
  ofInt := id
  round := id
  format := printGeneral
  parseNumber text := ((readInteger 10 text).map (·.1)).getD 0
  round_ofInt _ _ := rfl
  format_ofInt _ _ := rfl
  parseNumber_printInteger number _ := by
    have read := readInteger_printInteger number (stops_nil 10)
    rw [List.append_nil] at read
    simp [read]

inductive ScriptValue (Scalar : Type) where
  | scalar (value : Scalar)
  | bool (value : Bool)
  | string (value : Text)
  | text (value : Text)
  | array (elements : List (ScriptValue Scalar))

namespace ScriptValue

variable {Scalar : Type} (numbers : ScriptNumbers Scalar)

section Deparse

variable [DecidableEq Scalar]

mutual

def deparseArmaData : ScriptValue Scalar → Text
  | array elements =>
      let opened := adArray :: adAsLeft :: deparseElements elements
      -- the last comma goes
      (if elements.length > 0 then opened.dropLast else opened) ++ [adAsRight]
  | bool value => [adUnsigned, if value then '1' else '0']
  | scalar value =>
      if value = numbers.round value then
        adSigned :: numbers.format value
      else
        adFloat :: numbers.format value
  | text value => adAddress :: value
  | string value => adString :: adUnit :: (value ++ [adUnit])

def deparseElements : List (ScriptValue Scalar) → Text
  | [] => []
  | element :: elements =>
      deparseArmaData element ++ adSeperator :: deparseElements elements

end

end Deparse

/-- The loop over the characters of an array: the fields parsed so far, and the
last one, which still has to be. -/
def fieldLoop (parse : Text → Option (ScriptValue Scalar)) :
    (fields : List (ScriptValue Scalar)) → (unpause : Bool) → (arr : ℤ) → (field : Text) →
      Text → Option (List (ScriptValue Scalar) × Text)
  | fields, _, _, field, [] => some (fields, field)
  | fields, unpause, arr, field, character :: rest =>
      if character = adUnit then
        fieldLoop parse fields (!unpause) arr (field ++ [character]) rest
      else if (character = adAsLeft ∨ character = adAsRight) ∧ unpause = true then
        -- the brackets are 91 and 93
        fieldLoop parse fields unpause (arr + 92 - character.toNat) (field ++ [character]) rest
      else if character = adSeperator ∧ unpause = true ∧ arr < 1 then
        (parse field).bind fun value => fieldLoop parse (fields ++ [value]) unpause arr [] rest
      else
        fieldLoop parse fields unpause arr (field ++ [character]) rest

/-- One call of `PCS_ParseArmaData` on characters, `parse` being the function
itself.  The characters of a name are overwritten with -1 and left out by the
next call. -/
def parseWith (parse : Text → Option (ScriptValue Scalar)) :
    Text → Option (ScriptValue Scalar)
  | [] => none
  | type :: data =>
      if type = adArray then
        (fieldLoop parse [] true 0 [] (data.drop 1)).bind fun (fields, field) =>
          (parse field.dropLast).map fun value => array (fields ++ [value])
      else if type = adString then
        some (string (data.filter (· ≠ adUnit)))
      else if type = adAddress then
        some (text (data.filter (· ≠ adUnit)))
      else if type = adFloat ∨ type = adUnsigned ∨ type = adSigned then
        some (scalar (numbers.parseNumber data))
      else
        let name := (type :: data).takeWhile (· ≠ adSeperator)
        match (type :: data).dropWhile (· ≠ adSeperator) with
        | [] => some (string name)
        | separator :: rest =>
            (parse rest).map fun value => array [string (name ++ [separator]), value]

/-- A call takes fewer characters than the one it is made from. -/
def parseCodes : (depth : ℕ) → Text → Option (ScriptValue Scalar)
  | 0 => parseWith numbers fun _ => none
  | depth + 1 => parseWith numbers (parseCodes depth)

/-- `PCS_ParseArmaData` on a string -/
def parseArmaData (data : Text) : Option (ScriptValue Scalar) :=
  if data = [adArray, adAsLeft, adAsRight] then
    some (array [])
  else
    parseCodes numbers data.length data

end ScriptValue

end OperationFrontLine.Wire
