import OperationFrontLine.Native.Strings
import OperationFrontLine.Wire.Format

/-!
# The wire format in C++

`ArmaData` is what the extension exchanges with the scripts: a leaf with a type
character in front, or an array of such data.  An iterator into a string is
modelled by the text from there on, and `std::terminate`, an exception or a
read past the end by an error.
-/

namespace OperationFrontLine.Wire

open OperationFrontLine.Library OperationFrontLine.Native

inductive ParseError where
  /-- "ParseArmaData, could not parse data type" -/
  | errorType
  /-- "ParseArmaData, more data expected" -/
  | errorExpected
  /-- "ParseArmaData, end of array expected" -/
  | errorEnd
  /-- The iterator is dereferenced at the end of the text. -/
  | pastEnd
  /-- Thrown by `std::stoll` and its like. -/
  | invalidNumber
  /-- Never returned: see `buildData`. -/
  | tooDeep
  deriving DecidableEq, Repr

/-- Data of a type, or `null` when there is none.  An address is a 64-bit one,
and a float carries the precision it is printed with. -/
inductive ArmaData (Single : Type) where
  | null
  | string (value : Text)
  | float (value : Single) (precision : ℕ)
  | unsigned (value : ℕ)
  | signed (value : ℤ)
  | address (value : ℕ)
  | array (elements : List (ArmaData Single))

structure FloatFormat (Single : Type) where
  stof : Text → Option Single
  fixed : (precision : ℕ) → Single → Text

namespace ArmaData

variable {Single : Type}

def hasData : ArmaData Single → Bool
  | null => false
  | _ => true

variable (floats : FloatFormat Single)

mutual

def deparseArmaData : ArmaData Single → Text
  | null => []
  | string value => adString :: adUnit :: (value ++ [adUnit])
  | float value precision => adFloat :: floats.fixed precision value
  | signed value => adSigned :: printInteger value
  | unsigned value => adUnsigned :: printNatural 10 value
  | array elements =>
      let body := adAsLeft :: deparseElements elements
      -- the last separator goes; an array without data loses its bracket
      let trimmed := if elements.length > 0 then body.dropLast else body
      adArray :: (trimmed ++ [adAsRight])
  | address value => adAddress :: printNatural 16 value

def deparseElements : List (ArmaData Single) → Text
  | [] => []
  | element :: elements =>
      if element.hasData then
        deparseArmaData element ++ adSeperator :: deparseElements elements
      else
        deparseElements elements

end

end ArmaData

def decimalPlaces (text : Text) : ℕ :=
  if '.' ∈ text then (text.reverse.takeWhile (· ≠ '.')).length else 0

/-- Where `BuildData` is in an array: collecting a flat element, or a nested
array with the brackets counted so far, which are fewer than the `2 ^ 32` at
which an `unsigned int` wraps. -/
inductive Phase where
  | flat (temp : Text) (ignore : Bool)
  | nested (temp : Text) (ignore : Bool) (nestCounterL nestCounterR : ℕ)

namespace ArmaData

variable {Single : Type}

/-- `new ArmaData(temp)`, which has to produce something. -/
def newElement (parse : Text → Except ParseError (ArmaData Single)) (temp : Text) :
    Except ParseError (ArmaData Single) :=
  (parse temp).bind fun element =>
    if element.hasData then .ok element else .error .errorType

/-- The loops behind the opening bracket of an array. -/
def arrayLoop (parse : Text → Except ParseError (ArmaData Single)) :
    Phase → List (ArmaData Single) → Text → Except ParseError (List (ArmaData Single))
  | .flat _ _, _, [] => .error .pastEnd
  | .flat temp ignore, tempArray, character :: rest =>
      if character = adArray then
        -- the outer loop starts over and drops what was collected
        match rest with
        | [] => .error .pastEnd
        | bracket :: next =>
            if bracket = adAsLeft ∧ next ≠ [] then
              arrayLoop parse (.nested [adArray, adAsLeft] false 1 0) tempArray next
            else
              .error .errorExpected
      else
        let temp := if character = adUnit then temp else temp ++ [character]
        let ignore := if character = adUnit then !ignore else ignore
        match rest with
        | [] => .error (if ignore then .errorExpected else .pastEnd)
        | next :: after =>
            if ignore = false ∧ (next = adSeperator ∨ next = adAsRight) then
              (newElement parse temp).bind fun tempElement =>
                if next = adAsRight then
                  if after = [] then .ok (tempArray ++ [tempElement]) else .error .errorEnd
                else if after = [] then
                  .error .errorExpected
                else
                  arrayLoop parse (.flat [] false) (tempArray ++ [tempElement]) after
            else
              arrayLoop parse (.flat temp ignore) tempArray (next :: after)
  | .nested _ _ _ _, _, [] => .error .pastEnd
  | .nested temp ignore nestCounterL nestCounterR, tempArray, character :: rest =>
      let ignore := if character = adUnit then !ignore else ignore
      let temp := temp ++ [character]
      let nestCounterL :=
        if ignore = false ∧ character = adAsLeft then nestCounterL + 1 else nestCounterL
      let nestCounterR :=
        if ignore = false ∧ character = adAsRight then nestCounterR + 1 else nestCounterR
      if ignore = false ∧ nestCounterL = nestCounterR then
        (newElement parse temp).bind fun tempElement =>
          match rest with
          | [] => .error .errorType
          | separator :: next =>
              if separator = adAsRight then
                if next = [] then .ok (tempArray ++ [tempElement]) else .error .errorEnd
              else
                match next with
                | [] => .error .errorExpected
                | first :: after =>
                    if first = adAsRight then
                      .error .errorExpected
                    else
                      arrayLoop parse (.flat [] false) (tempArray ++ [tempElement])
                        (first :: after)
      else
        arrayLoop parse (.nested temp ignore nestCounterL nestCounterR) tempArray rest

variable (floats : FloatFormat Single)

/-- `BuildData` at the type character; `parse` is the constructor of `ArmaData`
for the elements of an array. -/
def buildDataWith (parse : Text → Except ParseError (ArmaData Single)) :
    Text → Except ParseError (ArmaData Single)
  | [] => .ok null
  | [_] => .error .errorType
  | type :: first :: rest =>
      if type = adString then
        .ok (string (first :: rest))
      else if type = adFloat then
        match floats.stof (first :: rest) with
        | some value => .ok (float value (decimalPlaces (first :: rest) % 2 ^ 16))
        | none => .error .invalidNumber
      else if type = adSigned then
        match stoll (first :: rest) with
        | some value => .ok (signed value)
        | none => .error .invalidNumber
      else if type = adUnsigned then
        match stoull (first :: rest) with
        | some value => .ok (unsigned value)
        | none => .error .invalidNumber
      else if type = adArray then
        if first = adAsLeft then
          if rest = [] then
            .ok (array [])
          else
            (arrayLoop parse (.flat [] false) [] rest).map array
        else
          .ok null
      else if type = adAddress then
        .ok (address (extractHex (first :: rest)))
      else
        .error .errorType

/-- Elements are shorter than their array, so a depth of the text's length is
enough. -/
def buildData : (depth : ℕ) → Text → Except ParseError (ArmaData Single)
  | 0 => buildDataWith floats fun _ => .error .tooDeep
  | depth + 1 => buildDataWith floats (buildData depth)

def parseArmaData (text : Text) : Except ParseError (ArmaData Single) :=
  buildData floats text.length text

end ArmaData

/-- A function call: the name in front of the data, when there is one. -/
structure ArmaMessage (Single : Type) where
  hasFunc : Bool
  name : Text
  data : ArmaData Single

namespace ArmaMessage

variable {Single : Type} (floats : FloatFormat Single)

def isType (character : Char) : Bool :=
  character ∈ [adString, adFloat, adSigned, adUnsigned, adAddress, adArray]

def parseArmaData (text : Text) : Except ParseError (ArmaMessage Single) :=
  match text with
  | [] => .ok ⟨false, [], .null⟩
  | first :: _ =>
      if isType first then
        (ArmaData.buildData floats text.length text).map (⟨false, [], ·⟩)
      else
        let name := text.takeWhile (· ≠ adSeperator)
        match text.dropWhile (· ≠ adSeperator) with
        | [] => .ok ⟨true, name, .null⟩
        -- `ParseData` takes the type character from behind the separator
        | [_] => .error .pastEnd
        | _ :: data =>
            (ArmaData.buildData floats data.length data).map (⟨true, name, ·⟩)

end ArmaMessage

end OperationFrontLine.Wire
