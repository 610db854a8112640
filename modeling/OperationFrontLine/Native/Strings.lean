import OperationFrontLine.Library.Numeral

/-!
# The C++ string functions

What the extension uses of the standard library to write numbers into strings
and to read them back.  `none` stands for the exception a function throws.
-/

namespace OperationFrontLine.Native

open OperationFrontLine.Library

/-- `std::isspace` -/
def isSpace (character : Char) : Bool :=
  character ∈ [' ', '\t', '\n', '\x0b', '\x0c', '\r']

def skipSpace (text : Text) : Text := text.dropWhile isSpace

def substr (text : Text) (position count : ℕ) : Option Text :=
  if position ≤ text.length then some ((text.drop position).take count) else none

/-- `std::setw(width)` and `std::setfill('0')` before an integer. -/
def setWidth (width : ℕ) (number : ℤ) : Text := (printInteger number).leftpad width '0'

def stoll (text : Text) : Option ℤ :=
  (readInteger 10 (skipSpace text)).bind fun read =>
    if -2 ^ 63 ≤ read.1 ∧ read.1 < 2 ^ 63 then some read.1 else none

/-- A minus sign is accepted and wraps around. -/
def stoull (text : Text) : Option ℕ :=
  (readInteger 10 (skipSpace text)).bind fun read =>
    if read.1.natAbs < 2 ^ 64 then some (read.1 % 2 ^ 64).toNat else none

def skipHexPrefix : Text → Text
  | '0' :: 'x' :: rest => rest
  | '0' :: 'X' :: rest => rest
  | rest => rest

/-- Too large a number becomes the largest, and no number 0. -/
def hexMagnitude (text : Text) : ℕ :=
  match readNatural 16 (skipHexPrefix text) with
  | some read => min read.1 (2 ^ 64 - 1)
  | none => 0

/-- `stream >> number` with `std::hex`, `number` being an unsigned 64-bit
integer that is 0 before. -/
def extractHex (text : Text) : ℕ :=
  match skipSpace text with
  | '-' :: rest => (2 ^ 64 - hexMagnitude rest) % 2 ^ 64
  | '+' :: rest => hexMagnitude rest
  | rest => hexMagnitude rest

theorem isSpace_of_isDigitOf {base : ℕ} {character : Char}
    (digit : isDigitOf base character = true) : isSpace character = false := by
  have noDigit : ∀ blank ∈ [' ', '\t', '\n', '\x0b', '\x0c', '\r'], digitValue blank = none := by
    intro blank member
    fin_cases member <;> rfl
  by_contra space
  have blank : isSpace character = true := by simpa using space
  have member := of_decide_eq_true blank
  simp [isDigitOf, noDigit character member] at digit

theorem skipSpace_of_digit {base : ℕ} {digits : Text}
    (all : ∀ character ∈ digits, isDigitOf base character = true) :
    skipSpace digits = digits := by
  cases digits with
  | nil => rfl
  | cons character digits =>
      have kept := isSpace_of_isDigitOf (all character (by simp))
      simp [skipSpace, kept]

theorem skipSpace_printInteger (number : ℤ) :
    skipSpace (printInteger number) = printInteger number := by
  unfold printInteger
  split
  · rfl
  · exact skipSpace_of_digit (printNatural_digits (by decide) (by decide) _)

theorem stoll_printInteger {number : ℤ} (low : -2 ^ 63 ≤ number) (high : number < 2 ^ 63) :
    stoll (printInteger number) = some number := by
  have read := readInteger_printInteger number (stops_nil 10)
  rw [List.append_nil] at read
  rw [stoll, skipSpace_printInteger, read, Option.bind_some, if_pos ⟨low, high⟩]

theorem stoull_printNatural {number : ℕ} (high : number < 2 ^ 64) :
    stoull (printNatural 10 number) = some number := by
  have natural := readNatural_printNatural (by decide) (by decide) number (stops_nil 10)
  rw [List.append_nil] at natural
  rw [stoull, skipSpace_of_digit (printNatural_digits (by decide) (by decide) number),
    readInteger_of_digit natural, Option.bind_some, if_pos (by simpa using high)]
  congr 1
  omega

theorem not_mem_hex {character : Char} (other : isDigitOf 16 character = false) (number : ℕ) :
    character ∉ printNatural 16 number := by
  intro member
  simp [printNatural_digits (by decide) le_rfl number character member] at other

theorem skipHexPrefix_printNatural (number : ℕ) :
    skipHexPrefix (printNatural 16 number) = printNatural 16 number := by
  unfold skipHexPrefix
  split <;> rename_i shape
  · exact absurd (by rw [shape]; simp) (not_mem_hex (by decide : isDigitOf 16 'x' = false) number)
  · exact absurd (by rw [shape]; simp) (not_mem_hex (by decide : isDigitOf 16 'X' = false) number)
  · rfl

theorem extractHex_printNatural {number : ℕ} (high : number < 2 ^ 64) :
    extractHex (printNatural 16 number) = number := by
  have natural := readNatural_printNatural (by decide) le_rfl number (stops_nil 16)
  rw [List.append_nil] at natural
  have magnitude : hexMagnitude (printNatural 16 number) = number := by
    simp only [hexMagnitude, skipHexPrefix_printNatural, natural]
    omega
  unfold extractHex
  rw [skipSpace_of_digit (printNatural_digits (by decide) le_rfl number)]
  split <;> rename_i shape
  · exact absurd (by rw [shape]; simp) (not_mem_hex (by decide : isDigitOf 16 '-' = false) number)
  · exact absurd (by rw [shape]; simp) (not_mem_hex (by decide : isDigitOf 16 '+' = false) number)
  · exact magnitude

theorem stoll_setWidth {width : ℕ} {number : ℤ} (nonneg : 0 ≤ number)
    (high : number < 2 ^ 63) : stoll (setWidth width number) = some number := by
  have digits := printNatural_digits (by decide : 1 < 10) (by decide) number.natAbs
  have printed : printInteger number = printNatural 10 number.natAbs := by
    rw [printInteger, if_neg (by omega)]
  have padded : ∀ character ∈ setWidth width number, isDigitOf 10 character = true := by
    intro character member
    rw [setWidth, List.leftpad, printed] at member
    rcases List.mem_append.mp member with zero | digit
    · rw [List.eq_of_mem_replicate zero]
      rfl
    · exact digits character digit
  have value : digitsValue 10 0 (setWidth width number) = number.natAbs := by
    rw [setWidth, List.leftpad, printed, digitsValue, List.foldl_append]
    have zeros : ∀ count : ℕ,
        digitsValue 10 0 (List.replicate count '0') = 0 := by
      intro count
      induction count with
      | zero => rfl
      | succ count inductionHypothesis => exact inductionHypothesis
    have prefixValue := zeros (width - (printNatural 10 number.natAbs).length)
    unfold digitsValue at prefixValue
    rw [prefixValue]
    exact digitsValue_printNatural (by decide) (by decide) _
  have nonempty : setWidth width number ≠ [] := by
    simp [setWidth, List.leftpad, printed, printNatural]
  have natural := readNatural_append nonempty padded (stops_nil 10)
  rw [List.append_nil, value] at natural
  rw [stoll, skipSpace_of_digit padded, readInteger_of_digit natural, Option.bind_some,
    if_pos (by constructor <;> dsimp only <;> omega)]
  congr 1
  omega

theorem length_setWidth {width : ℕ} (positive : 0 < width) {number : ℤ} (nonneg : 0 ≤ number)
    (fits : number < 10 ^ width) : (setWidth width number).length = width := by
  have printed : printInteger number = Nat.toDigits 10 number.natAbs := by
    rw [printInteger, if_neg (by omega), printNatural]
  have short : (Nat.toDigits 10 number.natAbs).length ≤ width := by
    rw [Nat.length_toDigits_le_iff (by decide) positive]
    zify
    rwa [abs_of_nonneg nonneg]
  rw [setWidth, printed, List.leftpad, List.length_append, List.length_replicate]
  omega

theorem substr_field {before field text : Text} (shape : before ++ field <+: text) :
    substr text before.length field.length = some field := by
  obtain ⟨after, rfl⟩ := shape
  simp [substr]

end OperationFrontLine.Native
