import Mathlib.Tactic

/-!
# Numerals

Numbers written in a base up to sixteen, and the reading of the longest prefix
of a text that is such a numeral, as the C and C++ number readers do it.
-/

namespace OperationFrontLine.Library

/-- A string, character by character. -/
abbrev Text := List Char

instance Text.lawfulBEq : LawfulBEq Text := inferInstance

def digitValue (character : Char) : Option ℕ :=
  if '0' ≤ character ∧ character ≤ '9' then
    some (character.toNat - '0'.toNat)
  else if 'a' ≤ character ∧ character ≤ 'f' then
    some (character.toNat - 'a'.toNat + 10)
  else if 'A' ≤ character ∧ character ≤ 'F' then
    some (character.toNat - 'A'.toNat + 10)
  else
    none

def isDigitOf (base : ℕ) (character : Char) : Bool :=
  (digitValue character).any (· < base)

/-- Go on with a numeral whose digits so far have the given value. -/
def readDigits (base value : ℕ) : Text → ℕ × Text
  | [] => (value, [])
  | character :: rest =>
      if isDigitOf base character then
        readDigits base (base * value + (digitValue character).getD 0) rest
      else
        (value, character :: rest)

/-- The longest numeral at the front; `none` when there is no digit. -/
def readNatural (base : ℕ) (text : Text) : Option (ℕ × Text) :=
  match text with
  | character :: _ => if isDigitOf base character then some (readDigits base 0 text) else none
  | [] => none

def readInteger (base : ℕ) : Text → Option (ℤ × Text)
  | '-' :: text => (readNatural base text).map fun read => (-(read.1 : ℤ), read.2)
  | '+' :: text => (readNatural base text).map fun read => ((read.1 : ℤ), read.2)
  | text => (readNatural base text).map fun read => ((read.1 : ℤ), read.2)

def printNatural (base number : ℕ) : Text := Nat.toDigits base number

def printInteger (number : ℤ) : Text :=
  if number < 0 then
    '-' :: printNatural 10 number.natAbs
  else
    printNatural 10 number.natAbs

theorem printNatural_ne_nil (base number : ℕ) : printNatural base number ≠ [] :=
  Nat.toDigits_ne_nil

theorem printInteger_ne_nil (number : ℤ) : printInteger number ≠ [] := by
  unfold printInteger
  split
  · exact List.cons_ne_nil _ _
  · exact printNatural_ne_nil _ _

def Stops (base : ℕ) (rest : Text) : Prop :=
  ∀ character ∈ rest.head?, isDigitOf base character = false

@[simp]
theorem stops_nil (base : ℕ) : Stops base [] := by simp [Stops]

@[simp]
theorem stops_cons (base : ℕ) (character : Char) (rest : Text) :
    Stops base (character :: rest) ↔ isDigitOf base character = false := by
  simp [Stops]

section Digits

variable {base : ℕ}

theorem digitValue_digitChar {digit : ℕ} (small : digit < 16) :
    digitValue digit.digitChar = some digit := by
  have every : ∀ digit < 16, digitValue (Nat.digitChar digit) = some digit := by decide
  exact every digit small

theorem isDigitOf_digitChar {digit : ℕ} (small : digit < base) (bounded : base ≤ 16) :
    isDigitOf base digit.digitChar = true := by
  simp [isDigitOf, digitValue_digitChar (small.trans_le bounded), small]

theorem printNatural_digits (one : 1 < base) (bounded : base ≤ 16) (number : ℕ) :
    ∀ character ∈ printNatural base number, isDigitOf base character = true := by
  induction number using Nat.strong_induction_on with
  | _ number inductionHypothesis =>
      rw [printNatural, Nat.toDigits_eq_if one]
      split <;> rename_i small
      · simpa using isDigitOf_digitChar small bounded
      · intro character member
        rcases List.mem_append.mp member with before | last
        · exact inductionHypothesis _ (Nat.div_lt_self (by omega) one) character before
        · rw [List.mem_singleton.mp last]
          exact isDigitOf_digitChar (Nat.mod_lt _ (by omega)) bounded

/-- The value of a row of digits that follow digits worth `value`. -/
def digitsValue (base value : ℕ) (digits : Text) : ℕ :=
  digits.foldl (fun value character => base * value + (digitValue character).getD 0) value

theorem digitsValue_printNatural (one : 1 < base) (bounded : base ≤ 16) (number : ℕ) :
    digitsValue base 0 (printNatural base number) = number := by
  induction number using Nat.strong_induction_on with
  | _ number inductionHypothesis =>
      rw [printNatural, Nat.toDigits_eq_if one]
      split <;> rename_i small
      · simp [digitsValue, digitValue_digitChar (small.trans_le bounded)]
      · have last : number % base < 16 := (Nat.mod_lt _ (by omega)).trans_le bounded
        have before := inductionHypothesis _ (Nat.div_lt_self (by omega : 0 < number) one)
        rw [printNatural, digitsValue] at before
        rw [digitsValue, List.foldl_append, before]
        simpa [digitValue_digitChar last] using Nat.div_add_mod number base

theorem readDigits_append {digits : Text} (rest : Text)
    (all : ∀ character ∈ digits, isDigitOf base character = true) (value : ℕ) :
    readDigits base value (digits ++ rest) =
      readDigits base (digitsValue base value digits) rest := by
  induction digits generalizing value with
  | nil => rfl
  | cons character digits inductionHypothesis =>
      have digit := all character (by simp)
      rw [List.cons_append, readDigits, if_pos digit,
        inductionHypothesis (fun other member => all other (by simp [member]))]
      rfl

theorem readDigits_stops {rest : Text} (stops : Stops base rest) (value : ℕ) :
    readDigits base value rest = (value, rest) := by
  cases rest with
  | nil => rfl
  | cons character rest =>
      have digit := (stops_cons base character rest).mp stops
      simp [readDigits, digit]

theorem readNatural_append {digits rest : Text} (nonempty : digits ≠ [])
    (all : ∀ character ∈ digits, isDigitOf base character = true) (stops : Stops base rest) :
    readNatural base (digits ++ rest) = some (digitsValue base 0 digits, rest) := by
  obtain ⟨character, digits, rfl⟩ := List.exists_cons_of_ne_nil nonempty
  have digit := all character (by simp)
  have read := readDigits_append rest all 0
  rw [readDigits_stops stops] at read
  simpa [readNatural, digit] using read

theorem readNatural_printNatural (one : 1 < base) (bounded : base ≤ 16) (number : ℕ)
    {rest : Text} (stops : Stops base rest) :
    readNatural base (printNatural base number ++ rest) = some (number, rest) := by
  rw [readNatural_append (printNatural_ne_nil base number)
      (printNatural_digits one bounded number) stops,
    digitsValue_printNatural one bounded]

end Digits

theorem readInteger_of_digit {base : ℕ} {text : Text} {read : ℕ × Text}
    (natural : readNatural base text = some read) :
    readInteger base text = some ((read.1 : ℤ), read.2) := by
  cases text with
  | nil => simp [readNatural] at natural
  | cons character text =>
      have digit : isDigitOf base character = true := by
        by_contra other
        simp [readNatural, other] at natural
      have notMinus : character ≠ '-' := by
        rintro rfl
        simp [isDigitOf, digitValue] at digit
      have notPlus : character ≠ '+' := by
        rintro rfl
        simp [isDigitOf, digitValue] at digit
      unfold readInteger
      split
      · rename_i same
        exact absurd (List.cons.inj same).1 notMinus
      · rename_i same
        exact absurd (List.cons.inj same).1 notPlus
      · rw [natural]
        rfl

theorem readInteger_printInteger (number : ℤ) {rest : Text} (stops : Stops 10 rest) :
    readInteger 10 (printInteger number ++ rest) = some (number, rest) := by
  have natural := readNatural_printNatural (by decide) (by decide) number.natAbs stops
  unfold printInteger
  split <;> rename_i sign
  · rw [List.cons_append, readInteger, natural, Option.map_some]
    congr 2
    omega
  · rw [readInteger_of_digit natural]
    congr 2
    omega

end OperationFrontLine.Library
