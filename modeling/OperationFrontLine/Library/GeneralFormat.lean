import OperationFrontLine.Library.Numeral
import Mathlib.Data.List.DropRight

/-!
# Six significant digits

How the `%g` conversion prints whole numbers: up to six digits as they are,
longer ones rounded to six digits in scientific notation, without the zeros at
the end of the fraction.
-/

namespace OperationFrontLine.Library

/-- Division rounded to the nearest number, halves to the even one. -/
def roundedDiv (number divisor : ℕ) : ℕ :=
  let quotient := number / divisor
  let twice := 2 * (number % divisor)
  if divisor < twice ∨ (divisor = twice ∧ quotient % 2 = 1) then quotient + 1 else quotient

def printMantissa (mantissa : ℕ) : Text :=
  match printNatural 10 mantissa with
  | [] => []
  | first :: rest =>
      match rest.rdropWhile (· = '0') with
      | [] => [first]
      | fraction => first :: '.' :: fraction

def printScientific (magnitude : ℕ) : Text :=
  let exponent := (printNatural 10 magnitude).length - 1
  let mantissa := roundedDiv magnitude (10 ^ (exponent - 5))
  let carried := mantissa = 10 ^ 6
  let mantissa := if carried then 10 ^ 5 else mantissa
  let exponent := if carried then exponent + 1 else exponent
  printMantissa mantissa ++ 'e' :: '+' :: (printNatural 10 exponent).leftpad 2 '0'

def printGeneral (number : ℤ) : Text :=
  let magnitude :=
    if number.natAbs < 10 ^ 6 then printNatural 10 number.natAbs
    else printScientific number.natAbs
  if number < 0 then '-' :: magnitude else magnitude

example : printGeneral 999999 = "999999".toList := by decide +kernel
example : printGeneral (-16777216) = "-1.67772e+07".toList := by decide +kernel
example : printGeneral 9999996 = "1e+07".toList := by decide +kernel

theorem printGeneral_small {number : ℤ} (small : number.natAbs < 10 ^ 6) :
    printGeneral number = printInteger number := by
  simp only [printGeneral, if_pos small, printInteger]

theorem printScientific_shape (magnitude : ℕ) :
    ∃ digit rest, isDigitOf 10 digit = true ∧ Stops 10 rest ∧
      printScientific magnitude = digit :: rest := by
  have behind : ∀ (mantissa : ℕ) (exponent : Text), ∃ digit rest, isDigitOf 10 digit = true ∧
      Stops 10 rest ∧ printMantissa mantissa ++ 'e' :: exponent = digit :: rest := by
    intro mantissa exponent
    obtain ⟨first, rest, printed⟩ :=
      List.exists_cons_of_ne_nil (printNatural_ne_nil 10 mantissa)
    have digit : isDigitOf 10 first = true :=
      printNatural_digits (by decide) (by decide) mantissa first (by simp [printed])
    unfold printMantissa
    rw [printed]
    dsimp only
    split
    · exact ⟨first, 'e' :: exponent, digit, (stops_cons ..).mpr (by decide), rfl⟩
    · exact ⟨first, '.' :: _, digit, (stops_cons ..).mpr (by decide), rfl⟩
  exact behind _ _

theorem readNatural_printScientific (magnitude : ℕ) :
    ∃ read, readNatural 10 (printScientific magnitude) = some read ∧ read.1 < 10 := by
  obtain ⟨digit, rest, isDigit, stops, shape⟩ := printScientific_shape magnitude
  have read := readNatural_append (List.cons_ne_nil digit []) (by simpa using isDigit) stops
  refine ⟨_, by rw [shape]; exact read, ?_⟩
  have small : (digitValue digit).any (· < 10) = true := isDigit
  cases value : digitValue digit with
  | none => simp [digitsValue, value]
  | some number => simpa [digitsValue, value] using small

/-- Reading the digits of a printed number gives the number back, unless its
digits were rounded away. -/
theorem readInteger_printGeneral (number : ℤ) :
    ∃ read, readInteger 10 (printGeneral number) = some read ∧
      read.1.natAbs ≤ max number.natAbs 9 ∧
      (read.1 = number ↔ number.natAbs < 10 ^ 6) := by
  by_cases small : number.natAbs < 10 ^ 6
  · have read := readInteger_printInteger number (stops_nil 10)
    rw [List.append_nil] at read
    rw [printGeneral_small small]
    exact ⟨_, read, le_max_left _ _, iff_of_true rfl small⟩
  · obtain ⟨read, natural, digit⟩ := readNatural_printScientific number.natAbs
    simp only [printGeneral, if_neg small]
    split
    · refine ⟨_, by rw [readInteger, natural]; rfl, ?_, ?_⟩
      · dsimp only
        omega
      · dsimp only
        omega
    · refine ⟨_, readInteger_of_digit natural, ?_, ?_⟩
      · dsimp only
        omega
      · dsimp only
        omega

theorem printGeneral_characters (number : ℤ) :
    ∀ character ∈ printGeneral number,
      isDigitOf 10 character = true ∨ character ∈ ['-', '+', '.', 'e'] := by
  have natural : ∀ (number : ℕ), ∀ character ∈ printNatural 10 number,
      isDigitOf 10 character = true := printNatural_digits (by decide) (by decide)
  have mantissa : ∀ (number : ℕ), ∀ character ∈ printMantissa number,
      isDigitOf 10 character = true ∨ character ∈ ['-', '+', '.', 'e'] := by
    intro number character member
    unfold printMantissa at member
    split at member
    · simp at member
    · rename_i first rest printed
      have digits : ∀ character ∈ first :: rest, isDigitOf 10 character = true :=
        printed ▸ natural number
      have trimmed := (List.rdropWhile_prefix (fun character => decide (character = '0'))
        (l := rest)).subset
      split at member
      · exact .inl (digits character (by simp_all))
      · rcases List.mem_cons.mp member with rfl | rest
        · exact .inl (digits _ (by simp))
        · rcases List.mem_cons.mp rest with rfl | fraction
          · exact .inr (by simp)
          · exact .inl (digits character (List.mem_cons_of_mem _ (trimmed fraction)))
  have scientific : ∀ (number : ℕ), ∀ character ∈ printScientific number,
      isDigitOf 10 character = true ∨ character ∈ ['-', '+', '.', 'e'] := by
    intro number character member
    rcases List.mem_append.mp member with front | behind
    · exact mantissa _ character front
    · rcases List.mem_cons.mp behind with rfl | behind
      · exact .inr (by simp)
      · rcases List.mem_cons.mp behind with rfl | exponent
        · exact .inr (by simp)
        · rcases List.mem_append.mp exponent with zero | digit
          · exact .inl (List.eq_of_mem_replicate zero ▸ rfl)
          · exact .inl (natural _ character digit)
  have magnitude : ∀ character ∈ (if number.natAbs < 10 ^ 6 then printNatural 10 number.natAbs
      else printScientific number.natAbs),
      isDigitOf 10 character = true ∨ character ∈ ['-', '+', '.', 'e'] := by
    intro character member
    split at member
    · exact .inl (natural _ character member)
    · exact scientific _ character member
  intro character member
  unfold printGeneral at member
  dsimp only at member
  split at member
  · rcases List.mem_cons.mp member with rfl | rest
    · exact .inr (by simp)
    · exact magnitude character rest
  · exact magnitude character member

end OperationFrontLine.Library
