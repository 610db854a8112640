import OperationFrontLine.Library.Numeral

/-!
# The wire format

The extension and the scripts exchange text: leaves with a type character in
front, and arrays of them in brackets.  What a text means is given here once,
for any kind of value; each of the two implementations is then compared to it.
-/

namespace OperationFrontLine.Wire

open OperationFrontLine.Library

def adString : Char := '$'
def adFloat : Char := '#'
def adUnsigned : Char := '+'
def adSigned : Char := '-'
def adAddress : Char := '*'
def adArray : Char := '@'
def adSeperator : Char := ','
def adAsRight : Char := ']'
def adAsLeft : Char := '['
def adUnit : Char := '\x1f'

/-- A character without a meaning of its own inside an array. -/
def Plain (character : Char) : Prop :=
  character ∉ [adArray, adUnit, adSeperator, adAsRight, adAsLeft]

instance (character : Char) : Decidable (Plain character) :=
  inferInstanceAs (Decidable (_ ∉ _))

def joined : List Text → Text
  | [] => []
  | [text] => text
  | text :: texts => text ++ adSeperator :: joined texts

def arrayText (texts : List Text) : Text :=
  adArray :: adAsLeft :: (joined texts ++ [adAsRight])

/-- The text of a value: a leaf of its own kind, or the array of the texts of
some values. -/
inductive Encodes {Value : Type} (Leaf : Text → Value → Prop) (array : List Value → Value) :
    Text → Value → Prop where
  | leaf {text : Text} {value : Value} (leaf : Leaf text value) :
      Encodes Leaf array text value
  | array {elements : List (Text × Value)} (nonempty : elements ≠ [])
      (all : ∀ element ∈ elements, Encodes Leaf array element.1 element.2) :
      Encodes Leaf array (arrayText (elements.map Prod.fst)) (array (elements.map Prod.snd))

section Joined

theorem joined_cons_cons (first second : Text) (texts : List Text) :
    joined (first :: second :: texts) = first ++ adSeperator :: joined (second :: texts) := rfl

/-- What stands between two lists of texts joins the last of one and the first of the other. -/
theorem joined_append_joined (texts : List Text) (last between first : Text)
    (rest : List Text) :
    joined (texts ++ [last]) ++ (between ++ joined (first :: rest)) =
      joined (texts ++ (last ++ (between ++ first)) :: rest) := by
  induction texts with
  | nil => cases rest <;> simp [joined]
  | cons text texts inductionHypothesis =>
      cases texts with
      | nil => simpa [joined] using inductionHypothesis
      | cons second texts => simpa [joined] using inductionHypothesis

theorem length_le_joined {texts : List Text} {text : Text} (member : text ∈ texts) :
    text.length ≤ (joined texts).length := by
  induction texts with
  | nil => simp at member
  | cons first texts inductionHypothesis =>
      cases texts with
      | nil => simp_all [joined]
      | cons second texts =>
          rw [joined_cons_cons, List.length_append, List.length_cons]
          rcases List.mem_cons.mp member with rfl | later
          · omega
          · have shorter := inductionHypothesis later
            omega

theorem joined_eq_flatMap (text : Text) (texts : List Text) :
    joined (text :: texts) = text ++ texts.flatMap (adSeperator :: ·) := by
  induction texts generalizing text with
  | nil => simp [joined]
  | cons second texts inductionHypothesis =>
      rw [joined_cons_cons, inductionHypothesis]
      simp

@[simp]
theorem length_arrayText (texts : List Text) :
    (arrayText texts).length = (joined texts).length + 3 := by
  simp [arrayText]

end Joined

theorem Encodes.arrayMap {Value Source : Type} {Leaf : Text → Value → Prop}
    {array : List Value → Value} {sources : List Source} (text : Source → Text)
    (value : Source → Value) (nonempty : sources ≠ [])
    (all : ∀ source ∈ sources, Encodes Leaf array (text source) (value source)) :
    Encodes Leaf array (arrayText (sources.map text)) (array (sources.map value)) := by
  have encoded : Encodes Leaf array
      (arrayText ((sources.map fun source => (text source, value source)).map Prod.fst))
      (array ((sources.map fun source => (text source, value source)).map Prod.snd)) := by
    refine .array (by simpa using nonempty) fun element member => ?_
    obtain ⟨source, present, rfl⟩ := List.mem_map.mp member
    exact all source present
  simpa [List.map_map, Function.comp_def] using encoded

theorem plain_of_isDigitOf {base : ℕ} {character : Char}
    (digit : isDigitOf base character = true) : Plain character := by
  intro member
  have noDigit : ∀ special ∈ [adArray, adUnit, adSeperator, adAsRight, adAsLeft],
      digitValue special = none := by
    intro special member
    fin_cases member <;> rfl
  simp [isDigitOf, noDigit character member] at digit

theorem plain_printNatural {base : ℕ} (one : 1 < base) (bounded : base ≤ 16) (number : ℕ) :
    ∀ character ∈ printNatural base number, Plain character :=
  fun character member =>
    plain_of_isDigitOf (printNatural_digits one bounded number character member)

theorem plain_printInteger (number : ℤ) :
    ∀ character ∈ printInteger number, Plain character := by
  intro character member
  unfold printInteger at member
  split at member
  · rcases List.mem_cons.mp member with rfl | digit
    · decide
    · exact plain_printNatural (by decide) (by decide) _ character digit
  · exact plain_printNatural (by decide) (by decide) _ character member

end OperationFrontLine.Wire
