import OperationFrontLine.Wire.Quoting

/-!
# Arrays with nothing to print

The printer leaves elements without data out, and takes the last character off
when the array had any element.  Where nothing was printed, that character is
the opening bracket; where there were no elements, the reader has no case for
the bracket that closes at once.
-/

namespace OperationFrontLine.Wire

open OperationFrontLine.Library OperationFrontLine.Native

inductive Bracketed : Text → Prop where
  | word {word : Text} (nonempty : word ≠ []) (plains : ∀ character ∈ word, Plain character) :
      Bracketed word
  | array {texts : List Text} (all : ∀ text ∈ texts, Bracketed text) :
      Bracketed (arrayText texts)

theorem count_plain {word : Text} (plains : ∀ character ∈ word, Plain character)
    {special : Char} (isSpecial : special ∈ [adArray, adUnit, adSeperator, adAsRight, adAsLeft]) :
    word.count special = 0 :=
  List.count_eq_zero.mpr fun member => plains special member isSpecial

theorem count_arrayText {texts : List Text} :
    (arrayText texts).count adAsLeft = (joined texts).count adAsLeft + 1 ∧
      (arrayText texts).count adAsRight = (joined texts).count adAsRight + 1 := by
  simp [arrayText, List.count_append, adArray, adAsLeft, adAsRight]

theorem count_joined {texts : List Text} {bracket : Char} (noSeperator : bracket ≠ adSeperator) :
    (joined texts).count bracket = (texts.map (List.count bracket)).sum := by
  induction texts with
  | nil => rfl
  | cons text texts inductionHypothesis =>
      cases texts with
      | nil => simp [joined]
      | cons second texts =>
          rw [joined_cons_cons, List.count_append,
            List.count_cons_of_ne noSeperator.symm, inductionHypothesis]
          simp

theorem Bracketed.count_eq {text : Text} (bracketed : Bracketed text) :
    text.count adAsLeft = text.count adAsRight := by
  induction bracketed with
  | word nonempty plains =>
      rw [count_plain plains (by decide), count_plain plains (by decide)]
  | @array texts all inductionHypothesis =>
      rw [count_arrayText.1, count_arrayText.2, count_joined (by decide),
        count_joined (by decide), List.map_congr_left inductionHypothesis]

namespace ArmaData

variable {Single : Type}

mutual

def clean : ArmaData Single → ArmaData Single
  | array elements => array (cleanElements elements)
  | data => data

def cleanElements : List (ArmaData Single) → List (ArmaData Single)
  | [] => []
  | element :: elements =>
      if element.hasData then clean element :: cleanElements elements else cleanElements elements

end

inductive IntegerTree : ArmaData Single → Prop where
  | null : IntegerTree .null
  | unsigned {value : ℕ} (high : value < 2 ^ 64) : IntegerTree (.unsigned value)
  | signed {value : ℤ} (low : -2 ^ 63 ≤ value) (high : value < 2 ^ 63) :
      IntegerTree (.signed value)
  | array {elements : List (ArmaData Single)} (all : ∀ element ∈ elements, IntegerTree element) :
      IntegerTree (.array elements)

/-- Some array of the tree has no element with data. -/
inductive Blank : ArmaData Single → Prop where
  | here {elements : List (ArmaData Single)}
      (none : ∀ element ∈ elements, element.hasData = false) : Blank (.array elements)
  | inside {elements : List (ArmaData Single)} {element : ArmaData Single}
      (member : element ∈ elements) (blank : Blank element) : Blank (.array elements)

/-- Some array of the tree has elements, but none with data. -/
inductive Unopened : ArmaData Single → Prop where
  | here {elements : List (ArmaData Single)} (nonempty : elements ≠ [])
      (none : ∀ element ∈ elements, element.hasData = false) : Unopened (.array elements)
  | inside {elements : List (ArmaData Single)} {element : ArmaData Single}
      (member : element ∈ elements) (unopened : Unopened element) : Unopened (.array elements)

def printed (elements : List (ArmaData Single)) : List (ArmaData Single) :=
  elements.filter hasData

theorem mem_printed {elements : List (ArmaData Single)} {element : ArmaData Single} :
    element ∈ printed elements ↔ element ∈ elements ∧ element.hasData = true :=
  List.mem_filter

theorem printed_eq_nil {elements : List (ArmaData Single)} :
    printed elements = [] ↔ ∀ element ∈ elements, element.hasData = false := by
  simp [printed]

theorem Blank.hasData {data : ArmaData Single} (blank : Blank data) : data.hasData = true := by
  cases blank <;> rfl

theorem Unopened.hasData {data : ArmaData Single} (unopened : Unopened data) :
    data.hasData = true := by
  cases unopened <;> rfl

theorem Unopened.blank {data : ArmaData Single} (unopened : Unopened data) : Blank data := by
  induction unopened with
  | here nonempty none => exact .here none
  | inside member unopened inductionHypothesis => exact .inside member inductionHypothesis

theorem cleanElements_eq (elements : List (ArmaData Single)) :
    cleanElements elements = (printed elements).map clean := by
  induction elements with
  | nil => rfl
  | cons element elements inductionHypothesis =>
      rw [cleanElements, printed, List.filter_cons, inductionHypothesis]
      split <;> rfl

variable (floats : FloatFormat Single)

theorem deparseElements_printed (elements : List (ArmaData Single)) :
    deparseElements floats elements = deparseElements floats (printed elements) := by
  induction elements with
  | nil => rfl
  | cons element elements inductionHypothesis =>
      rw [deparseElements, printed, List.filter_cons]
      split
      · rename_i hasData
        rw [deparseElements, if_pos hasData, inductionHypothesis]
        rfl
      · exact inductionHypothesis

theorem deparse_array_printed {elements : List (ArmaData Single)} (some : printed elements ≠ []) :
    deparseArmaData floats (.array elements) =
      arrayText ((printed elements).map (deparseArmaData floats)) := by
  have nonempty : elements ≠ [] := by
    rintro rfl
    exact some rfl
  rw [← deparse_array floats some fun element member => (mem_printed.mp member).2,
    deparseArmaData, deparseArmaData, deparseElements_printed floats elements]
  simp only [if_pos (List.length_pos_iff.mpr nonempty), if_pos (List.length_pos_iff.mpr some)]

theorem deparse_array_unopened {elements : List (ArmaData Single)} (nonempty : elements ≠ [])
    (none : printed elements = []) :
    deparseArmaData floats (.array elements) = [adArray, adAsRight] := by
  rw [deparseArmaData, deparseElements_printed floats elements, none]
  simp only [if_pos (List.length_pos_iff.mpr nonempty)]
  rfl

/-- An array that keeps its bracket, with something to print or without
elements. -/
theorem deparse_array_kept {elements : List (ArmaData Single)}
    (kept : ¬(elements ≠ [] ∧ printed elements = [])) :
    deparseArmaData floats (.array elements) =
      arrayText ((printed elements).map (deparseArmaData floats)) := by
  by_cases none : printed elements = []
  · obtain rfl : elements = [] := by
      by_contra nonempty
      exact kept ⟨nonempty, none⟩
    rfl
  · exact deparse_array_printed floats none

theorem deparse_array_opened {elements : List (ArmaData Single)}
    (opened : ¬Unopened (.array elements)) :
    deparseArmaData floats (.array elements) =
      arrayText ((printed elements).map (deparseArmaData floats)) :=
  deparse_array_kept floats fun lost => opened (.here lost.1 (printed_eq_nil.mp lost.2))

theorem plain_unsigned (value : ℕ) :
    ∀ character ∈ deparseArmaData floats (.unsigned value), Plain character := by
  intro character member
  rw [deparseArmaData] at member
  rcases List.mem_cons.mp member with rfl | digit
  · decide
  · exact plain_printNatural (by decide) (by decide) value character digit

theorem plain_signed (value : ℤ) :
    ∀ character ∈ deparseArmaData floats (.signed value), Plain character := by
  intro character member
  rw [deparseArmaData] at member
  rcases List.mem_cons.mp member with rfl | digit
  · decide
  · exact plain_printInteger value character digit

variable {floats}

theorem Unopened.element {elements : List (ArmaData Single)}
    (kept : ¬(elements ≠ [] ∧ printed elements = [])) (unopened : Unopened (.array elements)) :
    ∃ element ∈ printed elements, Unopened element := by
  cases unopened with
  | here nonempty none => exact absurd ⟨nonempty, printed_eq_nil.mpr none⟩ kept
  | inside member unopened => exact ⟨_, mem_printed.mpr ⟨member, unopened.hasData⟩, unopened⟩

namespace IntegerTree

/-- There are never more left brackets than right ones, and fewer once an array
was not opened. -/
theorem count_le {data : ArmaData Single} (tree : IntegerTree data) :
    (deparseArmaData floats data).count adAsLeft ≤ (deparseArmaData floats data).count adAsRight ∧
      (Unopened data →
        (deparseArmaData floats data).count adAsLeft <
          (deparseArmaData floats data).count adAsRight) := by
  induction tree with
  | null =>
      refine ⟨le_rfl, fun unopened => ?_⟩
      cases unopened
  | @unsigned value high =>
      have plains := plain_unsigned floats value
      rw [count_plain plains (by decide), count_plain plains (by decide)]
      refine ⟨le_rfl, fun unopened => ?_⟩
      cases unopened
  | @signed value low high =>
      have plains := plain_signed floats value
      rw [count_plain plains (by decide), count_plain plains (by decide)]
      refine ⟨le_rfl, fun unopened => ?_⟩
      cases unopened
  | @array elements all inductionHypothesis =>
      by_cases lost : elements ≠ [] ∧ printed elements = []
      · rw [deparse_array_unopened floats lost.1 lost.2]
        exact ⟨by decide, fun _ => by decide⟩
      · rw [deparse_array_kept floats lost, count_arrayText.1, count_arrayText.2,
          count_joined (by decide), count_joined (by decide), List.map_map, List.map_map]
        have fewer : ∀ element ∈ printed elements,
            (deparseArmaData floats element).count adAsLeft ≤
              (deparseArmaData floats element).count adAsRight :=
          fun element member => (inductionHypothesis element (mem_printed.mp member).1).1
        constructor
        · have sums := List.sum_le_sum fewer
          exact Nat.add_le_add_right sums 1
        · intro unopened
          obtain ⟨element, member, inner⟩ := unopened.element lost
          have less := (inductionHypothesis element (mem_printed.mp member).1).2 inner
          have sums := List.sum_lt_sum _ _ fewer ⟨element, member, less⟩
          exact Nat.add_lt_add_right sums 1

theorem bracketed {data : ArmaData Single} (tree : IntegerTree data)
    (hasData : data.hasData = true) (opened : ¬Unopened data) :
    Bracketed (deparseArmaData floats data) := by
  induction tree with
  | null => cases hasData
  | @unsigned value high => exact .word (by simp [deparseArmaData]) (plain_unsigned floats value)
  | @signed value low high => exact .word (by simp [deparseArmaData]) (plain_signed floats value)
  | @array elements all inductionHypothesis =>
      rw [deparse_array_opened floats opened]
      apply Bracketed.array
      intro text member
      obtain ⟨element, present, rfl⟩ := List.mem_map.mp member
      obtain ⟨inside, elementData⟩ := mem_printed.mp present
      exact inductionHypothesis element inside elementData fun unopened =>
        opened (.inside inside unopened)

/-- The text of a tree without blank arrays is the text of the cleaned tree. -/
theorem encodes {data : ArmaData Single} (tree : IntegerTree data)
    (hasData : data.hasData = true) (solid : ¬Blank data) :
    Encodes (Leaf floats) .array (deparseArmaData floats data) (clean data) := by
  induction tree with
  | null => cases hasData
  | unsigned high => exact .leaf (Flat.leaf floats (.unsigned high))
  | signed low high => exact .leaf (Flat.leaf floats (.signed low high))
  | @array elements all inductionHypothesis =>
      have some : printed elements ≠ [] := fun none =>
        solid (.here (printed_eq_nil.mp none))
      rw [deparse_array_printed floats some, clean, cleanElements_eq]
      apply Encodes.arrayMap _ _ some
      intro element present
      obtain ⟨inside, elementData⟩ := mem_printed.mp present
      exact inductionHypothesis element inside elementData fun blank =>
        solid (.inside inside blank)

theorem balanced {data : ArmaData Single} (tree : IntegerTree data) (opened : ¬Unopened data)
    (parse : Text → Except ParseError (ArmaData Single)) :
    Balanced parse (deparseArmaData floats data) := by
  induction tree with
  | null => exact .nil
  | unsigned high => exact (Flat.leaf floats (.unsigned high)).balanced parse
  | signed low high => exact (Flat.leaf floats (.signed low high)).balanced parse
  | @array elements all inductionHypothesis =>
      have type : Balanced parse [adArray] := .plain (by decide) (by decide) (by decide)
      rw [deparse_array_opened floats opened]
      apply type.append
      apply Balanced.bracketed
      apply balanced_joined
      intro text member
      obtain ⟨element, present, rfl⟩ := List.mem_map.mp member
      have inside := (mem_printed.mp present).1
      exact inductionHypothesis element inside fun unopened => opened (.inside inside unopened)

theorem balanced_inside {elements : List (ArmaData Single)}
    (tree : IntegerTree (.array elements)) (opened : ¬Unopened (.array elements))
    (parse : Text → Except ParseError (ArmaData Single)) :
    Balanced parse (joined ((printed elements).map (deparseArmaData floats))) := by
  cases tree with
  | array all =>
      apply balanced_joined
      intro text member
      obtain ⟨element, present, rfl⟩ := List.mem_map.mp member
      have inside := (mem_printed.mp present).1
      exact (all element inside).balanced (fun unopened => opened (.inside inside unopened)) parse

end IntegerTree

def Fails (parse : Text → Except ParseError (ArmaData Single)) (text : Text) : Prop :=
  ∀ tempArray result rest, arrayLoop parse (.flat [] false) tempArray (text ++ rest) ≠ .ok result

theorem fails_nested {parse : Text → Except ParseError (ArmaData Single)} {inner : Text}
    (balanced : Balanced parse inner)
    (unread : ∀ element, newElement parse (adArray :: adAsLeft :: (inner ++ [adAsRight])) ≠
      .ok element) : Fails parse (adArray :: adAsLeft :: (inner ++ [adAsRight])) := by
  intro tempArray result rest parsed
  obtain ⟨pairs, same⟩ := balanced.collected tempArray rest
  rw [same, arrayLoop] at parsed
  simp only [show adAsRight ≠ adUnit by decide, show adAsRight ≠ adAsLeft by decide, if_false,
    and_false, and_self, if_true] at parsed
  obtain ⟨element, built, -⟩ := bind_eq_ok parsed
  exact unread element built

/-- The loop does not come past a list of texts with one that it fails at. -/
theorem arrayLoop_joined_fails {parse : Text → Except ParseError (ArmaData Single)}
    {texts : List Text}
    (start : ∀ text ∈ texts, ∃ first after, text = first :: after ∧ first ≠ adAsRight)
    (all : ∀ text ∈ texts, (∃ element, Consumed parse text element) ∨ Fails parse text)
    (some : ∃ text ∈ texts, Fails parse text) (tempArray result : List (ArmaData Single)) :
    arrayLoop parse (.flat [] false) tempArray (joined texts ++ [adAsRight]) ≠ .ok result := by
  induction texts generalizing tempArray with
  | nil => simp at some
  | cons text texts inductionHypothesis =>
      rcases all text (by simp) with ⟨element, consumed⟩ | fails
      · cases texts with
        | nil =>
            obtain ⟨other, member, fails⟩ := some
            rw [List.mem_singleton.mp member] at fails
            exact absurd (consumed.last tempArray) (fails tempArray _ _)
        | cons second texts =>
            rw [consumed.before (start second (by simp))]
            apply inductionHypothesis
            · exact fun other member => start other (List.mem_cons_of_mem _ member)
            · exact fun other member => all other (List.mem_cons_of_mem _ member)
            · obtain ⟨other, member, fails⟩ := some
              rcases List.mem_cons.mp member with rfl | later
              · exact absurd (consumed.last tempArray) (fails tempArray _ _)
              · exact ⟨other, later, fails⟩
      · cases texts with
        | nil => exact fails _ _ _
        | cons second texts =>
            rw [joined_cons_cons, List.append_assoc]
            exact fails _ _ _

namespace IntegerTree

theorem start {data : ArmaData Single} (tree : IntegerTree data) (hasData : data.hasData = true) :
    ∃ first after, deparseArmaData floats data = first :: after ∧ first ≠ adAsRight := by
  cases tree with
  | null => cases hasData
  | unsigned => exact ⟨adUnsigned, _, rfl, by decide⟩
  | signed => exact ⟨adSigned, _, rfl, by decide⟩
  | array => exact ⟨adArray, _, rfl, by decide⟩

theorem consumed_or_fails {data : ArmaData Single} (tree : IntegerTree data)
    (hasData : data.hasData = true) (opened : ¬Unopened data) (depth : ℕ) :
    (∃ element, Consumed (buildData floats depth) (deparseArmaData floats data) element) ∨
      Fails (buildData floats depth) (deparseArmaData floats data) := by
  cases tree with
  | null => cases hasData
  | unsigned high => exact .inl ⟨_, (Flat.leaf floats (.unsigned high)).consumed depth⟩
  | signed low high => exact .inl ⟨_, (Flat.leaf floats (.signed low high)).consumed depth⟩
  | @array elements all =>
      have balanced : Balanced (buildData floats depth)
          (joined ((printed elements).map (deparseArmaData floats))) :=
        (IntegerTree.array all).balanced_inside opened _
      rw [deparse_array_opened floats opened]
      by_cases read : ∃ element, newElement (buildData floats depth)
          (arrayText ((printed elements).map (deparseArmaData floats))) = .ok element
      · obtain ⟨element, read⟩ := read
        exact .inl ⟨element, .array balanced read⟩
      · exact .inr (fails_nested balanced (not_exists.mp read))

theorem fails_of_unread {data : ArmaData Single} (tree : IntegerTree data)
    (opened : ¬Unopened data) (blank : Blank data) {depth : ℕ}
    (unread : ∀ result, buildData floats depth (deparseArmaData floats data) ≠ .ok result) :
    Fails (buildData floats depth) (deparseArmaData floats data) := by
  have noElement : ∀ element,
      newElement (buildData floats depth) (deparseArmaData floats data) ≠ .ok element := by
    intro element built
    obtain ⟨read, parsing, -⟩ := bind_eq_ok built
    exact unread read parsing
  obtain ⟨elements, rfl⟩ : ∃ elements, data = .array elements := by
    cases blank <;> exact ⟨_, rfl⟩
  have balanced : Balanced (buildData floats depth)
      (joined ((printed elements).map (deparseArmaData floats))) := tree.balanced_inside opened _
  rw [deparse_array_opened floats opened] at noElement ⊢
  exact fails_nested balanced noElement

theorem unread {data : ArmaData Single} (tree : IntegerTree data) (opened : ¬Unopened data)
    (blank : Blank data) {depth : ℕ} (deep : (deparseArmaData floats data).length ≤ depth) :
    ∀ result, buildData floats depth (deparseArmaData floats data) ≠ .ok result := by
  induction blank generalizing depth with
  | @here elements none =>
      intro result parsed
      rw [deparse_array_opened floats opened, printed_eq_nil.mpr none] at parsed deep
      cases depth with
      | zero => simp [arrayText] at deep
      | succ depth => cases parsed
  | @inside elements element member blank inductionHypothesis =>
      cases tree with
      | array all =>
          have openedInside : ∀ element ∈ elements, ¬Unopened element := fun element inside =>
            fun unopened => opened (.inside inside unopened)
          intro result parsed
          rw [deparse_array_opened floats opened] at parsed deep
          rw [length_arrayText] at deep
          obtain ⟨depth, rfl⟩ : ∃ less, depth = less + 1 := ⟨depth - 1, by omega⟩
          rw [arrayText, buildData, buildDataWith_array (by simp)] at parsed
          obtain ⟨read, loop, -⟩ := map_eq_ok parsed
          have present : element ∈ printed elements := mem_printed.mpr ⟨member, blank.hasData⟩
          have shorter := length_le_joined
            (List.mem_map_of_mem (f := deparseArmaData floats) present)
          have fails : Fails (buildData floats depth) (deparseArmaData floats element) := by
            apply fails_of_unread (all element member) (openedInside element member) blank
            apply inductionHypothesis (all element member) (openedInside element member)
            omega
          refine arrayLoop_joined_fails ?_ ?_ ⟨_, List.mem_map_of_mem present, fails⟩ [] read loop
          · intro text listed
            obtain ⟨other, otherPresent, rfl⟩ := List.mem_map.mp listed
            obtain ⟨inside, hasData⟩ := mem_printed.mp otherPresent
            exact (all other inside).start hasData
          · intro text listed
            obtain ⟨other, otherPresent, rfl⟩ := List.mem_map.mp listed
            obtain ⟨inside, hasData⟩ := mem_printed.mp otherPresent
            exact (all other inside).consumed_or_fails hasData (openedInside other inside) depth

end IntegerTree

/-- A tree is printed in brackets and read back cleaned exactly when each of its
arrays has an element with data. -/
theorem dataless_round_trip_iff (floats : FloatFormat Single) {elements : List (ArmaData Single)}
    (tree : IntegerTree (.array elements)) :
    Bracketed (deparseArmaData floats (.array elements)) ∧
        parseArmaData floats (deparseArmaData floats (.array elements)) =
          .ok (clean (.array elements)) ↔
      ¬Blank (.array elements) := by
  constructor
  · rintro ⟨bracketed, read⟩ blank
    have opened : ¬Unopened (.array elements) := fun unopened =>
      (tree.count_le.2 unopened).ne bracketed.count_eq
    exact tree.unread opened blank le_rfl _ read
  · intro solid
    refine ⟨tree.bracketed rfl fun unopened => solid unopened.blank, ?_⟩
    have some : printed elements ≠ [] := fun none => solid (.here (printed_eq_nil.mp none))
    rw [parseArmaData, deparse_array_printed floats some, clean, cleanElements_eq]
    cases tree with
    | array all =>
        refine buildData_arrayMap (deparseArmaData floats) clean some (fun element present => ?_)
          le_rfl
        obtain ⟨inside, hasData⟩ := mem_printed.mp present
        exact (all element inside).encodes hasData fun blank => solid (.inside inside blank)

theorem dataless_round_trip_iff_mixed :
    let floats : FloatFormat ℤ := ⟨stoll, fun _ => printInteger⟩
    let tree : List (ArmaData ℤ) := [.null, .signed (-5), .array [.unsigned 7, .null]]
    parseArmaData floats (deparseArmaData floats (.array tree)) =
      .ok (.array [.signed (-5), .array [.unsigned 7]]) := by
  intro floats tree
  have inner : IntegerTree (.array [.unsigned 7, .null] : ArmaData ℤ) := by
    refine .array fun element member => ?_
    simp only [List.mem_cons, List.not_mem_nil, or_false] at member
    rcases member with rfl | rfl
    · exact .unsigned (by decide)
    · exact .null
  have integers : IntegerTree (.array tree) := by
    refine .array fun element member => ?_
    simp only [tree, List.mem_cons, List.not_mem_nil, or_false] at member
    rcases member with rfl | rfl | rfl
    · exact .null
    · exact .signed (by decide) (by decide)
    · exact inner
  refine ((dataless_round_trip_iff floats integers).mpr fun blank => ?_).2
  have some : printed tree ≠ [] := by simp [printed, tree, hasData]
  cases blank with
  | here none => exact some (printed_eq_nil.mpr none)
  | inside member blank =>
      simp only [tree, List.mem_cons, List.not_mem_nil, or_false] at member
      rcases member with rfl | rfl | rfl
      · cases blank
      · cases blank
      · cases blank with
        | here none => simp [hasData] at none
        | inside member blank =>
            simp only [List.mem_cons, List.not_mem_nil, or_false] at member
            rcases member with rfl | rfl <;> cases blank

/-- An array of one element without data is printed as `@]`, which is read as
no data at all. -/
theorem dataless_element_lost :
    let floats : FloatFormat ℤ := ⟨stoll, fun _ => printInteger⟩
    deparseArmaData floats (.array [.null]) = "@]".toList ∧
      ¬∀ elements : List (ArmaData ℤ), IntegerTree (.array elements) →
        Bracketed (deparseArmaData floats (.array elements)) ∧
          parseArmaData floats (deparseArmaData floats (.array elements)) =
            .ok (clean (.array elements)) := by
  intro floats
  refine ⟨rfl, fun survives => ?_⟩
  have tree : IntegerTree (.array [.null] : ArmaData ℤ) := by
    refine .array fun element member => ?_
    rw [List.mem_singleton.mp member]
    exact .null
  have read := (survives [.null] tree).2
  have lost : parseArmaData floats (deparseArmaData floats (.array [.null])) = .ok .null := rfl
  rw [lost] at read
  cases read

end ArmaData

end OperationFrontLine.Wire
