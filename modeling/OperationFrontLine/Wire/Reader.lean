import OperationFrontLine.Wire.ArmaData

/-!
# `BuildData` reads the format

Two facts about `arrayLoop` carry the proof.  A flat element is collected up to
its separator, its quoting removed; a nested array is copied up to its own
closing bracket, because its text is balanced, and parsed again.
-/

namespace OperationFrontLine.Wire

open OperationFrontLine.Library OperationFrontLine.Native

namespace ArmaData

variable {Single : Type}

section Loop

variable {parse : Text → Except ParseError (ArmaData Single)}
  {tempArray : List (ArmaData Single)} {temp : Text} {element : ArmaData Single}
  {character next : Char} {after : Text}

def Ends (character : Char) : Prop := character = adSeperator ∨ character = adAsRight

instance (character : Char) : Decidable (Ends character) :=
  inferInstanceAs (Decidable (_ ∨ _))

def toggled (ignore : Bool) (character : Char) : Bool :=
  if character = adUnit then !ignore else ignore

def unquoted (word : Text) : Text := word.filter fun character => character ≠ adUnit

theorem unquoted_append (first second : Text) :
    unquoted (first ++ second) = unquoted first ++ unquoted second := List.filter_append ..

theorem toggled_of_ne {ignore : Bool} (noUnit : character ≠ adUnit) :
    toggled ignore character = ignore := if_neg noUnit

theorem unquoted_of_ne (noUnit : character ≠ adUnit) : unquoted [character] = [character] := by
  simp [unquoted, noUnit]

theorem flat_goes {ignore : Bool} (noArray : character ≠ adArray)
    (goes : toggled ignore character = false → ¬Ends next) :
    arrayLoop parse (.flat temp ignore) tempArray (character :: next :: after) =
      arrayLoop parse (.flat (temp ++ unquoted [character]) (toggled ignore character)) tempArray
        (next :: after) := by
  rw [arrayLoop, if_neg noArray]
  by_cases unit : character = adUnit
  · subst unit
    simp only [toggled, if_true] at goes ⊢
    rw [if_neg fun ends => goes ends.1 ends.2]
    simp [unquoted]
  · simp only [toggled, if_neg unit] at goes ⊢
    rw [if_neg fun ends => goes ends.1 ends.2]
    simp [unquoted, unit]

theorem flat_keep {ignore : Bool} (noArray : character ≠ adArray) (noUnit : character ≠ adUnit)
    (goes : ignore = false → ¬Ends next) :
    arrayLoop parse (.flat temp ignore) tempArray (character :: next :: after) =
      arrayLoop parse (.flat (temp ++ [character]) ignore) tempArray (next :: after) := by
  have step := @flat_goes _ parse tempArray temp _ _ after ignore noArray
    (by rwa [toggled_of_ne noUnit])
  rwa [toggled_of_ne noUnit, unquoted_of_ne noUnit] at step

theorem flat_quote :
    arrayLoop parse (.flat temp false) tempArray (adUnit :: next :: after) =
      arrayLoop parse (.flat temp true) tempArray (next :: after) := by
  have step := @flat_goes _ parse tempArray temp adUnit next after false (by decide)
    (by simp [toggled])
  simpa [toggled, unquoted] using step

def afterFlat (parse : Text → Except ParseError (ArmaData Single))
    (tempArray : List (ArmaData Single)) (next : Char) (after : Text) :
    Except ParseError (List (ArmaData Single)) :=
  if next = adAsRight then
    if after = [] then .ok tempArray else .error .errorEnd
  else if after = [] then
    .error .errorExpected
  else
    arrayLoop parse (.flat [] false) tempArray after

theorem flat_ends {ignore : Bool} (noArray : character ≠ adArray)
    (closed : toggled ignore character = false) (ends : Ends next) :
    arrayLoop parse (.flat temp ignore) tempArray (character :: next :: after) =
      (newElement parse (temp ++ unquoted [character])).bind fun element =>
        afterFlat parse (tempArray ++ [element]) next after := by
  rw [Ends] at ends
  rw [arrayLoop, if_neg noArray]
  by_cases unit : character = adUnit
  · subst unit
    simp only [toggled, if_true] at closed ⊢
    rw [if_pos ⟨closed, ends⟩]
    simp only [unquoted, afterFlat]
    simp
  · simp only [toggled, if_neg unit] at closed ⊢
    rw [if_pos ⟨closed, ends⟩]
    simp only [unquoted, afterFlat]
    simp [unit]

theorem flat_end (noArray : character ≠ adArray) (noUnit : character ≠ adUnit)
    (ends : Ends next) (parsed : newElement parse (temp ++ [character]) = .ok element) :
    arrayLoop parse (.flat temp false) tempArray (character :: next :: after) =
      afterFlat parse (tempArray ++ [element]) next after := by
  rw [flat_ends noArray (toggled_of_ne noUnit) ends, unquoted_of_ne noUnit, parsed]
  rfl

theorem flat_unquote_end (ends : Ends next) (parsed : newElement parse temp = .ok element) :
    arrayLoop parse (.flat temp true) tempArray (adUnit :: next :: after) =
      afterFlat parse (tempArray ++ [element]) next after := by
  have nothing : unquoted [adUnit] = [] := by simp [unquoted]
  rw [flat_ends (by decide) (by simp [toggled]) ends, nothing, List.append_nil, parsed]
  rfl

theorem flat_plain {word : Text} (nonempty : word ≠ [])
    (plain : ∀ character ∈ word, character ≠ adArray ∧ character ≠ adUnit ∧ ¬Ends character)
    (ends : Ends next) (parsed : newElement parse (temp ++ word) = .ok element) :
    arrayLoop parse (.flat temp false) tempArray (word ++ next :: after) =
      afterFlat parse (tempArray ++ [element]) next after := by
  induction word generalizing temp with
  | nil => exact absurd rfl nonempty
  | cons character word inductionHypothesis =>
      have first := plain character (by simp)
      cases word with
      | nil => exact flat_end first.1 first.2.1 ends parsed
      | cons second word =>
          have goes := (plain second (by simp)).2.2
          rw [List.cons_append, List.cons_append, flat_keep first.1 first.2.1 fun _ => goes,
            ← List.cons_append]
          refine inductionHypothesis (by simp) (fun other member => plain other ?_) ?_
          · exact List.mem_cons_of_mem _ member
          · rwa [List.append_assoc]

theorem flat_quoted {word : Text}
    (quoted : ∀ character ∈ word, character ≠ adArray ∧ character ≠ adUnit)
    (ends : Ends next) (parsed : newElement parse (temp ++ word) = .ok element) :
    arrayLoop parse (.flat temp true) tempArray (word ++ adUnit :: next :: after) =
      afterFlat parse (tempArray ++ [element]) next after := by
  induction word generalizing temp with
  | nil => exact flat_unquote_end ends (by simpa using parsed)
  | cons character word inductionHypothesis =>
      have first := quoted character (by simp)
      have rest : arrayLoop parse (.flat (temp ++ [character]) true) tempArray
          (word ++ adUnit :: next :: after) =
            afterFlat parse (tempArray ++ [element]) next after :=
        inductionHypothesis (fun other member => quoted other (List.mem_cons_of_mem _ member))
          (by rwa [List.append_assoc])
      cases word with
      | nil => exact (flat_keep first.1 first.2 (by simp)).trans rest
      | cons second word => exact (flat_keep first.1 first.2 (by simp)).trans rest

end Loop

section Nested

variable {parse : Text → Except ParseError (ArmaData Single)}
  {tempArray : List (ArmaData Single)} {temp rest : Text} {character : Char}
  {left right : ℕ}

/-- A character that does not close the array is collected; brackets count outside quotes. -/
theorem nested_stays {ignore : Bool}
    (stays : toggled ignore character = false →
      (if character = adAsLeft then left + 1 else left) ≠
        if character = adAsRight then right + 1 else right) :
    arrayLoop parse (.nested temp ignore left right) tempArray (character :: rest) =
      arrayLoop parse (.nested (temp ++ [character]) (toggled ignore character)
        (if toggled ignore character = false ∧ character = adAsLeft then left + 1 else left)
        (if toggled ignore character = false ∧ character = adAsRight then right + 1 else right))
        tempArray rest := by
  rw [arrayLoop]
  refine if_neg fun closes => stays closes.1 ?_
  simpa only [toggled, closes.1, true_and] using closes.2

theorem nested_plain (noUnit : character ≠ adUnit) (noLeft : character ≠ adAsLeft)
    (noRight : character ≠ adAsRight) (inside : right < left) :
    arrayLoop parse (.nested temp false left right) tempArray (character :: rest) =
      arrayLoop parse (.nested (temp ++ [character]) false left right) tempArray rest := by
  rw [nested_stays (by simp [noLeft, noRight, inside.ne'])]
  simp [toggled_of_ne noUnit, noLeft, noRight]

theorem nested_left (inside : right < left) :
    arrayLoop parse (.nested temp false left right) tempArray (adAsLeft :: rest) =
      arrayLoop parse (.nested (temp ++ [adAsLeft]) false (left + 1) right) tempArray rest := by
  have noUnit : adAsLeft ≠ adUnit := by decide
  have noRight : adAsLeft ≠ adAsRight := by decide
  have different : left + 1 ≠ right := by omega
  rw [nested_stays (by simp [noRight, different])]
  simp [toggled_of_ne noUnit, noRight]

theorem nested_right (inside : right + 1 < left) :
    arrayLoop parse (.nested temp false left right) tempArray (adAsRight :: rest) =
      arrayLoop parse (.nested (temp ++ [adAsRight]) false left (right + 1)) tempArray rest := by
  have noUnit : adAsRight ≠ adUnit := by decide
  have noLeft : adAsRight ≠ adAsLeft := by decide
  rw [nested_stays (by simp [noLeft, inside.ne'])]
  simp [toggled_of_ne noUnit, noLeft]

theorem nested_quote :
    arrayLoop parse (.nested temp false left right) tempArray (adUnit :: rest) =
      arrayLoop parse (.nested (temp ++ [adUnit]) true left right) tempArray rest := by
  rw [nested_stays (by simp [toggled])]
  simp [toggled]

theorem nested_quoted (noUnit : character ≠ adUnit) :
    arrayLoop parse (.nested temp true left right) tempArray (character :: rest) =
      arrayLoop parse (.nested (temp ++ [character]) true left right) tempArray rest := by
  rw [nested_stays (by simp [toggled_of_ne noUnit])]
  simp [toggled_of_ne noUnit]

theorem nested_unquote (inside : right < left) :
    arrayLoop parse (.nested temp true left right) tempArray (adUnit :: rest) =
      arrayLoop parse (.nested (temp ++ [adUnit]) false left right) tempArray rest := by
  have noLeft : adUnit ≠ adAsLeft := by decide
  have noRight : adUnit ≠ adAsRight := by decide
  rw [nested_stays (by simp [noLeft, noRight, inside.ne'])]
  simp [toggled, noLeft, noRight]

end Nested

/-- Text whose brackets match and whose quotes close: inside a nested array it
is copied, and counts as many left as right brackets. -/
def Balanced (parse : Text → Except ParseError (ArmaData Single)) (word : Text) : Prop :=
  ∀ temp left right tempArray rest, right < left → ∃ pairs,
    arrayLoop parse (.nested temp false left right) tempArray (word ++ rest) =
      arrayLoop parse (.nested (temp ++ word) false (left + pairs) (right + pairs)) tempArray rest

namespace Balanced

variable {parse : Text → Except ParseError (ArmaData Single)} {first second word : Text}

theorem nil : Balanced parse [] := fun temp left right tempArray rest _ => ⟨0, by simp⟩

theorem append (firstBalanced : Balanced parse first) (secondBalanced : Balanced parse second) :
    Balanced parse (first ++ second) := by
  intro temp left right tempArray rest inside
  obtain ⟨pairs, copied⟩ := firstBalanced temp left right tempArray (second ++ rest) inside
  obtain ⟨more, copiedMore⟩ := secondBalanced (temp ++ first) (left + pairs) (right + pairs)
    tempArray rest (by omega)
  refine ⟨pairs + more, ?_⟩
  rw [List.append_assoc, copied, copiedMore, List.append_assoc, add_assoc, add_assoc]

theorem plain {character : Char} (noUnit : character ≠ adUnit) (noLeft : character ≠ adAsLeft)
    (noRight : character ≠ adAsRight) : Balanced parse [character] :=
  fun _ _ _ _ _ inside => ⟨0, nested_plain noUnit noLeft noRight inside⟩

theorem plainWord (plains : ∀ character ∈ word,
    character ≠ adUnit ∧ character ≠ adAsLeft ∧ character ≠ adAsRight) : Balanced parse word := by
  induction word with
  | nil => exact nil
  | cons character word inductionHypothesis =>
      obtain ⟨noUnit, noLeft, noRight⟩ := plains character (by simp)
      exact (plain noUnit noLeft noRight).append
        (inductionHypothesis fun other member => plains other (List.mem_cons_of_mem _ member))

theorem quoted (noUnit : adUnit ∉ word) : Balanced parse (adUnit :: (word ++ [adUnit])) := by
  intro temp left right tempArray rest inside
  have copied : ∀ temp, arrayLoop parse (.nested temp true left right) tempArray
      (word ++ adUnit :: rest) =
        arrayLoop parse (.nested (temp ++ word ++ [adUnit]) false left right) tempArray rest := by
    induction word with
    | nil => exact fun temp => by simpa using nested_unquote inside
    | cons character word inductionHypothesis =>
        intro temp
        have different : character ≠ adUnit := fun same => noUnit (by simp [same])
        have fewer : adUnit ∉ word := fun member => noUnit (by simp [member])
        rw [List.cons_append, nested_quoted different, inductionHypothesis fewer]
        simp
  refine ⟨0, ?_⟩
  rw [List.cons_append, List.append_assoc, nested_quote, List.singleton_append, copied]
  simp

theorem bracketed (balanced : Balanced parse word) :
    Balanced parse (adAsLeft :: (word ++ [adAsRight])) := by
  intro temp left right tempArray rest inside
  obtain ⟨pairs, copied⟩ := balanced (temp ++ [adAsLeft]) (left + 1) right tempArray
    (adAsRight :: rest) (by omega)
  refine ⟨pairs + 1, ?_⟩
  rw [List.cons_append, nested_left inside, List.append_assoc, List.singleton_append, copied,
    nested_right (by omega)]
  simp [add_assoc, add_comm 1]

/-- The text of a nested array is collected up to its own closing bracket. -/
theorem collected (balanced : Balanced parse word) (tempArray : List (ArmaData Single))
    (rest : Text) : ∃ pairs,
      arrayLoop parse (.flat [] false) tempArray
          (adArray :: adAsLeft :: (word ++ [adAsRight]) ++ rest) =
        arrayLoop parse (.nested (adArray :: adAsLeft :: word) false (pairs + 1) pairs)
          tempArray (adAsRight :: rest) := by
  obtain ⟨pairs, same⟩ := balanced [adArray, adAsLeft] 1 0 tempArray (adAsRight :: rest)
    (by decide)
  refine ⟨pairs, ?_⟩
  rw [List.cons_append, List.cons_append, arrayLoop, if_pos rfl, List.append_assoc,
    List.singleton_append]
  rw [if_pos ⟨rfl, by simp⟩, same, zero_add, add_comm 1 pairs]
  rfl

end Balanced

/-- The loop takes the text for one element, whatever comes behind it. -/
structure Consumed (parse : Text → Except ParseError (ArmaData Single)) (word : Text)
    (element : ArmaData Single) : Prop where
  last : ∀ tempArray, arrayLoop parse (.flat [] false) tempArray (word ++ [adAsRight]) =
    .ok (tempArray ++ [element])
  more : ∀ tempArray first after, first ≠ adAsRight →
    arrayLoop parse (.flat [] false) tempArray (word ++ adSeperator :: first :: after) =
      arrayLoop parse (.flat [] false) (tempArray ++ [element]) (first :: after)

namespace Consumed

variable {parse : Text → Except ParseError (ArmaData Single)} {word : Text}
  {element : ArmaData Single}

theorem ofFlat (collected : ∀ tempArray next after, Ends next →
    arrayLoop parse (.flat [] false) tempArray (word ++ next :: after) =
      afterFlat parse (tempArray ++ [element]) next after) : Consumed parse word element where
  last tempArray := by
    rw [collected tempArray adAsRight [] (.inr rfl)]
    rfl
  more tempArray first after _ := by
    rw [collected tempArray adSeperator (first :: after) (.inl rfl)]
    rfl

theorem plain (nonempty : word ≠ [])
    (plains : ∀ character ∈ word, character ≠ adArray ∧ character ≠ adUnit ∧ ¬Ends character)
    (parsed : newElement parse word = .ok element) : Consumed parse word element :=
  ofFlat fun _ _ _ ends => flat_plain nonempty plains ends parsed

theorem quoted {type : Char} (typeNoArray : type ≠ adArray) (typeNoUnit : type ≠ adUnit)
    (quotable : ∀ character ∈ word, character ≠ adArray ∧ character ≠ adUnit)
    (parsed : newElement parse (type :: word) = .ok element) :
    Consumed parse (type :: adUnit :: (word ++ [adUnit])) element := by
  refine ofFlat fun tempArray next after ends => ?_
  have collected : arrayLoop parse (.flat [type] true) tempArray
      (word ++ adUnit :: next :: after) =
        afterFlat parse (tempArray ++ [element]) next after := flat_quoted quotable ends parsed
  rw [List.cons_append, List.cons_append, flat_keep typeNoArray typeNoUnit (by decide),
    List.append_assoc, List.singleton_append]
  cases word with
  | nil => exact flat_quote.trans collected
  | cons character word => exact flat_quote.trans collected

theorem array {inner : Text} (balanced : Balanced parse inner)
    (parsed : newElement parse (adArray :: adAsLeft :: (inner ++ [adAsRight])) = .ok element) :
    Consumed parse (adArray :: adAsLeft :: (inner ++ [adAsRight])) element := by
  constructor
  · intro tempArray
    obtain ⟨pairs, same⟩ := balanced.collected tempArray [adAsRight]
    rw [same, arrayLoop]
    simp [show adAsRight ≠ adUnit by decide, show adAsRight ≠ adAsLeft by decide, parsed,
      Except.bind]
  · intro tempArray first after notRight
    obtain ⟨pairs, same⟩ := balanced.collected tempArray (adSeperator :: first :: after)
    rw [same, arrayLoop]
    simp [show adAsRight ≠ adUnit by decide, show adAsRight ≠ adAsLeft by decide, parsed,
      Except.bind, show adSeperator ≠ adAsRight by decide, notRight]

theorem before (consumed : Consumed parse word element) {second : Text}
    (start : ∃ first after, second = first :: after ∧ first ≠ adAsRight) (texts : List Text)
    (tempArray : List (ArmaData Single)) :
    arrayLoop parse (.flat [] false) tempArray (joined (word :: second :: texts) ++ [adAsRight]) =
      arrayLoop parse (.flat [] false) (tempArray ++ [element])
        (joined (second :: texts) ++ [adAsRight]) := by
  obtain ⟨first, after, rfl, notRight⟩ := start
  rw [joined_cons_cons, List.append_assoc, List.cons_append]
  cases texts with
  | nil => exact consumed.more tempArray first _ notRight
  | cons third texts => exact consumed.more tempArray first _ notRight

end Consumed

/-- A leaf inside an array: a quoted string, or a plain word that `BuildData`
reads. -/
inductive Leaf (floats : FloatFormat Single) : Text → ArmaData Single → Prop where
  | string {value : Text} (nonempty : value ≠ []) (noUnit : adUnit ∉ value)
      (noArray : adArray ∉ value) :
      Leaf floats (adString :: adUnit :: (value ++ [adUnit])) (.string value)
  | word {type : Char} {word : Text} {data : ArmaData Single} (plain : Plain type)
      (plains : ∀ character ∈ word, Plain character) (hasData : data.hasData = true)
      (read : ∀ parse, buildDataWith floats parse (type :: word) = .ok data) :
      Leaf floats (type :: word) data

section Reading

variable {floats : FloatFormat Single}

theorem newElement_of_read {depth : ℕ} {text : Text} {data : ArmaData Single}
    (hasData : data.hasData = true)
    (read : ∀ parse, buildDataWith floats parse text = .ok data) :
    newElement (buildData floats depth) text = .ok data := by
  have built : buildData floats depth text = .ok data := by
    cases depth with
    | zero => exact read _
    | succ depth => exact read _
  rw [newElement, built]
  simp [Except.bind, hasData]

theorem Leaf.consumed {text : Text} {data : ArmaData Single} (leaf : Leaf floats text data)
    (depth : ℕ) : Consumed (buildData floats depth) text data := by
  cases leaf with
  | @string value nonempty noUnit noArray =>
      refine .quoted (by decide) (by decide) (fun character member => ⟨?_, ?_⟩) ?_
      · exact fun same => noArray (same ▸ member)
      · exact fun same => noUnit (same ▸ member)
      · obtain ⟨first, rest, rfl⟩ := List.exists_cons_of_ne_nil nonempty
        exact newElement_of_read rfl fun parse => rfl
  | word plain plains hasData read =>
      refine .plain (List.cons_ne_nil _ _) (fun character member => ?_)
        (newElement_of_read hasData read)
      have plain : Plain character := by
        rcases List.mem_cons.mp member with rfl | later
        · exact plain
        · exact plains character later
      simp only [Plain, List.mem_cons, List.not_mem_nil, or_false, not_or] at plain
      exact ⟨plain.1, plain.2.1, not_or.mpr ⟨plain.2.2.1, plain.2.2.2.1⟩⟩

theorem Leaf.balanced {text : Text} {data : ArmaData Single} (leaf : Leaf floats text data)
    (parse : Text → Except ParseError (ArmaData Single)) : Balanced parse text := by
  cases leaf with
  | string nonempty noUnit noArray =>
      have type : Balanced parse [adString] := .plain (by decide) (by decide) (by decide)
      exact type.append (.quoted noUnit)
  | word plain plains =>
      refine .plainWord fun character member => ?_
      have plain : Plain character := by
        rcases List.mem_cons.mp member with rfl | later
        · exact plain
        · exact plains character later
      simp only [Plain, List.mem_cons, List.not_mem_nil, or_false, not_or] at plain
      exact ⟨plain.2.1, plain.2.2.2.2, plain.2.2.2.1⟩

theorem balanced_joined {parse : Text → Except ParseError (ArmaData Single)} {texts : List Text}
    (all : ∀ text ∈ texts, Balanced parse text) : Balanced parse (joined texts) := by
  induction texts with
  | nil => exact .nil
  | cons text texts inductionHypothesis =>
      have first := all text (by simp)
      cases texts with
      | nil => exact first
      | cons second texts =>
          have later := inductionHypothesis fun other member =>
            all other (List.mem_cons_of_mem _ member)
          have separator : Balanced parse [adSeperator] :=
            .plain (by decide) (by decide) (by decide)
          exact first.append (separator.append later)

theorem balanced_of_encodes {text : Text} {data : ArmaData Single}
    (encodes : Encodes (Leaf floats) array text data)
    (parse : Text → Except ParseError (ArmaData Single)) : Balanced parse text := by
  induction encodes with
  | leaf leaf => exact leaf.balanced parse
  | array nonempty all inductionHypothesis =>
      have type : Balanced parse [adArray] := .plain (by decide) (by decide) (by decide)
      refine type.append (balanced_joined fun text member => ?_).bracketed
      obtain ⟨element, present, rfl⟩ := List.mem_map.mp member
      exact inductionHypothesis element present

theorem start_of_encodes {text : Text} {data : ArmaData Single}
    (encodes : Encodes (Leaf floats) array text data) :
    ∃ first after, text = first :: after ∧ first ≠ adAsRight := by
  cases encodes with
  | leaf leaf =>
      cases leaf with
      | string => exact ⟨_, _, rfl, by decide⟩
      | word plain => exact ⟨_, _, rfl, fun same => plain (by simp [same])⟩
  | array => exact ⟨_, _, rfl, by decide⟩

theorem arrayLoop_joined {parse : Text → Except ParseError (ArmaData Single)}
    {elements : List (Text × ArmaData Single)} (nonempty : elements ≠ [])
    (start : ∀ element ∈ elements, ∃ first after,
      element.1 = first :: after ∧ first ≠ adAsRight)
    (all : ∀ element ∈ elements, Consumed parse element.1 element.2)
    (tempArray : List (ArmaData Single)) :
    arrayLoop parse (.flat [] false) tempArray
        (joined (elements.map Prod.fst) ++ [adAsRight]) =
      .ok (tempArray ++ elements.map Prod.snd) := by
  induction elements generalizing tempArray with
  | nil => exact absurd rfl nonempty
  | cons element elements inductionHypothesis =>
      have consumed := all element (by simp)
      cases elements with
      | nil => exact consumed.last tempArray
      | cons second elements =>
          have later := inductionHypothesis (by simp)
            (fun other member => start other (List.mem_cons_of_mem _ member))
            (fun other member => all other (List.mem_cons_of_mem _ member))
            (tempArray ++ [element.2])
          rw [List.map_cons, List.map_cons,
            consumed.before (start second (by simp)) (elements.map Prod.fst), ← List.map_cons,
            later]
          simp

theorem buildDataWith_array {parse : Text → Except ParseError (ArmaData Single)} {text : Text}
    (more : text ≠ []) :
    buildDataWith floats parse (adArray :: adAsLeft :: text) =
      (arrayLoop parse (.flat [] false) [] text).map array := by
  simp only [buildDataWith, show adArray ≠ adString by decide, show adArray ≠ adFloat by decide,
    show adArray ≠ adSigned by decide, show adArray ≠ adUnsigned by decide, if_false, if_true,
    if_neg more]

/-- `BuildData` reads the text of an array once its elements are consumed. -/
theorem buildData_of_consumed {depth : ℕ} {elements : List (Text × ArmaData Single)}
    (nonempty : elements ≠ [])
    (all : ∀ element ∈ elements, Encodes (Leaf floats) array element.1 element.2)
    (consumed : ∀ element ∈ elements,
      Consumed (buildData floats depth) element.1 element.2) :
    buildData floats (depth + 1) (arrayText (elements.map Prod.fst)) =
      .ok (.array (elements.map Prod.snd)) := by
  have loop := arrayLoop_joined nonempty
    (fun element member => start_of_encodes (all element member)) consumed []
  rw [arrayText, buildData, buildDataWith_array (by simp), loop]
  rfl

theorem consumed_of_encodes {text : Text} {data : ArmaData Single}
    (encodes : Encodes (Leaf floats) array text data) :
    ∀ depth, text.length ≤ depth → Consumed (buildData floats depth) text data := by
  induction encodes with
  | leaf leaf => exact fun depth _ => leaf.consumed depth
  | @array elements nonempty all inductionHypothesis =>
      intro depth long
      rw [length_arrayText] at long
      obtain ⟨depth, rfl⟩ : ∃ less, depth = less + 1 := ⟨depth - 1, by omega⟩
      have shorter : ∀ element ∈ elements, element.1.length ≤ depth := fun element member => by
        have := length_le_joined (List.mem_map_of_mem (f := Prod.fst) member)
        omega
      have parsed := buildData_of_consumed nonempty all fun element member =>
        inductionHypothesis element member depth (shorter element member)
      refine .array (balanced_joined fun text member => ?_) ?_
      · obtain ⟨element, present, rfl⟩ := List.mem_map.mp member
        exact balanced_of_encodes (all element present) _
      · rw [newElement, ← arrayText, parsed]
        rfl

theorem buildData_arrayText {depth : ℕ} {elements : List (Text × ArmaData Single)}
    (nonempty : elements ≠ [])
    (all : ∀ element ∈ elements, Encodes (Leaf floats) array element.1 element.2)
    (deep : (arrayText (elements.map Prod.fst)).length ≤ depth) :
    buildData floats depth (arrayText (elements.map Prod.fst)) =
      .ok (.array (elements.map Prod.snd)) := by
  rw [length_arrayText] at deep
  obtain ⟨depth, rfl⟩ : ∃ less, depth = less + 1 := ⟨depth - 1, by omega⟩
  refine buildData_of_consumed nonempty all fun element member =>
    consumed_of_encodes (all element member) depth ?_
  have shorter := length_le_joined (List.mem_map_of_mem (f := Prod.fst) member)
  omega

theorem buildData_arrayMap {Source : Type} {depth : ℕ} {sources : List Source}
    (text : Source → Text) (value : Source → ArmaData Single) (nonempty : sources ≠ [])
    (all : ∀ source ∈ sources, Encodes (Leaf floats) array (text source) (value source))
    (deep : (arrayText (sources.map text)).length ≤ depth) :
    buildData floats depth (arrayText (sources.map text)) = .ok (.array (sources.map value)) := by
  have fst : (sources.map fun source => (text source, value source)).map Prod.fst =
      sources.map text := by simp
  have snd : (sources.map fun source => (text source, value source)).map Prod.snd =
      sources.map value := by simp
  rw [← fst] at deep ⊢
  rw [← snd]
  refine buildData_arrayText (by simpa using nonempty) (fun element member => ?_) deep
  obtain ⟨source, present, rfl⟩ := List.mem_map.mp member
  exact all source present

end Reading

end ArmaData

end OperationFrontLine.Wire
