import OperationFrontLine.Wire.RoundTrip

/-!
# What quoting protects

Between unit characters the loop of `BuildData` takes brackets and separators
as they are.  The test for a nested array does not ask for the quotes: it drops
what was collected, and what follows becomes an array.
-/

namespace OperationFrontLine.Wire

open OperationFrontLine.Library OperationFrontLine.Native

theorem bind_eq_ok {Value Result : Type} {first : Except ParseError Value}
    {next : Value → Except ParseError Result} {result : Result}
    (bound : first.bind next = .ok result) :
    ∃ value, first = .ok value ∧ next value = .ok result := by
  cases first with
  | error failure => cases bound
  | ok value => exact ⟨value, rfl, bound⟩

theorem map_eq_ok {Value Result : Type} {first : Except ParseError Value} {next : Value → Result}
    {result : Result} (mapped : first.map next = .ok result) :
    ∃ value, first = .ok value ∧ next value = result := by
  cases first with
  | error failure => cases mapped
  | ok value =>
      cases mapped
      exact ⟨value, rfl, rfl⟩

/-- A nested array is being collected, its opening bracket included. -/
def Phase.CollectsArray : Phase → Prop
  | .flat _ _ => False
  | .nested temp _ _ _ => ∃ start, temp = adArray :: adAsLeft :: start

namespace ArmaData

variable {Single : Type}

def quotedText (value : Text) : Text := adString :: adUnit :: (value ++ [adUnit])

section Loop

variable {parse : Text → Except ParseError (ArmaData Single)}
  {tempArray result : List (ArmaData Single)}

theorem arrayLoop_extends {phase : Phase} {text : Text}
    (parsed : arrayLoop parse phase tempArray text = .ok result) :
    ∃ more, result = tempArray ++ more := by
  fun_induction arrayLoop with
  | case1 | case2 | case4 | case5 | case8 => cases parsed
  | case3 temp ignore tempArray bracket next opens inductionHypothesis =>
      exact inductionHypothesis parsed
  | case6 temp ignore tempArray character flat temp' ignore' next after ends
      inductionHypothesis =>
      obtain ⟨tempElement, -, continued⟩ := bind_eq_ok parsed
      split at continued
      · split at continued
        · cases continued
          exact ⟨[tempElement], rfl⟩
        · cases continued
      · split at continued
        · cases continued
        · obtain ⟨more, rfl⟩ := inductionHypothesis tempElement continued
          exact ⟨tempElement :: more, by simp⟩
  | case7 temp ignore tempArray character flat temp' ignore' next after goes
      inductionHypothesis => exact inductionHypothesis parsed
  | case9 temp ignore left right tempArray character rest ignore' temp' left' right' closes
      inductionHypothesis =>
      obtain ⟨tempElement, -, continued⟩ := bind_eq_ok parsed
      have later := inductionHypothesis tempElement
      rcases rest with _ | ⟨separator, _ | ⟨first, after⟩⟩
      · cases continued
      · dsimp only at continued
        split at continued
        · cases continued
          exact ⟨[tempElement], rfl⟩
        · cases continued
      · dsimp only at continued
        split at continued
        · cases continued
        · split at continued
          · cases continued
          · obtain ⟨more, rfl⟩ := later continued
            exact ⟨tempElement :: more, by simp⟩
  | case10 temp ignore left right tempArray character rest ignore' temp' left' right' inside
      inductionHypothesis => exact inductionHypothesis parsed

theorem nested_adds_array
    (arrays : ∀ text element, newElement parse (adArray :: adAsLeft :: text) = .ok element →
      ∃ elements, element = .array elements)
    {phase : Phase} {text : Text} (collects : phase.CollectsArray)
    (parsed : arrayLoop parse phase tempArray text = .ok result) :
    ∃ elements more, result = tempArray ++ .array elements :: more := by
  fun_induction arrayLoop with
  | case1 | case2 | case3 | case4 | case5 | case6 | case7 => exact collects.elim
  | case8 => cases parsed
  | case9 temp ignore left right tempArray character rest ignore' temp' left' right' closes =>
      obtain ⟨tempElement, built, continued⟩ := bind_eq_ok parsed
      obtain ⟨start, rfl⟩ := collects
      obtain ⟨elements, rfl⟩ := arrays _ _ built
      rcases rest with _ | ⟨separator, _ | ⟨first, after⟩⟩
      · cases continued
      · dsimp only at continued
        split at continued
        · cases continued
          exact ⟨elements, [], rfl⟩
        · cases continued
      · dsimp only at continued
        split at continued
        · cases continued
        · split at continued
          · cases continued
          · obtain ⟨more, rfl⟩ := arrayLoop_extends continued
            exact ⟨elements, more, by simp⟩
  | case10 temp ignore left right tempArray character rest ignore' temp' left' right' inside
      inductionHypothesis =>
      obtain ⟨start, rfl⟩ := collects
      exact inductionHypothesis ⟨start ++ [character], rfl⟩ parsed

variable {value temp : Text} {next : Char} {after : Text}

/-- Up to a character that opens an array, a quoted string is collected. -/
theorem flat_quoted_prefix {word : Text} {rest : Text}
    (quoted : ∀ character ∈ word, character ≠ adArray ∧ character ≠ adUnit)
    (more : rest ≠ []) :
    arrayLoop parse (.flat temp true) tempArray (word ++ rest) =
      arrayLoop parse (.flat (temp ++ word) true) tempArray rest := by
  induction word generalizing temp with
  | nil => simp
  | cons character word inductionHypothesis =>
      have first := quoted character (by simp)
      have later : arrayLoop parse (.flat (temp ++ [character]) true) tempArray (word ++ rest) =
          arrayLoop parse (.flat (temp ++ [character] ++ word) true) tempArray rest :=
        inductionHypothesis fun other member => quoted other (List.mem_cons_of_mem _ member)
      obtain ⟨next, after, shape⟩ := List.exists_cons_of_ne_nil
        (show word ++ rest ≠ [] by simp [more])
      rw [List.cons_append, shape, flat_keep first.1 first.2 (by simp), ← shape, later]
      simp

theorem flat_opens_quote {rest : Text} (more : rest ≠ []) :
    arrayLoop parse (.flat [] false) tempArray (adString :: adUnit :: rest) =
      arrayLoop parse (.flat [adString] true) tempArray rest := by
  obtain ⟨next, after, rfl⟩ := List.exists_cons_of_ne_nil more
  rw [flat_keep (by decide) (by decide) (by decide)]
  exact flat_quote

theorem quoted_empty_fails (single : ∃ failure, newElement parse [adString] = .error failure)
    (ends : Ends next) :
    arrayLoop parse (.flat [] false) tempArray (quotedText [] ++ next :: after) ≠
      .ok result := by
  obtain ⟨failure, single⟩ := single
  rw [Ends] at ends
  have opened : arrayLoop parse (.flat [] false) tempArray (quotedText [] ++ next :: after) =
      arrayLoop parse (.flat [adString] true) tempArray (adUnit :: next :: after) :=
    flat_opens_quote (by simp)
  rw [opened, arrayLoop, if_neg (by decide)]
  simp [ends, single, Except.bind]

theorem quoted_array_adds_array
    (arrays : ∀ text element, newElement parse (adArray :: adAsLeft :: text) = .ok element →
      ∃ elements, element = .array elements)
    (noUnit : adUnit ∉ value) (hasArray : adArray ∈ value)
    (parsed : arrayLoop parse (.flat [] false) tempArray (quotedText value ++ after) =
      .ok result) :
    ∃ elements more, result = tempArray ++ .array elements :: more := by
  obtain ⟨before, behind, rfl, noArray⟩ := List.eq_append_cons_of_mem hasArray
  have quoted : ∀ character ∈ before, character ≠ adArray ∧ character ≠ adUnit := by
    intro character member
    constructor
    · rintro rfl
      exact noArray member
    · rintro rfl
      exact noUnit (List.mem_append_left _ member)
  have shape : quotedText (before ++ adArray :: behind) ++ after =
      adString :: adUnit :: (before ++ adArray :: (behind ++ adUnit :: after)) := by
    simp [quotedText]
  rw [shape, flat_opens_quote (by simp), flat_quoted_prefix quoted (by simp)] at parsed
  rcases behind with _ | ⟨bracket, behind⟩
  · rw [show [] ++ adUnit :: after = adUnit :: after from rfl, arrayLoop, if_pos rfl,
      if_neg fun opens => absurd opens.1 (by decide)] at parsed
    cases parsed
  · rw [show bracket :: behind ++ adUnit :: after = bracket :: (behind ++ adUnit :: after)
      from rfl, arrayLoop, if_pos rfl] at parsed
    split at parsed
    · have collects : (Phase.nested [adArray, adAsLeft] false 1 0).CollectsArray := ⟨[], rfl⟩
      exact nested_adds_array arrays collects parsed
    · cases parsed

end Loop

section Strings

variable {floats : FloatFormat Single}

theorem newElement_array {depth : ℕ} {text : Text} {element : ArmaData Single}
    (built : newElement (buildData floats depth) (adArray :: adAsLeft :: text) = .ok element) :
    ∃ elements, element = .array elements := by
  have read : ∀ parse : Text → Except ParseError (ArmaData Single),
      buildDataWith floats parse (adArray :: adAsLeft :: text) = .ok element →
        ∃ elements, element = .array elements := by
    intro parse built
    by_cases ended : text = []
    · subst ended
      cases built
      exact ⟨[], rfl⟩
    · rw [buildDataWith_array ended] at built
      obtain ⟨elements, -, rfl⟩ := map_eq_ok built
      exact ⟨elements, rfl⟩
  obtain ⟨parsed, parsing, hasData⟩ := bind_eq_ok built
  split at hasData
  · cases hasData
    cases depth with
    | zero => exact read _ parsing
    | succ depth => exact read _ parsing
  · cases hasData

theorem newElement_single (depth : ℕ) :
    ∃ failure, newElement (buildData floats depth) [adString] = .error failure := by
  cases depth with
  | zero => exact ⟨_, rfl⟩
  | succ depth => exact ⟨_, rfl⟩

/-- What the loop returns as strings was neither empty nor held an `@`. -/
theorem strings_of_arrayLoop {depth : ℕ} {strings : List Text}
    (noUnit : ∀ value ∈ strings, adUnit ∉ value) {tempArray : List (ArmaData Single)}
    (parsed : arrayLoop (buildData floats depth) (.flat [] false) tempArray
      (joined (strings.map quotedText) ++ [adAsRight]) =
        .ok (tempArray ++ strings.map .string)) :
    ∀ value ∈ strings, value ≠ [] ∧ adArray ∉ value := by
  induction strings generalizing tempArray with
  | nil => simp
  | cons value strings inductionHypothesis =>
      obtain ⟨next, after, ends, shape⟩ : ∃ next after, Ends next ∧
          joined ((value :: strings).map quotedText) ++ [adAsRight] =
            quotedText value ++ next :: after := by
        cases strings with
        | nil => exact ⟨adAsRight, [], .inr rfl, rfl⟩
        | cons second strings =>
            rw [List.map_cons, List.map_cons, joined_cons_cons, List.append_assoc]
            exact ⟨adSeperator, _, .inl rfl, rfl⟩
      have nonempty : value ≠ [] := by
        rintro rfl
        rw [shape] at parsed
        exact quoted_empty_fails (newElement_single depth) ends parsed
      have noArray : adArray ∉ value := by
        intro hasArray
        rw [shape] at parsed
        obtain ⟨elements, more, same⟩ := quoted_array_adds_array
          (fun text element => newElement_array) (noUnit value (by simp)) hasArray parsed
        simp at same
      have leaf : Leaf floats (quotedText value) (.string value) :=
        .string nonempty (noUnit value (by simp)) noArray
      have consumed := leaf.consumed depth
      have rest : ∀ other ∈ strings, other ≠ [] ∧ adArray ∉ other := by
        cases strings with
        | nil => simp
        | cons second strings =>
            have fewer : ∀ other ∈ second :: strings, adUnit ∉ other := fun other member =>
              noUnit other (List.mem_cons_of_mem _ member)
            have later : arrayLoop (buildData floats depth) (.flat [] false)
                (tempArray ++ [.string value])
                (joined ((second :: strings).map quotedText) ++ [adAsRight]) =
                  .ok (tempArray ++ [.string value] ++ (second :: strings).map .string) := by
              have start : ∃ first after, quotedText second = first :: after ∧
                  first ≠ adAsRight := ⟨_, _, rfl, by decide⟩
              rw [List.map_cons, List.map_cons, consumed.before start, ← List.map_cons] at parsed
              rw [parsed]
              simp
            exact inductionHypothesis fewer later
      intro other member
      rcases List.mem_cons.mp member with rfl | later
      · exact ⟨nonempty, noArray⟩
      · exact rest other later

/-- Quoting protects the strings of an array exactly when there are some, none
is empty and none holds an `@`. -/
theorem parse_quoted_iff (floats : FloatFormat Single) {strings : List Text}
    (noUnit : ∀ value ∈ strings, adUnit ∉ value) :
    parseArmaData floats (arrayText (strings.map quotedText)) =
        .ok (.array (strings.map .string)) ↔
      strings ≠ [] ∧ ∀ value ∈ strings, value ≠ [] ∧ adArray ∉ value := by
  constructor
  · intro parsed
    rw [parseArmaData, length_arrayText] at parsed
    have nonempty : strings ≠ [] := by
      rintro rfl
      cases parsed
    have shape : arrayText (strings.map quotedText) =
        adArray :: adAsLeft :: (joined (strings.map quotedText) ++ [adAsRight]) := rfl
    rw [shape, buildData, buildDataWith_array (by simp)] at parsed
    obtain ⟨elements, loop, same⟩ := map_eq_ok parsed
    cases same
    exact ⟨nonempty, strings_of_arrayLoop noUnit loop⟩
  · rintro ⟨nonempty, safe⟩
    rw [parseArmaData]
    refine buildData_arrayMap quotedText .string nonempty (fun value member => ?_) le_rfl
    obtain ⟨some, noArray⟩ := safe value member
    exact .leaf (.string some (noUnit value member) noArray)

theorem parse_quoted_iff_syntax :
    let floats : FloatFormat ℤ := ⟨stoll, fun _ => printInteger⟩
    parseArmaData floats "@[$\x1fa],[$\x1f,$\x1f,\x1f]".toList =
      .ok (.array [.string "a],[$".toList, .string ",".toList]) := by
  intro floats
  have strings : ∀ value ∈ ["a],[$".toList, ",".toList],
      adUnit ∉ value ∧ value ≠ [] ∧ adArray ∉ value := by
    intro value member
    fin_cases member <;> decide
  exact (parse_quoted_iff floats fun value member => (strings value member).1).mpr
    ⟨by simp, fun value member => (strings value member).2⟩

/-- The loop starts an array at the `@` of `a@b`, and expects its bracket. -/
theorem quoted_at_sign_fails :
    let floats : FloatFormat ℤ := ⟨stoll, fun _ => printInteger⟩
    parseArmaData floats "@[$\x1fa@b\x1f]".toList = .error .errorExpected ∧
      ¬∀ strings : List Text, (∀ value ∈ strings, adUnit ∉ value) →
        parseArmaData floats (arrayText (strings.map quotedText)) =
          .ok (.array (strings.map .string)) := by
  intro floats
  have fails : parseArmaData floats (arrayText (["a@b".toList].map quotedText)) =
      .error .errorExpected := rfl
  refine ⟨fails, fun survives => ?_⟩
  have read := survives ["a@b".toList] fun value member => by
    rw [List.mem_singleton.mp member]
    decide
  rw [fails] at read
  cases read

end Strings

end ArmaData

end OperationFrontLine.Wire
