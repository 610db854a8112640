import OperationFrontLine.Wire.Reader

/-!
# How the text of an array is taken apart

The loops behind the opening bracket find one part after the other: a word up to a separator
or a bracket, or a nested array up to its own bracket, with whatever was collected before it.
What the element of a part is parsed to matters for nothing but whether the loops go on.
-/

namespace OperationFrontLine.Wire

open OperationFrontLine.Library OperationFrontLine.Native

namespace ArmaData

/-- What the loop over a flat element takes, and whether quotes are open behind it.  The first
character may be any but the one of an array. -/
inductive Collected : Text → Bool → Prop where
  | first {character : Char} (noArray : character ≠ adArray) :
      Collected [character] (toggled false character)
  | next {word : Text} {ignore : Bool} {character : Char} (collected : Collected word ignore)
      (noArray : character ≠ adArray) (goes : ignore = false → ¬Ends character) :
      Collected (word ++ [character]) (toggled ignore character)

def Dropped (word : Text) : Prop := word = [] ∨ ∃ ignore, Collected word ignore

def opened (ignore : Bool) (depth : ℕ) (character : Char) : ℕ :=
  if toggled ignore character then depth
  else if character = adAsLeft then depth + 1
  else if character = adAsRight then depth - 1
  else depth

/-- The text behind the opening bracket of a nested array that is still open. -/
inductive Nests : Text → Bool → ℕ → Prop where
  | start : Nests [] false 1
  | next {inner : Text} {ignore : Bool} {depth : ℕ} {character : Char}
      (nests : Nests inner ignore depth) (stays : opened ignore depth character ≠ 0) :
      Nests (inner ++ [character]) (toggled ignore character) (opened ignore depth character)

def nestedText (inner : Text) : Text := adArray :: adAsLeft :: (inner ++ [adAsRight])

/-- A part, the text of its element, and whether this is a nested array. -/
inductive Part : Text → Text → Bool → Prop where
  | flat {word : Text} (collected : Collected word false) : Part word (unquoted word) false
  | nested {dropped inner : Text} (drops : Dropped dropped) (nests : Nests inner false 1) :
      Part (dropped ++ nestedText inner) (nestedText inner) true

/-- What has to follow a part that is not the last one. -/
def Follows (separator : Char) (rest : Text) : (nested : Bool) → Prop
  | false => separator = adSeperator ∧ rest ≠ []
  | true => separator ≠ adAsRight ∧ rest ≠ [] ∧ rest.head? ≠ some adAsRight

/-- Some parts with their separators, and the text behind them. -/
inductive Body (ok finish : Text → Prop) : Text → Prop where
  | last {text : Text} (ends : finish text) : Body ok finish text
  | part {raw element rest : Text} {nested : Bool} {separator : Char}
      (part : Part raw element nested) (accepted : ok element)
      (follows : Follows separator rest nested) (later : Body ok finish rest) :
      Body ok finish (raw ++ separator :: rest)

/-! ## Taking one part -/

section Loop

variable {Single : Type} {parse : Text → Except ParseError (ArmaData Single)}
  {tempArray : List (ArmaData Single)} {temp word inner after rest : Text} {ignore : Bool}
  {character next : Char} {depth : ℕ}

theorem flat_stops (noArray : character ≠ adArray) :
    arrayLoop parse (.flat temp ignore) tempArray [character] =
      .error (if toggled ignore character then .errorExpected else .pastEnd) := by
  rw [arrayLoop, if_neg noArray]
  rfl

theorem Collected.scan (collected : Collected word ignore) (goes : ignore = false → ¬Ends next) :
    arrayLoop parse (.flat [] false) tempArray (word ++ next :: after) =
      arrayLoop parse (.flat (unquoted word) ignore) tempArray (next :: after) := by
  induction collected generalizing next after with
  | first noArray => exact flat_goes noArray goes
  | @next word ignore character collected noArray goesBefore inductionHypothesis =>
      rw [List.append_assoc, List.singleton_append, inductionHypothesis goesBefore,
        flat_goes noArray goes, unquoted_append]

theorem Collected.ends (collected : Collected word ignore) (closed : ignore = false)
    (ends : Ends next) :
    arrayLoop parse (.flat [] false) tempArray (word ++ next :: after) =
      (newElement parse (unquoted word)).bind fun element =>
        afterFlat parse (tempArray ++ [element]) next after := by
  cases collected with
  | first noArray => exact flat_ends noArray closed ends
  | @next word ignore character collected noArray goes =>
      rw [List.append_assoc, List.singleton_append, collected.scan goes,
        flat_ends noArray closed ends, unquoted_append]

theorem Collected.stops (collected : Collected word ignore) :
    arrayLoop parse (.flat [] false) tempArray word =
      .error (if ignore then .errorExpected else .pastEnd) := by
  cases collected with
  | first noArray => exact flat_stops noArray
  | next collected noArray goes => rw [collected.scan goes, flat_stops noArray]

theorem flat_array : arrayLoop parse (.flat temp ignore) tempArray (adArray :: after) =
    arrayLoop parse (.flat [] false) tempArray (adArray :: after) := by
  cases after with
  | nil => simp [arrayLoop]
  | cons bracket after => simp [arrayLoop]

theorem Dropped.scan (drops : Dropped word) :
    arrayLoop parse (.flat [] false) tempArray (word ++ adArray :: after) =
      arrayLoop parse (.flat [] false) tempArray (adArray :: after) := by
  rcases drops with rfl | ⟨ignore, collected⟩
  · rfl
  · rw [collected.scan fun _ => by decide, flat_array]

def afterNested (parse : Text → Except ParseError (ArmaData Single))
    (tempArray : List (ArmaData Single)) :
    Text → Except ParseError (List (ArmaData Single))
  | [] => .error .errorType
  | separator :: next =>
      if separator = adAsRight then
        if next = [] then .ok tempArray else .error .errorEnd
      else if next = [] ∨ next.head? = some adAsRight then
        .error .errorExpected
      else
        arrayLoop parse (.flat [] false) tempArray next

theorem nested_goes {right : ℕ} (positive : 0 < depth) (stays : opened ignore depth character ≠ 0) :
    ∃ right', ∀ tempArray rest,
      arrayLoop parse (.nested temp ignore (right + depth) right) tempArray (character :: rest) =
        arrayLoop parse (.nested (temp ++ [character]) (toggled ignore character)
          (right' + opened ignore depth character) right') tempArray rest := by
  have inside : right < right + depth := by omega
  by_cases unit : character = adUnit
  · subst unit
    refine ⟨right, fun tempArray rest => ?_⟩
    cases ignore with
    | false => exact nested_quote
    | true => exact nested_unquote inside
  · have same : toggled ignore character = ignore := toggled_of_ne unit
    cases ignore with
    | true =>
        refine ⟨right, fun tempArray rest => ?_⟩
        rw [opened, same]
        exact nested_quoted unit
    | false =>
        rw [opened, same, if_neg Bool.false_ne_true] at stays ⊢
        by_cases left : character = adAsLeft
        · subst left
          exact ⟨right, fun tempArray rest => nested_left inside⟩
        · rw [if_neg left] at stays ⊢
          by_cases closes : character = adAsRight
          · subst closes
            rw [if_pos rfl] at stays ⊢
            refine ⟨right + 1, fun tempArray rest => ?_⟩
            rw [nested_right (by omega), show right + 1 + (depth - 1) = right + depth by omega]
          · rw [if_neg closes]
            exact ⟨right, fun tempArray rest => nested_plain unit left closes inside⟩

theorem Nests.scan (nests : Nests inner ignore depth) :
    0 < depth ∧ ∃ right, ∀ tempArray rest,
      arrayLoop parse (.nested [adArray, adAsLeft] false 1 0) tempArray (inner ++ rest) =
        arrayLoop parse (.nested (adArray :: adAsLeft :: inner) ignore (right + depth) right)
          tempArray rest := by
  induction nests with
  | start => exact ⟨Nat.one_pos, 0, fun _ _ => rfl⟩
  | @next inner ignore depth character nests stays inductionHypothesis =>
      obtain ⟨positive, right, scanned⟩ := inductionHypothesis
      obtain ⟨right', goes⟩ := @nested_goes Single parse (adArray :: adAsLeft :: inner) ignore
        character depth right positive stays
      refine ⟨Nat.pos_of_ne_zero stays, right', fun tempArray rest => ?_⟩
      rw [List.append_assoc, List.singleton_append, scanned, goes]
      rfl

theorem array_opens (more : after ≠ []) :
    arrayLoop parse (.flat [] false) tempArray (adArray :: adAsLeft :: after) =
      arrayLoop parse (.nested [adArray, adAsLeft] false 1 0) tempArray after := by
  rw [arrayLoop, if_pos rfl]
  exact if_pos ⟨rfl, more⟩

theorem nested_closes {right : ℕ} :
    arrayLoop parse (.nested temp false (right + 1) right) tempArray (adAsRight :: rest) =
      (newElement parse (temp ++ [adAsRight])).bind fun element =>
        afterNested parse (tempArray ++ [element]) rest := by
  have noUnit : adAsRight ≠ adUnit := by decide
  have noLeft : adAsRight ≠ adAsLeft := by decide
  rw [arrayLoop]
  simp only [if_neg noUnit, noLeft, and_false, if_false, and_self, if_true]
  congr 1
  funext element
  rcases rest with _ | ⟨separator, _ | ⟨first, after⟩⟩
  · rfl
  · simp [afterNested]
  · simp [afterNested]

theorem Nests.closes (nests : Nests inner false 1) :
    arrayLoop parse (.flat [] false) tempArray (nestedText inner ++ rest) =
      (newElement parse (nestedText inner)).bind fun element =>
        afterNested parse (tempArray ++ [element]) rest := by
  obtain ⟨-, right, scanned⟩ := @Nests.scan Single parse _ _ _ nests
  rw [nestedText, List.cons_append, List.cons_append, array_opens (by simp), List.append_assoc,
    scanned, List.singleton_append, nested_closes]
  rfl

theorem Nests.stops (nests : Nests inner ignore depth) (more : inner ≠ []) :
    arrayLoop parse (.flat [] false) tempArray (adArray :: adAsLeft :: inner) =
      .error .pastEnd := by
  obtain ⟨-, right, scanned⟩ := @Nests.scan Single parse _ _ _ nests
  have all := scanned tempArray []
  rw [List.append_nil] at all
  rw [array_opens more, all, arrayLoop]

end Loop

/-! ## Every text is taken apart -/

section Cases

variable {word inner text : Text} {ignore : Bool} {depth : ℕ} {character : Char}

theorem Nests.positive (nests : Nests inner ignore depth) : 0 < depth := by
  cases nests with
  | start => exact Nat.one_pos
  | next nests stays => exact Nat.pos_of_ne_zero stays

theorem closes_of_opened (positive : 0 < depth) (closes : opened ignore depth character = 0) :
    character = adAsRight ∧ ignore = false ∧ depth = 1 := by
  rw [opened] at closes
  split at closes
  · omega
  · rename_i outside
    split at closes
    · omega
    · split at closes
      · rename_i isRight
        subst isRight
        refine ⟨rfl, ?_, by omega⟩
        simpa [toggled, show adAsRight ≠ adUnit by decide] using outside
      · omega

theorem nests_cases (nests : Nests inner ignore depth) (text : Text) :
    (∃ ignore depth, Nests (inner ++ text) ignore depth) ∨
      ∃ more rest, text = more ++ adAsRight :: rest ∧ Nests (inner ++ more) false 1 := by
  induction text generalizing inner ignore depth with
  | nil => exact .inl ⟨ignore, depth, by rwa [List.append_nil]⟩
  | cons character text inductionHypothesis =>
      by_cases closes : opened ignore depth character = 0
      · obtain ⟨rfl, rfl, rfl⟩ := closes_of_opened nests.positive closes
        exact .inr ⟨[], text, rfl, by rwa [List.append_nil]⟩
      · rcases inductionHypothesis (nests.next closes) with open_ | ⟨more, rest, rfl, inside⟩
        · exact .inl (by simpa using open_)
        · exact .inr ⟨character :: more, rest, rfl, by simpa using inside⟩

theorem collected_cases (collected : Collected word ignore) (text : Text) :
    (∃ ignore, Collected (word ++ text) ignore) ∨
      (∃ more next rest, text = more ++ next :: rest ∧ Collected (word ++ more) false ∧
        Ends next) ∨
      ∃ more rest ignore, text = more ++ adArray :: rest ∧ Collected (word ++ more) ignore := by
  induction text generalizing word ignore with
  | nil => exact .inl ⟨ignore, by rwa [List.append_nil]⟩
  | cons character text inductionHypothesis =>
      by_cases isArray : character = adArray
      · subst isArray
        exact .inr (.inr ⟨[], text, ignore, rfl, by rwa [List.append_nil]⟩)
      · by_cases ends : ignore = false ∧ Ends character
        · obtain ⟨rfl, ends⟩ := ends
          exact .inr (.inl ⟨[], character, text, rfl, by rwa [List.append_nil], ends⟩)
        · have goes : ignore = false → ¬Ends character := fun closed isEnd => ends ⟨closed, isEnd⟩
          rcases inductionHypothesis (collected.next isArray goes) with
            all | ⟨more, next, rest, rfl, inside, isEnd⟩ | ⟨more, rest, quotes, rfl, inside⟩
          · exact .inl (by simpa using all)
          · exact .inr (.inl ⟨character :: more, next, rest, rfl, by simpa using inside, isEnd⟩)
          · exact .inr (.inr ⟨character :: more, rest, quotes, rfl, by simpa using inside⟩)

/-- A text is a word without an end, or begins with an ended word, or with what is dropped in
front of an array. -/
theorem text_cases (some : text ≠ []) :
    (∃ ignore, Collected text ignore) ∨
      (∃ word next rest, text = word ++ next :: rest ∧ Collected word false ∧ Ends next) ∨
      ∃ dropped rest, text = dropped ++ adArray :: rest ∧ Dropped dropped := by
  obtain ⟨character, text, rfl⟩ := List.exists_cons_of_ne_nil some
  by_cases isArray : character = adArray
  · subst isArray
    exact .inr (.inr ⟨[], text, rfl, .inl rfl⟩)
  · rcases collected_cases (.first isArray) text with
      all | ⟨more, next, rest, rfl, inside, isEnd⟩ | ⟨more, rest, quotes, rfl, inside⟩
    · exact .inl all
    · exact .inr (.inl ⟨character :: more, next, rest, rfl, inside, isEnd⟩)
    · exact .inr (.inr ⟨character :: more, rest, rfl, .inr ⟨quotes, inside⟩⟩)

end Cases

/-! ## What the loops make of it -/

inductive Closes (ok : Text → Prop) : Text → Prop where
  | last {raw element : Text} {nested : Bool} (part : Part raw element nested)
      (accepted : ok element) : Closes ok (raw ++ [adAsRight])

/-- The text ends where the loops do not ask for it, or an element does so or is a bad
number. -/
inductive RunsOff (bad : Text → Prop) : Text → Prop where
  | word {word : Text} (collected : Collected word false) : RunsOff bad word
  | bracket {dropped : Text} (drops : Dropped dropped) : RunsOff bad (dropped ++ [adArray])
  | nested {dropped inner : Text} {ignore : Bool} {depth : ℕ} (drops : Dropped dropped)
      (nests : Nests inner ignore depth) (more : inner ≠ []) :
      RunsOff bad (dropped ++ adArray :: adAsLeft :: inner)
  | flatElement {word rest : Text} {next : Char} (collected : Collected word false)
      (ends : Ends next) (runsOff : bad (unquoted word)) : RunsOff bad (word ++ next :: rest)
  | nestedElement {dropped inner rest : Text} (drops : Dropped dropped)
      (nests : Nests inner false 1) (runsOff : bad (nestedText inner)) :
      RunsOff bad (dropped ++ (nestedText inner ++ rest))

theorem Collected.ne_nil {word : Text} {ignore : Bool} (collected : Collected word ignore) :
    word ≠ [] := by
  cases collected <;> simp

theorem Closes.ne_nil {ok : Text → Prop} {text : Text} (closes : Closes ok text) : text ≠ [] := by
  cases closes with
  | last => simp

theorem RunsOff.ne_nil {bad : Text → Prop} {text : Text} (runsOff : RunsOff bad text) :
    text ≠ [] := by
  cases runsOff with
  | word collected => exact collected.ne_nil
  | bracket | nested | flatElement => simp
  | nestedElement => simp [nestedText]

theorem Body.ne_nil {ok finish : Text → Prop} {text : Text} (body : Body ok finish text)
    (some : ∀ text, finish text → text ≠ []) : text ≠ [] := by
  cases body with
  | last ends => exact some text ends
  | part => simp

/-- What `ThrowError` does not report. -/
def Crash (failure : ParseError) : Prop := failure = .pastEnd ∨ failure = .invalidNumber

section Loops

variable {Single : Type} {parse : Text → Except ParseError (ArmaData Single)}
  {tempArray : List (ArmaData Single)} {raw element text rest : Text} {nested : Bool}
  {separator : Char}

theorem Part.loop_last (part : Part raw element nested) :
    arrayLoop parse (.flat [] false) tempArray (raw ++ [adAsRight]) =
      (newElement parse element).bind fun value => .ok (tempArray ++ [value]) := by
  cases part with
  | flat collected =>
      rw [collected.ends rfl (.inr rfl)]
      rfl
  | nested drops nests =>
      rw [List.append_assoc, nestedText, List.cons_append, drops.scan, ← List.cons_append,
        ← nestedText, nests.closes]
      rfl

theorem Part.loop_more (part : Part raw element nested)
    (follows : Follows separator rest nested) :
    arrayLoop parse (.flat [] false) tempArray (raw ++ separator :: rest) =
      (newElement parse element).bind fun value =>
        arrayLoop parse (.flat [] false) (tempArray ++ [value]) rest := by
  cases part with
  | flat collected =>
      obtain ⟨rfl, more⟩ := follows
      rw [collected.ends rfl (.inl rfl)]
      simp only [afterFlat, show adSeperator ≠ adAsRight by decide, more, if_false]
  | nested drops nests =>
      obtain ⟨noRight, more, notRight⟩ := follows
      rw [List.append_assoc, nestedText, List.cons_append, drops.scan, ← List.cons_append,
        ← nestedText, nests.closes]
      simp only [afterNested, if_neg noRight, more, notRight, or_self, if_false]

theorem Body.closes {ok : Text → Prop}
    (accepts : ∀ text, ok text → ∃ value, newElement parse text = .ok value)
    (body : Body ok (Closes ok) text) (tempArray : List (ArmaData Single)) :
    ∃ values, arrayLoop parse (.flat [] false) tempArray text = .ok values := by
  induction body generalizing tempArray with
  | last ends =>
      cases ends with
      | last part accepted =>
          obtain ⟨value, parsed⟩ := accepts _ accepted
          exact ⟨tempArray ++ [value], by rw [part.loop_last, parsed]; rfl⟩
  | part part accepted follows later inductionHypothesis =>
      obtain ⟨value, parsed⟩ := accepts _ accepted
      obtain ⟨values, loop⟩ := inductionHypothesis (tempArray ++ [value])
      exact ⟨values, by rw [part.loop_more follows, parsed]; exact loop⟩

theorem Body.runsOff {ok bad : Text → Prop}
    (accepts : ∀ text, ok text → ∃ value, newElement parse text = .ok value)
    (crashes : ∀ text, bad text → ∃ failure, newElement parse text = .error failure ∧
      Crash failure)
    (body : Body ok (RunsOff bad) text) (tempArray : List (ArmaData Single)) :
    ∃ failure, arrayLoop parse (.flat [] false) tempArray text = .error failure ∧
      Crash failure := by
  induction body generalizing tempArray with
  | last ends =>
      cases ends with
      | word collected => exact ⟨.pastEnd, collected.stops, .inl rfl⟩
      | bracket drops => exact ⟨.pastEnd, by rw [drops.scan, arrayLoop, if_pos rfl], .inl rfl⟩
      | nested drops nests more =>
          exact ⟨.pastEnd, by rw [drops.scan, nests.stops more], .inl rfl⟩
      | flatElement collected ends runsOff =>
          obtain ⟨failure, parsed, crash⟩ := crashes _ runsOff
          exact ⟨failure, by rw [collected.ends rfl ends, parsed]; rfl, crash⟩
      | nestedElement drops nests runsOff =>
          obtain ⟨failure, parsed, crash⟩ := crashes _ runsOff
          refine ⟨failure, ?_, crash⟩
          rw [nestedText, List.cons_append, drops.scan, ← List.cons_append, ← nestedText,
            nests.closes, parsed]
          rfl
  | part part accepted follows later inductionHypothesis =>
      obtain ⟨value, parsed⟩ := accepts _ accepted
      obtain ⟨failure, loop, crash⟩ := inductionHypothesis (tempArray ++ [value])
      exact ⟨failure, by rw [part.loop_more follows, parsed]; exact loop, crash⟩

def Taken (parse : Text → Except ParseError (ArmaData Single)) (ok bad : Text → Prop)
    (tempArray : List (ArmaData Single)) (text : Text) : Prop :=
  Body ok (Closes ok) text ∨ Body ok (RunsOff bad) text ∨
    ∃ failure, arrayLoop parse (.flat [] false) tempArray text = .error failure ∧ ¬Crash failure

/-- What an element or the text behind it fails with is what the loops fail with. -/
theorem Taken.thrown {ok bad : Text → Prop} {failure : ParseError}
    (loop : arrayLoop parse (.flat [] false) tempArray text = .error failure)
    (noCrash : ¬Crash failure) : Taken parse ok bad tempArray text :=
  .inr (.inr ⟨failure, loop, noCrash⟩)

theorem Taken.part {ok bad : Text → Prop} {value : ArmaData Single}
    (part : Part raw element nested) (follows : Follows separator rest nested)
    (accepted : ok element) (parsed : newElement parse element = .ok value)
    (later : Taken parse ok bad (tempArray ++ [value]) rest) :
    Taken parse ok bad tempArray (raw ++ separator :: rest) := by
  rcases later with closes | runsOff | ⟨failure, loop, noCrash⟩
  · exact .inl (.part part accepted follows closes)
  · exact .inr (.inl (.part part accepted follows runsOff))
  · refine .thrown ?_ noCrash
    rw [part.loop_more follows, parsed]
    exact loop

theorem not_crash_errorExpected : ¬Crash .errorExpected := by rintro (same | same) <;> cases same

theorem not_crash_errorEnd : ¬Crash .errorEnd := by rintro (same | same) <;> cases same

theorem not_crash_errorType : ¬Crash .errorType := by rintro (same | same) <;> cases same

theorem taken_flat {ok bad : Text → Prop} {word : Text} {next : Char}
    (accepts : ∀ text value, newElement parse text = .ok value → ok text)
    (crashes : ∀ text failure, newElement parse text = .error failure → Crash failure → bad text)
    (collected : Collected word false) (ends : Ends next)
    (later : ∀ tempArray, rest ≠ [] → Taken parse ok bad tempArray rest) :
    Taken parse ok bad tempArray (word ++ next :: rest) := by
  have loop := @Collected.ends Single parse tempArray word rest false next collected rfl ends
  cases parsed : newElement parse (unquoted word) with
  | error failure =>
      rw [parsed] at loop
      by_cases crash : Crash failure
      · exact .inr (.inl (.last (.flatElement collected ends (crashes _ _ parsed crash))))
      · exact .thrown loop crash
  | ok value =>
      rw [parsed] at loop
      have accepted := accepts _ _ parsed
      by_cases none : rest = []
      · subst none
        rcases ends with rfl | rfl
        · exact .thrown loop not_crash_errorExpected
        · exact .inl (.last (.last (.flat collected) accepted))
      · rcases ends with rfl | rfl
        · exact .part (.flat collected) ⟨rfl, none⟩ accepted parsed (later _ none)
        · refine .thrown ?_ not_crash_errorEnd
          rw [loop]
          change afterFlat parse (tempArray ++ [value]) adAsRight rest = _
          rw [afterFlat, if_pos rfl, if_neg none]

theorem taken_nested {ok bad : Text → Prop} {dropped inner : Text}
    (accepts : ∀ text value, newElement parse text = .ok value → ok text)
    (crashes : ∀ text failure, newElement parse text = .error failure → Crash failure → bad text)
    (drops : Dropped dropped) (nests : Nests inner false 1)
    (later : ∀ tempArray, (∃ separator next, rest = separator :: next ∧ next ≠ []) →
      Taken parse ok bad tempArray (rest.drop 1)) :
    Taken parse ok bad tempArray (dropped ++ (nestedText inner ++ rest)) := by
  have loop : arrayLoop parse (.flat [] false) tempArray (dropped ++ (nestedText inner ++ rest)) =
      (newElement parse (nestedText inner)).bind fun element =>
        afterNested parse (tempArray ++ [element]) rest := by
    rw [nestedText, List.cons_append, drops.scan, ← List.cons_append, ← nestedText, nests.closes]
  cases parsed : newElement parse (nestedText inner) with
  | error failure =>
      rw [parsed] at loop
      by_cases crash : Crash failure
      · exact .inr (.inl (.last (.nestedElement drops nests (crashes _ _ parsed crash))))
      · exact .thrown loop crash
  | ok value =>
      rw [parsed] at loop
      have accepted := accepts _ _ parsed
      have part : Part (dropped ++ nestedText inner) (nestedText inner) true := .nested drops nests
      rcases rest with _ | ⟨separator, next⟩
      · exact .thrown loop not_crash_errorType
      · rw [← List.append_assoc] at loop ⊢
        by_cases isRight : separator = adAsRight
        · subst isRight
          by_cases none : next = []
          · subst none
            exact .inl (.last (.last part accepted))
          · refine .thrown ?_ not_crash_errorEnd
            rw [loop]
            change afterNested parse (tempArray ++ [value]) (adAsRight :: next) = _
            rw [afterNested, if_pos rfl, if_neg none]
        · by_cases ends : next = [] ∨ next.head? = some adAsRight
          · refine .thrown ?_ not_crash_errorExpected
            rw [loop]
            change afterNested parse (tempArray ++ [value]) (separator :: next) = _
            rw [afterNested, if_neg isRight, if_pos ends]
          · obtain ⟨more, notRight⟩ := not_or.mp ends
            exact .part part ⟨isRight, more, notRight⟩ accepted parsed
              (later _ ⟨separator, next, rfl, more⟩)

/-- Whatever the text is, it is taken apart up to where one of these happens. -/
theorem taken {ok bad : Text → Prop}
    (accepts : ∀ text value, newElement parse text = .ok value → ok text)
    (crashes : ∀ text failure, newElement parse text = .error failure → Crash failure → bad text)
    (some : text ≠ []) (tempArray : List (ArmaData Single)) :
    Taken parse ok bad tempArray text := by
  induction length : text.length using Nat.strong_induction_on generalizing text tempArray with
  | _ count inductionHypothesis =>
      subst length
      rcases text_cases some with ⟨ignore, all⟩ | ⟨word, next, rest, rfl, collected, ends⟩ |
        ⟨dropped, rest, rfl, drops⟩
      · cases ignore with
        | false => exact .inr (.inl (.last (.word all)))
        | true => exact .thrown all.stops not_crash_errorExpected
      · refine taken_flat accepts crashes collected ends fun tempArray more =>
          inductionHypothesis rest.length ?_ more tempArray rfl
        rw [List.length_append, List.length_cons]
        omega
      · rcases rest with _ | ⟨bracket, next⟩
        · exact .inr (.inl (.last (.bracket drops)))
        · by_cases opens : bracket = adAsLeft ∧ next ≠ []
          · obtain ⟨rfl, more⟩ := opens
            rcases nests_cases .start next with ⟨ignore, depth, inside⟩ | ⟨inner, rest, rfl, nests⟩
            · exact .inr (.inl (.last (.nested drops inside more)))
            · rw [show adArray :: adAsLeft :: (inner ++ adAsRight :: rest) =
                nestedText inner ++ rest by simp [nestedText]]
              refine taken_nested accepts crashes drops nests fun tempArray behind => ?_
              obtain ⟨separator, next, rfl, occupied⟩ := behind
              refine inductionHypothesis next.length ?_ occupied tempArray rfl
              simp only [List.length_append, List.length_cons]
              omega
          · refine .thrown ?_ not_crash_errorExpected
            rw [drops.scan, arrayLoop, if_pos rfl]
            exact if_neg opens

end Loops

end ArmaData

end OperationFrontLine.Wire
