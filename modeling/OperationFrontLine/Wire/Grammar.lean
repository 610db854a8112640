import OperationFrontLine.Wire.Safe

/-!
# What the array parser accepts

The grammar of arrays, and the texts that `BuildData` reads although they do not belong to it:
a word that is no element of the grammar, text in front of a nested array that is dropped, a
separator behind a nested array that is none, and an array without its bracket and elements.
-/

namespace OperationFrontLine.Wire

open OperationFrontLine.Library OperationFrontLine.Native

namespace ArmaData

variable {Single : Type} (floats : FloatFormat Single)

/-- A text of the grammar, with these characters in its quoted strings. -/
inductive WellFormed (allowed : Char → Prop) : Text → Prop where
  | scalar {type : Char} {payload : Text}
      (isType : type ∈ [adFloat, adSigned, adUnsigned, adAddress]) (some : payload ≠ [])
      (plain : ∀ character ∈ payload, Plain character) (reads : ReadsAs floats type payload) :
      WellFormed allowed (type :: payload)
  | string {value : Text} (noUnit : adUnit ∉ value)
      (chars : ∀ character ∈ value, allowed character) : WellFormed allowed (quotedText value)
  | array {elements : List Text} (nonempty : elements ≠ [])
      (all : ∀ element ∈ elements, WellFormed allowed element) :
      WellFormed allowed (arrayText elements)

/-- A string may hold an `@`, or may not. -/
def InGrammar (text : Text) : Prop := WellFormed floats (fun _ => True) text

def InStrictGrammar (text : Text) : Prop := WellFormed floats (· ≠ adArray) text

variable {floats}

theorem WellFormed.mono {allowed more : Char → Prop}
    (implies : ∀ character, allowed character → more character) {text : Text}
    (wellFormed : WellFormed floats allowed text) : WellFormed floats more text := by
  induction wellFormed with
  | scalar isType some plain reads => exact .scalar isType some plain reads
  | string noUnit chars => exact .string noUnit fun c member => implies c (chars c member)
  | array nonempty all inductionHypothesis => exact .array nonempty inductionHypothesis

/-- A word that looks like an element of the grammar. -/
def LooksTidy (word : Text) : Prop :=
  (word.head? ≠ some adString ∧ ∀ character ∈ word, Plain character) ∨
    ∃ value, adUnit ∉ value ∧ word = quotedText value

/-- How a part that is read can deviate from the grammar. -/
inductive Deviates (sloppy : Text → Prop) : Text → Text → Bool → Prop where
  | word {raw element : Text} (untidy : ¬LooksTidy raw) : Deviates sloppy raw element false
  | dropped {raw element : Text} (more : raw ≠ element) : Deviates sloppy raw element true
  | inside {raw element : Text} (isSloppy : sloppy element) : Deviates sloppy raw element true

/-- Parts that are read, one of which deviates or has another separator behind it. -/
inductive SloppyBody (ok sloppy : Text → Prop) : Text → Prop where
  | last {raw element : Text} {nested : Bool} (part : Part raw element nested)
      (accepted : ok element) (deviates : Deviates sloppy raw element nested) :
      SloppyBody ok sloppy (raw ++ [adAsRight])
  | here {raw element rest : Text} {nested : Bool} {separator : Char}
      (part : Part raw element nested) (accepted : ok element)
      (follows : Follows separator rest nested)
      (deviates : Deviates sloppy raw element nested ∨ separator ≠ adSeperator)
      (closes : Body ok (Closes ok) rest) : SloppyBody ok sloppy (raw ++ separator :: rest)
  | later {raw element rest : Text} {nested : Bool} {separator : Char}
      (part : Part raw element nested) (accepted : ok element)
      (follows : Follows separator rest nested) (behind : SloppyBody ok sloppy rest) :
      SloppyBody ok sloppy (raw ++ separator :: rest)

/-- An array that is read and deviates from the grammar. -/
inductive SloppyWith (ok sloppy : Text → Prop) : Text → Prop where
  | bare : SloppyWith ok sloppy [adArray, adAsLeft]
  | array {body : Text} (deviates : SloppyBody ok sloppy body) :
      SloppyWith ok sloppy (adArray :: adAsLeft :: body)

variable (floats) in
/-- The arrays that are read and deviate, with arrays up to a depth. -/
def Sloppy : ℕ → Text → Prop
  | 0 => SloppyWith (fun _ => False) fun _ => False
  | depth + 1 => SloppyWith (Accepted floats depth) (Sloppy depth)

/-! ## Sloppy arrays are read -/

theorem SloppyBody.closes {ok sloppy : Text → Prop} {text : Text}
    (deviates : SloppyBody ok sloppy text) : Body ok (Closes ok) text := by
  induction deviates with
  | last part accepted => exact .last (.last part accepted)
  | here part accepted follows _ closes => exact .part part accepted follows closes
  | later part accepted follows _ inductionHypothesis =>
      exact .part part accepted follows inductionHypothesis

theorem SloppyWith.accepted {ok sloppy : Text → Prop} {text : Text}
    (isSloppy : SloppyWith ok sloppy text) : AcceptedWith floats ok text := by
  cases isSloppy with
  | bare => exact .bare
  | array deviates => exact .array deviates.closes

theorem Sloppy.accepted {depth : ℕ} {text : Text} (isSloppy : Sloppy floats depth text) :
    Accepted floats depth text := by
  cases depth with
  | zero => exact SloppyWith.accepted isSloppy
  | succ depth => exact SloppyWith.accepted isSloppy

/-! ## Every other array that is read is in the grammar -/

theorem Collected.noArray {word : Text} {ignore : Bool} (collected : Collected word ignore) :
    adArray ∉ word := by
  induction collected with
  | first noArray => simpa using noArray.symm
  | next _ noArray _ inductionHypothesis =>
      simpa using ⟨inductionHypothesis, noArray.symm⟩

theorem unquoted_of_plain {word : Text} (plain : ∀ character ∈ word, Plain character) :
    unquoted word = word := by
  apply List.filter_eq_self.mpr
  intro character member
  have different : character ≠ adUnit := by
    rintro rfl
    exact plain _ member (by simp)
  simpa using different

theorem Accepted.level {depth : ℕ} {text : Text} (accepted : Accepted floats depth text) :
    ∃ ok, AcceptedWith floats ok text := by
  cases depth with
  | zero => exact ⟨_, accepted⟩
  | succ depth => exact ⟨_, accepted⟩

theorem wellFormed_word {depth : ℕ} {word : Text} (collected : Collected word false)
    (accepted : Accepted floats depth (unquoted word)) (tidy : LooksTidy word) :
    InStrictGrammar floats word := by
  have noArray := collected.noArray
  rcases tidy with ⟨noString, plain⟩ | ⟨value, noUnit, rfl⟩
  · rw [unquoted_of_plain plain] at accepted
    obtain ⟨ok, accepted⟩ := accepted.level
    cases accepted with
    | @scalar type first rest reads =>
        refine .scalar ?_ (by simp) (fun character member => plain character (by simp [member]))
          reads
        rcases reads with rfl | rfl | ⟨rfl, -⟩ | ⟨rfl, -⟩ | ⟨rfl, -⟩
        · exact absurd rfl noString
        all_goals simp
    | bare => exact absurd (by simp) noArray
    | array => exact absurd (by simp) noArray
  · refine .string noUnit fun character member => ?_
    rintro rfl
    exact noArray (by simp [quotedText, member])

theorem part_cases {depth : ℕ} {raw element : Text} {nested : Bool}
    (deeper : ∀ body, Accepted floats depth (adArray :: adAsLeft :: body) →
      Sloppy floats depth (adArray :: adAsLeft :: body) ∨
        InStrictGrammar floats (adArray :: adAsLeft :: body))
    (part : Part raw element nested) (accepted : Accepted floats depth element) :
    Deviates (Sloppy floats depth) raw element nested ∨ InStrictGrammar floats raw := by
  cases part with
  | flat collected =>
      by_cases tidy : LooksTidy raw
      · exact .inr (wellFormed_word collected accepted tidy)
      · exact .inl (.word tidy)
  | @nested dropped inner drops nests =>
      by_cases whole : dropped ++ nestedText inner = nestedText inner
      · rcases deeper _ accepted with isSloppy | wellFormed
        · exact .inl (.inside isSloppy)
        · exact .inr (by rw [whole]; exact wellFormed)
      · exact .inl (.dropped whole)

theorem body_cases {depth : ℕ} {body : Text}
    (deeper : ∀ body, Accepted floats depth (adArray :: adAsLeft :: body) →
      Sloppy floats depth (adArray :: adAsLeft :: body) ∨
        InStrictGrammar floats (adArray :: adAsLeft :: body))
    (closes : Body (Accepted floats depth) (Closes (Accepted floats depth)) body) :
    SloppyBody (Accepted floats depth) (Sloppy floats depth) body ∨
      ∃ elements, elements ≠ [] ∧ (∀ element ∈ elements, InStrictGrammar floats element) ∧
        body = joined elements ++ [adAsRight] := by
  induction closes with
  | last ends =>
      cases ends with
      | @last raw element nested part accepted =>
          rcases part_cases deeper part accepted with deviates | wellFormed
          · exact .inl (.last part accepted deviates)
          · exact .inr ⟨[raw], by simp, by simpa using wellFormed, rfl⟩
  | @part raw element rest nested separator part accepted follows later inductionHypothesis =>
      rcases part_cases deeper part accepted with deviates | wellFormed
      · exact .inl (.here part accepted follows (.inl deviates) later)
      · by_cases isSeparator : separator = adSeperator
        · subst isSeparator
          rcases inductionHypothesis with behind | ⟨elements, nonempty, all, rfl⟩
          · exact .inl (.later part accepted follows behind)
          · obtain ⟨second, elements, rfl⟩ := List.exists_cons_of_ne_nil nonempty
            refine .inr ⟨raw :: second :: elements, by simp, fun element member => ?_, ?_⟩
            · rcases List.mem_cons.mp member with rfl | behind
              · exact wellFormed
              · exact all element behind
            · rw [joined_cons_cons, List.append_assoc, List.cons_append]
        · exact .inl (.here part accepted follows (.inr isSeparator) later)

theorem accepted_cases {depth : ℕ} {body : Text}
    (accepted : Accepted floats depth (adArray :: adAsLeft :: body)) :
    Sloppy floats depth (adArray :: adAsLeft :: body) ∨
      InStrictGrammar floats (adArray :: adAsLeft :: body) := by
  induction depth generalizing body with
  | zero =>
      cases accepted with
      | scalar reads =>
          rcases reads with same | same | ⟨same, -⟩ | ⟨same, -⟩ | ⟨same, -⟩ <;> cases same
      | bare => exact .inl .bare
      | array closes =>
          cases closes with
          | last ends => cases ends with | last _ accepted => exact accepted.elim
          | part _ accepted => exact accepted.elim
  | succ depth inductionHypothesis =>
      cases accepted with
      | scalar reads =>
          rcases reads with same | same | ⟨same, -⟩ | ⟨same, -⟩ | ⟨same, -⟩ <;> cases same
      | bare => exact .inl .bare
      | array closes =>
          rcases body_cases (fun body => inductionHypothesis) closes with
            deviates | ⟨elements, nonempty, all, rfl⟩
          · exact .inl (.array deviates)
          · exact .inr (.array nonempty all)

/-! ## A text is taken apart in one way -/

def quotesBehind (word : Text) : Bool := word.foldl toggled false

theorem Collected.quotes {word : Text} {ignore : Bool} (collected : Collected word ignore) :
    quotesBehind word = ignore := by
  induction collected with
  | first => rfl
  | next _ _ _ inductionHypothesis =>
      rw [quotesBehind] at inductionHypothesis ⊢
      rw [List.foldl_append, inductionHypothesis]
      rfl

theorem Collected.goes_on {word whole more : Text} {ignore : Bool} {next : Char}
    (collected : Collected whole ignore) (split : whole = word ++ next :: more)
    (some : word ≠ []) (closed : quotesBehind word = false) : ¬Ends next := by
  induction collected generalizing more with
  | first =>
      rcases List.append_eq_singleton_iff.mp split.symm with ⟨none, -⟩ | ⟨-, none⟩
      · exact absurd none some
      · cases none
  | @next before ignore last collected noArray goes inductionHypothesis =>
      rcases List.eq_nil_or_concat more with rfl | ⟨front, final, rfl⟩
      · obtain ⟨rfl, same⟩ := List.append_inj' split rfl
        cases same
        exact goes (collected.quotes.symm.trans closed)
      · rw [List.concat_eq_append, ← List.cons_append, ← List.append_assoc] at split
        exact inductionHypothesis (List.append_inj' split rfl).1

def bracketsBehind (inner : Text) : Bool × ℕ :=
  inner.foldl (fun state character =>
    (toggled state.1 character, opened state.1 state.2 character)) (false, 1)

theorem Nests.brackets {inner : Text} {ignore : Bool} {depth : ℕ}
    (nests : Nests inner ignore depth) : bracketsBehind inner = (ignore, depth) := by
  induction nests with
  | start => rfl
  | next _ _ inductionHypothesis =>
      rw [bracketsBehind] at inductionHypothesis ⊢
      rw [List.foldl_append, inductionHypothesis]
      rfl

theorem Nests.goes_on {inner whole more : Text} {ignore : Bool} {depth : ℕ}
    (nests : Nests whole ignore depth) (split : whole = inner ++ adAsRight :: more)
    (closes : bracketsBehind inner = (false, 1)) : False := by
  induction nests generalizing more with
  | start => simp at split
  | @next before ignore depth last nests stays inductionHypothesis =>
      rcases List.eq_nil_or_concat more with rfl | ⟨front, final, rfl⟩
      · obtain ⟨rfl, same⟩ := List.append_inj' split rfl
        cases same
        rw [nests.brackets] at closes
        cases closes
        exact stays rfl
      · rw [List.concat_eq_append, ← List.cons_append, ← List.append_assoc] at split
        exact inductionHypothesis (List.append_inj' split rfl).1

theorem Dropped.noArray {word : Text} (drops : Dropped word) : adArray ∉ word := by
  rcases drops with rfl | ⟨ignore, collected⟩
  · simp
  · exact collected.noArray

theorem first_array_unique {first second behind behind' : Text} (noFirst : adArray ∉ first)
    (noSecond : adArray ∉ second)
    (same : first ++ adArray :: behind = second ++ adArray :: behind') :
    first = second ∧ behind = behind' := by
  rcases List.append_eq_append_iff.mp same with ⟨front, rfl, tail⟩ | ⟨front, rfl, tail⟩
  · rcases front with _ | ⟨character, front⟩
    · exact ⟨by simp, (List.cons.inj tail).2⟩
    · cases (List.cons.inj tail).1
      simp at noSecond
  · rcases front with _ | ⟨character, front⟩
    · exact ⟨by simp, (List.cons.inj tail).2.symm⟩
    · cases (List.cons.inj tail).1
      simp at noFirst

section Unique

variable {raw element other more rest : Text} {nested kind : Bool} {next : Char}

theorem Part.goes_on (part : Part raw element nested) (ends : nested = false → Ends next)
    (longer : Part (raw ++ next :: more) other kind) : False := by
  generalize whole : raw ++ next :: more = text at longer
  cases part with
  | flat collected =>
      have isEnd := ends rfl
      have noArray : next ≠ adArray := by
        rintro rfl
        revert isEnd
        decide
      cases longer with
      | flat longer => exact longer.goes_on whole.symm collected.ne_nil collected.quotes isEnd
      | @nested dropped inner drops nests =>
          -- the word ends before the dropped text does
          rcases List.append_eq_append_iff.mp whole with ⟨front, rfl, tail⟩ | ⟨front, rfl, tail⟩
          · rcases front with _ | ⟨first, front⟩
            · exact noArray (List.cons.inj tail).1
            · cases (List.cons.inj tail).1
              rcases drops with none | ⟨ignore, dropped⟩
              · simp at none
              · exact dropped.goes_on rfl collected.ne_nil collected.quotes isEnd
          · rcases front with _ | ⟨first, front⟩
            · exact noArray (List.cons.inj tail).1.symm
            · have same : first = adArray := (List.cons.inj tail).1.symm
              exact collected.noArray (by simp [same])
  | @nested dropped inner drops nests =>
      rw [nestedText, List.append_assoc, List.cons_append, List.cons_append] at whole
      cases longer with
      | flat longer => exact longer.noArray (by rw [← whole]; simp)
      | nested otherDrops otherNests =>
          obtain ⟨-, tail⟩ := first_array_unique drops.noArray otherDrops.noArray whole
          have split := (List.cons.inj tail).2
          rw [List.append_assoc, List.singleton_append] at split
          rw [show next :: more = (next :: more).dropLast ++ [(next :: more).getLast (by simp)]
            from (List.dropLast_append_getLast _).symm, ← List.cons_append,
            ← List.append_assoc] at split
          exact otherNests.goes_on (List.append_inj' split rfl).1.symm nests.brackets

theorem Part.unique {raw' : Text} {next' : Char} {rest' : Text}
    (part : Part raw element nested) (ends : nested = false → Ends next)
    (part' : Part raw' other kind) (ends' : kind = false → Ends next')
    (same : raw ++ next :: rest = raw' ++ next' :: rest') :
    raw = raw' ∧ next = next' ∧ rest = rest' := by
  rcases List.append_eq_append_iff.mp same with ⟨front, rfl, tail⟩ | ⟨front, rfl, tail⟩
  · rcases front with _ | ⟨first, front⟩
    · cases tail
      exact ⟨by simp, rfl, rfl⟩
    · cases (List.cons.inj tail).1
      exact (part.goes_on ends part').elim
  · rcases front with _ | ⟨first, front⟩
    · cases tail
      exact ⟨by simp, rfl, rfl⟩
    · cases (List.cons.inj tail).1
      exact (part'.goes_on ends' part).elim

theorem Part.same (part : Part raw element nested) (part' : Part raw other kind) :
    element = other ∧ nested = kind := by
  generalize whole : raw = text at part'
  cases part with
  | flat collected =>
      cases part' with
      | flat collected' => exact ⟨by rw [whole], rfl⟩
      | nested drops nests => exact absurd (by simp [whole, nestedText]) collected.noArray
  | nested drops nests =>
      cases part' with
      | flat collected' => exact absurd (by simp [← whole, nestedText]) collected'.noArray
      | nested drops' nests' =>
          rw [nestedText, nestedText] at whole
          obtain ⟨-, tail⟩ := first_array_unique drops.noArray drops'.noArray whole
          exact ⟨by rw [nestedText, nestedText, tail], rfl⟩

end Unique

/-! ## Elements of the grammar are tidy parts -/

theorem collected_append_plain {word more : Text} (collected : Collected word false)
    (plain : ∀ character ∈ more, Plain character) : Collected (word ++ more) false := by
  induction more generalizing word with
  | nil => rwa [List.append_nil]
  | cons character more inductionHypothesis =>
      have first := plain character (by simp)
      simp only [Plain, List.mem_cons, List.not_mem_nil, or_false, not_or] at first
      have goes : Collected (word ++ [character]) (toggled false character) :=
        collected.next first.1 fun _ => not_or.mpr ⟨first.2.2.1, first.2.2.2.1⟩
      rw [toggled, if_neg first.2.1] at goes
      have all := inductionHypothesis goes fun other member => plain other (by simp [member])
      rwa [List.append_assoc] at all

theorem collected_append_quoted {word value : Text} (collected : Collected word true)
    (chars : ∀ character ∈ value, character ≠ adUnit ∧ character ≠ adArray) :
    Collected (word ++ value) true := by
  induction value generalizing word with
  | nil => rwa [List.append_nil]
  | cons character value inductionHypothesis =>
      have first := chars character (by simp)
      have goes : Collected (word ++ [character]) (toggled true character) :=
        collected.next first.2 fun closed => by cases closed
      rw [toggled, if_neg first.1] at goes
      have all := inductionHypothesis goes fun other member => chars other (by simp [member])
      rwa [List.append_assoc] at all

theorem collected_scalar {type : Char} {payload : Text} (noArray : type ≠ adArray)
    (noUnit : type ≠ adUnit) (plain : ∀ character ∈ payload, Plain character) :
    Collected (type :: payload) false := by
  have first : Collected [type] (toggled false type) := .first noArray
  rw [toggled, if_neg noUnit] at first
  exact collected_append_plain first plain

theorem collected_quotedText {value : Text}
    (chars : ∀ character ∈ value, character ≠ adUnit ∧ character ≠ adArray) :
    Collected (quotedText value) false := by
  have type : Collected [adString] false := .first (by decide)
  have opens : Collected ([adString] ++ [adUnit]) true := type.next (by decide) fun _ => by decide
  have inside := collected_append_quoted opens chars
  have closes : Collected ([adString] ++ [adUnit] ++ value ++ [adUnit]) false :=
    inside.next (by decide) fun closed => by cases closed
  simpa [quotedText] using closes

/-- Inside an array the text leaves the quotes and brackets as they are. -/
def Copied (word : Text) : Prop :=
  ∀ inner depth, Nests inner false depth → Nests (inner ++ word) false depth

theorem Copied.append {first second : Text} (copied : Copied first) (copiedToo : Copied second) :
    Copied (first ++ second) := by
  intro inner depth nests
  rw [← List.append_assoc]
  exact copiedToo _ depth (copied inner depth nests)

theorem copied_plain {word : Text} (plain : ∀ character ∈ word,
    character ≠ adUnit ∧ character ≠ adAsLeft ∧ character ≠ adAsRight) : Copied word := by
  induction word with
  | nil =>
      intro inner depth nests
      rwa [List.append_nil]
  | cons character word inductionHypothesis =>
      obtain ⟨noUnit, noLeft, noRight⟩ := plain character (by simp)
      have same : opened false = fun depth other =>
          if other = adUnit then depth
          else if other = adAsLeft then depth + 1
          else if other = adAsRight then depth - 1 else depth := by
        funext depth other
        rw [opened, toggled]
        split <;> simp
      have first : Copied [character] := by
        intro inner depth nests
        have kept : opened false depth character = depth := by
          rw [same]
          simp [noUnit, noLeft, noRight]
        have goes := nests.next (by rw [kept]; exact nests.positive.ne')
        rwa [kept, toggled, if_neg noUnit] at goes
      exact first.append (inductionHypothesis fun other member => plain other (by simp [member]))

theorem copied_quoted {value : Text} (noUnit : adUnit ∉ value) :
    Copied (adUnit :: (value ++ [adUnit])) := by
  intro inner depth nests
  have positive := nests.positive.ne'
  have opens : Nests (inner ++ [adUnit]) true depth := nests.next positive
  have inside : ∀ front, front <+: value → Nests (inner ++ [adUnit] ++ front) true depth := by
    intro front
    induction front using List.reverseRecOn with
    | nil => exact fun _ => by rwa [List.append_nil]
    | append_singleton front character inductionHypothesis =>
        intro isPrefix
        have shorter := inductionHypothesis ((List.prefix_append front [character]).trans isPrefix)
        have different : character ≠ adUnit := by
          rintro rfl
          exact noUnit (isPrefix.subset (by simp))
        have quoted : toggled true character = true := if_neg different
        have kept : opened true depth character = depth := by rw [opened, quoted]; rfl
        have goes := shorter.next (by rw [kept]; exact positive)
        rwa [kept, quoted, List.append_assoc (inner ++ [adUnit])] at goes
  have closes : Nests (inner ++ [adUnit] ++ value ++ [adUnit]) false depth :=
    (inside value List.prefix_rfl).next positive
  simpa using closes

theorem copied_joined {elements : List Text} (all : ∀ element ∈ elements, Copied element) :
    Copied (joined elements) := by
  induction elements with
  | nil => exact copied_plain (by simp [joined])
  | cons element elements inductionHypothesis =>
      have first := all element (by simp)
      cases elements with
      | nil => exact first
      | cons second elements =>
          have later := inductionHypothesis fun other member => all other (by simp [member])
          have separator : Copied [adSeperator] := copied_plain (by simp; decide)
          exact first.append (separator.append later)

theorem copied_arrayText {elements : List Text} (all : ∀ element ∈ elements, Copied element) :
    Copied (arrayText elements) := by
  intro inner depth nests
  have type : Copied [adArray] := copied_plain (by simp; decide)
  have opens : Nests (inner ++ [adArray] ++ [adAsLeft]) false (depth + 1) :=
    (type inner depth nests).next (Nat.succ_ne_zero depth)
  have inside := copied_joined all _ _ opens
  have closes : Nests (inner ++ [adArray] ++ [adAsLeft] ++ joined elements ++ [adAsRight]) false
      depth := inside.next nests.positive.ne'
  simpa [arrayText] using closes

theorem InStrictGrammar.copied {text : Text} (wellFormed : InStrictGrammar floats text) :
    Copied text := by
  induction wellFormed with
  | @scalar type payload isType _ plain _ =>
      refine copied_plain fun character member => ?_
      have isPlain : Plain character := by
        rcases List.mem_cons.mp member with rfl | later
        · fin_cases isType <;> decide
        · exact plain character later
      simp only [Plain, List.mem_cons, List.not_mem_nil, or_false, not_or] at isPlain
      exact ⟨isPlain.2.1, isPlain.2.2.2.2, isPlain.2.2.2.1⟩
  | string noUnit _ =>
      have type : Copied [adString] := copied_plain (by simp; decide)
      exact type.append (copied_quoted noUnit)
  | array _ _ inductionHypothesis => exact copied_arrayText inductionHypothesis

/-- An element of the grammar is a part that does not deviate, unless it is an array that
does. -/
theorem InStrictGrammar.part {text : Text} (wellFormed : InStrictGrammar floats text) :
    ∃ element nested, Part text element nested ∧
      ∀ sloppy, Deviates sloppy text element nested → sloppy text := by
  cases wellFormed with
  | @scalar type payload isType _ plain _ =>
      have isPlain : Plain type := by fin_cases isType <;> decide
      have special := isPlain
      simp only [Plain, List.mem_cons, List.not_mem_nil, or_false, not_or] at special
      have noString : type ≠ adString := by fin_cases isType <;> decide
      have tidy : LooksTidy (type :: payload) := by
        refine .inl ⟨by simpa using noString, fun character member => ?_⟩
        rcases List.mem_cons.mp member with rfl | later
        · exact isPlain
        · exact plain character later
      refine ⟨_, false, .flat (collected_scalar special.1 special.2.1 plain), ?_⟩
      intro sloppy deviates
      cases deviates with
      | word untidy => exact absurd tidy untidy
  | @string value noUnit chars =>
      refine ⟨_, false, .flat (collected_quotedText fun character member => ⟨?_, ?_⟩), ?_⟩
      · rintro rfl
        exact noUnit member
      · exact chars character member
      · intro sloppy deviates
        cases deviates with
        | word untidy => exact absurd (.inr ⟨value, noUnit, rfl⟩) untidy
  | @array elements _ all =>
      have inside :=
      copied_joined (fun element member => InStrictGrammar.copied (all element member))
        [] 1 .start
      refine ⟨_, true, @Part.nested [] (joined elements) (.inl rfl) inside, ?_⟩
      intro sloppy deviates
      cases deviates with
      | dropped more => exact absurd rfl more
      | inside isSloppy => exact isSloppy

/-! ## What is in the grammar does not deviate -/

theorem Follows.ne_nil {separator : Char} {rest : Text} {nested : Bool}
    (follows : Follows separator rest nested) : rest ≠ [] := by
  cases nested with
  | false => exact follows.2
  | true => exact follows.2.1

theorem Follows.ends {separator : Char} {rest : Text} {nested : Bool}
    (follows : Follows separator rest nested) (flat : nested = false) : Ends separator := by
  subst flat
  exact .inl follows.1

/-- The deviation is in the first part, or in the separator, or behind it. -/
theorem SloppyBody.split {ok sloppy : Text → Prop} {word own rest : Text} {kind : Bool}
    {next : Char} (part : Part word own kind) (ends : Ends next)
    (isSloppy : SloppyBody ok sloppy (word ++ next :: rest)) :
    Deviates sloppy word own kind ∨
      rest ≠ [] ∧ (next ≠ adSeperator ∨ SloppyBody ok sloppy rest) := by
  have same : ∀ {other nested}, Part word other nested → Deviates sloppy word other nested →
      Deviates sloppy word own kind := by
    intro other nested part' deviates
    obtain ⟨rfl, rfl⟩ := part.same part'
    exact deviates
  generalize whole : word ++ next :: rest = text at isSloppy
  cases isSloppy with
  | last part' _ deviates =>
      obtain ⟨rfl, -⟩ := part.unique (fun _ => ends) part' (fun _ => .inr rfl) whole
      exact .inl (same part' deviates)
  | here part' _ follows deviates =>
      obtain ⟨rfl, rfl, rfl⟩ := part.unique (fun _ => ends) part' follows.ends whole
      rcases deviates with deviates | noSeparator
      · exact .inl (same part' deviates)
      · exact .inr ⟨follows.ne_nil, .inl noSeparator⟩
  | later part' _ follows behind =>
      obtain ⟨rfl, rfl, rfl⟩ := part.unique (fun _ => ends) part' follows.ends whole
      exact .inr ⟨follows.ne_nil, .inr behind⟩

theorem not_sloppyBody {ok sloppy : Text → Prop} {elements : List Text} (nonempty : elements ≠ [])
    (wellFormed : ∀ element ∈ elements, InStrictGrammar floats element)
    (neat : ∀ element ∈ elements, ¬sloppy element) :
    ¬SloppyBody ok sloppy (joined elements ++ [adAsRight]) := by
  induction elements with
  | nil => exact absurd rfl nonempty
  | cons element elements inductionHypothesis =>
      obtain ⟨own, kind, part, deviates⟩ := InStrictGrammar.part (wellFormed element (by simp))
      have notHere : ¬Deviates sloppy element own kind :=
        fun deviatesHere => neat element (by simp) (deviates sloppy deviatesHere)
      intro isSloppy
      cases elements with
      | nil =>
          rcases isSloppy.split part (.inr rfl) with deviatesHere | ⟨more, -⟩
          · exact notHere deviatesHere
          · exact more rfl
      | cons second elements =>
          rw [joined_cons_cons, List.append_assoc, List.cons_append] at isSloppy
          rcases isSloppy.split part (.inl rfl) with deviatesHere | ⟨-, noSeparator | behind⟩
          · exact notHere deviatesHere
          · exact noSeparator rfl
          · exact inductionHypothesis (by simp)
              (fun other member => wellFormed other (by simp [member]))
              (fun other member => neat other (by simp [member])) behind

theorem InStrictGrammar.not_sloppy {text : Text} (wellFormed : InStrictGrammar floats text)
    (depth : ℕ) : ¬Sloppy floats depth text := by
  induction wellFormed generalizing depth with
  | @scalar type payload isType =>
      have noArray : type ≠ adArray := by fin_cases isType <;> decide
      cases depth with
      | zero => rintro (_ | _) <;> exact noArray rfl
      | succ depth => rintro (_ | _) <;> exact noArray rfl
  | string => cases depth <;> rintro (_ | _)
  | @array elements nonempty all inductionHypothesis =>
      have body : ∀ ok sloppy, (∀ element ∈ elements, ¬sloppy element) →
          ¬SloppyWith ok sloppy (arrayText elements) := by
        intro ok sloppy neat isSloppy
        generalize whole : arrayText elements = text at isSloppy
        cases isSloppy with
        | bare => simp [arrayText] at whole
        | array deviates =>
            obtain rfl := (List.cons.inj (List.cons.inj whole).2).2
            exact not_sloppyBody nonempty all neat deviates
      cases depth with
      | zero => exact body _ _ fun _ _ => not_false
      | succ depth => exact body _ _ fun element member => inductionHypothesis element member depth

/-! ## What begins like an array -/

theorem InGrammar.elements {rest : Text} (inGrammar : InGrammar floats (adArray :: rest)) :
    ∃ elements, elements ≠ [] ∧ (∀ element ∈ elements, InGrammar floats element) ∧
      adArray :: rest = arrayText elements := by
  generalize whole : adArray :: rest = text at inGrammar
  cases inGrammar with
  | scalar isType =>
      cases (List.cons.inj whole).1
      exact absurd isType (by decide)
  | string => cases whole
  | array nonempty all => exact ⟨_, nonempty, all, rfl⟩

theorem getLast?_arrayText (elements : List Text) :
    (arrayText elements).getLast? = some adAsRight := by
  rw [arrayText, ← List.cons_append, ← List.cons_append, List.getLast?_concat]

theorem joined_eq_singleton {elements : List Text} (nonempty : elements ≠ [])
    (noSeparator : adSeperator ∉ joined elements) : ∃ element, elements = [element] := by
  rcases elements with _ | ⟨element, _ | ⟨second, elements⟩⟩
  · exact absurd rfl nonempty
  · exact ⟨element, rfl⟩
  · exact absurd (by simp [joined_cons_cons]) noSeparator

end ArmaData

open ArmaData

section Accepts

variable {Single : Type} (floats : FloatFormat Single)

def ReadsArray (text : Text) : Prop :=
  ∃ elements, ArmaData.parseArmaData floats text = .ok (.array elements)

theorem readsArray_iff (body : Text) :
    ReadsArray floats (adArray :: adAsLeft :: body) ↔
      Accepted floats (adArray :: adAsLeft :: body).length (adArray :: adAsLeft :: body) := by
  rw [← (buildData_level _ _).1]
  constructor
  · rintro ⟨elements, parsed⟩
    exact ⟨.array elements, newElement_of_ok parsed rfl⟩
  · rintro ⟨value, built⟩
    obtain ⟨elements, rfl⟩ := newElement_array built
    obtain ⟨parsed, parsing, hasData⟩ := bind_eq_ok built
    split at hasData
    · cases hasData
      exact ⟨elements, parsing⟩
    · cases hasData

/-- What starts like an array and is read as one is in the grammar, unless it deviates from it;
then it is in the grammar only if a quoted string holds an `@`. -/
theorem reads_grammar_iff (body : Text) :
    (ReadsArray floats (adArray :: adAsLeft :: body) →
        InGrammar floats (adArray :: adAsLeft :: body)) ↔
      ¬Sloppy floats (adArray :: adAsLeft :: body).length (adArray :: adAsLeft :: body) ∨
        (InGrammar floats (adArray :: adAsLeft :: body) ∧
          ¬InStrictGrammar floats (adArray :: adAsLeft :: body)) := by
  rw [readsArray_iff]
  constructor
  · intro property
    by_cases isSloppy : Sloppy floats (adArray :: adAsLeft :: body).length
        (adArray :: adAsLeft :: body)
    · exact .inr ⟨property isSloppy.accepted, fun wellFormed => wellFormed.not_sloppy _ isSloppy⟩
    · exact .inl isSloppy
  · rintro (neat | ⟨inGrammar, -⟩) accepted
    · rcases accepted_cases accepted with isSloppy | wellFormed
      · exact absurd isSloppy neat
      · exact WellFormed.mono (fun _ _ => trivial) wellFormed
    · exact inGrammar

end Accepts

/-- An array in an array with another character behind it, and an array that ends behind its
opening bracket. -/
theorem other_separator_accepted :
    let floats : FloatFormat ℤ := ⟨stoll, fun _ => printInteger⟩
    (ReadsArray floats "@[@[-1]x-2]".toList ∧ ¬InGrammar floats "@[@[-1]x-2]".toList) ∧
      ReadsArray floats "@[".toList ∧ ¬InGrammar floats "@[".toList := by
  intro floats
  have word : ∀ payload ∈ ["1".toList, "2".toList],
      Part (adSigned :: payload) (unquoted (adSigned :: payload)) false ∧
        ∀ depth, Accepted floats depth (unquoted (adSigned :: payload)) := by
    intro payload member
    have plain : ∀ character ∈ payload, Plain character := by
      intro character among
      rcases List.mem_pair.mp member with rfl | rfl <;>
        obtain rfl := List.mem_singleton.mp among <;> decide
    refine ⟨.flat (collected_scalar (by decide) (by decide) plain), fun depth => ?_⟩
    have reads : ∀ ok, AcceptedWith floats ok (adSigned :: payload) := by
      rcases List.mem_pair.mp member with rfl | rfl
      · exact fun ok => .scalar (.inr (.inr (.inr (.inl ⟨rfl, by decide⟩))))
      · exact fun ok => .scalar (.inr (.inr (.inr (.inl ⟨rfl, by decide⟩))))
    have kept : unquoted (adSigned :: payload) = adSigned :: payload := by
      rcases List.mem_pair.mp member with rfl | rfl <;> decide
    rw [kept]
    cases depth with
    | zero => exact reads _
    | succ depth => exact reads _
  have one := word "1".toList (by simp)
  have two := word "2".toList (by simp)
  have inside : Nests "-1".toList false 1 := by
    refine copied_plain (fun character among => ?_) [] 1 .start
    rcases List.mem_pair.mp among with rfl | rfl <;> decide
  have nested : Accepted floats 10 (nestedText "-1".toList) :=
    .array (.last (.last one.1 (one.2 9)))
  have shape : "@[@[-1]x-2]".toList = adArray :: adAsLeft ::
      ([] ++ nestedText "-1".toList ++ 'x' :: (adSigned :: "2".toList ++ [adAsRight])) := by
    decide
  have follows : Follows 'x' (adSigned :: "2".toList ++ [adAsRight]) true :=
    ⟨by decide, by simp, by decide⟩
  have accepted : Accepted floats 11 (adArray :: adAsLeft ::
      ([] ++ nestedText "-1".toList ++ 'x' :: (adSigned :: "2".toList ++ [adAsRight]))) :=
    .array (.part (.nested (.inl rfl) inside) nested follows (.last (.last two.1 (two.2 10))))
  have reads : ReadsArray floats "@[@[-1]x-2]".toList := by
    rw [shape, readsArray_iff]
    exact accepted
  have readsBare : ReadsArray floats "@[".toList := (readsArray_iff floats []).mpr .bare
  refine ⟨⟨reads, fun inGrammar => ?_⟩, readsBare, fun inGrammar => ?_⟩
  · obtain ⟨elements, nonempty, all, whole⟩ := inGrammar.elements
    have body : "@[-1]x-2".toList ++ [adAsRight] = joined elements ++ [adAsRight] :=
      (List.cons.inj (List.cons.inj whole).2).2
    have inside := List.append_cancel_right body
    obtain ⟨element, rfl⟩ := joined_eq_singleton nonempty (by rw [← inside]; decide)
    -- the one element would be an array without a bracket at its end
    have only : InGrammar floats "@[-1]x-2".toList := by
      rw [inside]
      exact all element (by simp)
    obtain ⟨inner, -, -, arrayWhole⟩ := only.elements
    have ending := (congrArg List.getLast? arrayWhole).trans (getLast?_arrayText inner)
    revert ending
    decide
  · obtain ⟨elements, nonempty, all, whole⟩ := inGrammar.elements
    have lengths := (congrArg List.length whole).trans (length_arrayText elements)
    simp at lengths

end OperationFrontLine.Wire
