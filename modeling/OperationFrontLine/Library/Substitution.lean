import Mathlib.Tactic

/-!
# Substitution in a text

A text is read from left to right.  Where a pattern stands, its replacement is written and
the pattern is passed over; every other character is copied.
-/

namespace OperationFrontLine.Library

universe u

variable {Letter : Type u}

abbrev Rule (Letter : Type u) := List Letter × List Letter

/-! ## Texts that do not meet -/

/-- Neither text begins with the other one. -/
def Apart (first second : List Letter) : Prop :=
  ¬ first <+: second ∧ ¬ second <+: first

instance [DecidableEq Letter] (first second : List Letter) : Decidable (Apart first second) :=
  inferInstanceAs (Decidable (_ ∧ _))

theorem Apart.symm {first second : List Letter} (apart : Apart first second) :
    Apart second first := ⟨apart.2, apart.1⟩

theorem Apart.not_both {first second text : List Letter} (apart : Apart first second)
    (here : first <+: text) : ¬ second <+: text := by
  intro there
  rcases List.prefix_or_prefix_of_prefix here there with inside | inside
  · exact apart.1 inside
  · exact apart.2 inside

theorem Apart.append_right {first second : List Letter} (apart : Apart first second)
    (more : List Letter) : Apart first (second ++ more) := by
  refine ⟨fun inside => ?_, fun inside => apart.2 ((List.prefix_append second more).trans inside)⟩
  exact apart.not_both inside (List.prefix_append second more)

theorem apart_of_head_ne {first second : List Letter} {letter other : Letter}
    (different : letter ≠ other) : Apart (letter :: first) (other :: second) :=
  ⟨fun inside => different (List.cons_prefix_cons.mp inside).1,
    fun inside => different (List.cons_prefix_cons.mp inside).1.symm⟩

def Clear (rules : List (Rule Letter)) (text : List Letter) : Prop :=
  ∀ ending, ending <:+ text → ending ≠ [] →
    ∀ rule ∈ rules, Apart ending rule.1 ∧ Apart ending rule.2

theorem Clear.tail {rules : List (Rule Letter)} {letter : Letter} {text : List Letter}
    (clear : Clear rules (letter :: text)) : Clear rules text :=
  fun ending ends => clear ending (ends.trans (List.suffix_cons letter text))

/-- A text that is not found behind an inserted one is not found with it. -/
theorem not_infix_append {inserted sought text : List Letter}
    (apart : ∀ ending, ending <:+ inserted → ending ≠ [] → Apart ending sought)
    (elsewhere : ¬ sought <:+: text) : ¬ sought <:+: inserted ++ text := by
  induction inserted with
  | nil => exact elsewhere
  | cons letter inserted inductionHypothesis =>
      rw [List.cons_append, List.infix_cons_iff, not_or]
      constructor
      · exact (apart _ List.suffix_rfl (by simp)).not_both
          (List.prefix_append (letter :: inserted) text)
      · exact inductionHypothesis fun ending ends =>
          apart ending (ends.trans (List.suffix_cons letter inserted))

/-! ## Texts that do not overlap themselves -/

def NoOverlap (find text : List Letter) : Prop :=
  ∀ first second, first < second → find <+: text.drop first → find <+: text.drop second →
    first + find.length ≤ second

theorem noOverlap_cons {find rest : List Letter} {letter : Letter} :
    NoOverlap find (letter :: rest) ↔
      NoOverlap find rest ∧ (find <+: letter :: rest →
        ∀ second, find <+: rest.drop second → find.length ≤ second + 1) := by
  constructor
  · intro apart
    refine ⟨fun first second before here there => ?_, fun here second there => ?_⟩
    · have shifted := apart (first + 1) (second + 1) (by omega) here there
      omega
    · have shifted := apart 0 (second + 1) (by omega) here there
      omega
  · rintro ⟨apart, atStart⟩ first second before here there
    cases second with
    | zero => omega
    | succ second =>
        cases first with
        | zero =>
            have far := atStart here second there
            omega
        | succ first =>
            have far := apart first second (by omega) here there
            omega

theorem noOverlap_of_apart {find : List Letter}
    (apart : ∀ ending, ending <:+ find.tail → ending ≠ [] → Apart ending find)
    (text : List Letter) : NoOverlap find text := by
  intro first second before here there
  by_contra near
  -- what is left of the first occurrence stands where the second one does
  have left : find.drop (second - first) <+: text.drop second := by
    have shifted := here.drop (second - first)
    rwa [List.drop_drop, Nat.add_sub_cancel' before.le] at shifted
  have ends : find.drop (second - first) <:+ find.tail := by
    rw [← List.drop_one, show second - first = 1 + (second - first - 1) by omega,
      ← List.drop_drop]
    exact List.drop_suffix _ _
  refine (apart _ ends ?_).not_both left there
  rw [Ne, List.drop_eq_nil_iff]
  omega

/-- A pattern stands at the start of a longer text, or the longer text is the pattern. -/
theorem prefix_concat_iff {find text : List Letter} {last : Letter} :
    find <+: text ++ [last] ↔ find <+: text ∨ find = text ++ [last] := by
  rw [List.prefix_concat_iff, or_comm]

/-! ## Substituting -/

variable [DecidableEq Letter]

/-- Every pattern is replaced where it stands, the first rule first; `skip` characters are
passed over before. -/
def substitute (rules : List (Rule Letter)) : (skip : ℕ) → List Letter → List Letter
  | _, [] => []
  | skip + 1, _ :: rest => substitute rules skip rest
  | 0, letter :: rest =>
      match rules.find? fun rule => decide (rule.1 <+: letter :: rest) with
      | some rule => rule.2 ++ substitute rules (rule.1.length - 1) rest
      | none => letter :: substitute rules 0 rest

/-- Each occurrence that does not overlap a replaced one is replaced. -/
def replaceLeftmost (find replacement : List Letter) : List Letter → List Letter :=
  substitute [(find, replacement)] 0

@[simp]
theorem substitute_nil (rules : List (Rule Letter)) (skip : ℕ) :
    substitute rules skip [] = [] := by
  cases skip <;> rfl

@[simp]
theorem substitute_succ (rules : List (Rule Letter)) (skip : ℕ) (letter : Letter)
    (rest : List Letter) :
    substitute rules (skip + 1) (letter :: rest) = substitute rules skip rest := rfl

theorem substitute_drop (rules : List (Rule Letter)) (skip : ℕ) (text : List Letter) :
    substitute rules skip text = substitute rules 0 (text.drop skip) := by
  induction text generalizing skip with
  | nil => simp
  | cons letter rest inductionHypothesis =>
      cases skip with
      | zero => rfl
      | succ skip => exact inductionHypothesis skip

theorem substitute_single_cons (find replacement : List Letter) (letter : Letter)
    (rest : List Letter) :
    substitute [(find, replacement)] 0 (letter :: rest) =
      if find <+: letter :: rest then
        replacement ++ substitute [(find, replacement)] (find.length - 1) rest
      else
        letter :: substitute [(find, replacement)] 0 rest := by
  rw [substitute]
  split
  · rename_i rule found
    have isFirst := List.mem_of_find?_eq_some found
    have standsHere := List.find?_some found
    rw [List.mem_singleton] at isFirst
    subst isFirst
    rw [if_pos (of_decide_eq_true standsHere)]
  · rename_i missing
    have nowhere := List.find?_eq_none.mp missing (find, replacement) (by simp)
    rw [if_neg (by simpa using nowhere)]

/-! ## Occurrences -/

def occurrences (find : List Letter) : List Letter → ℕ
  | [] => 0
  | letter :: rest =>
      (if find <+: letter :: rest then 1 else 0) + occurrences find rest

def replaced (find : List Letter) : (skip : ℕ) → List Letter → ℕ
  | _, [] => 0
  | skip + 1, _ :: rest => replaced find skip rest
  | 0, letter :: rest =>
      if find <+: letter :: rest then 1 + replaced find (find.length - 1) rest
      else replaced find 0 rest

theorem replaced_le_occurrences (find : List Letter) (skip : ℕ) (text : List Letter) :
    replaced find skip text ≤ occurrences find text := by
  induction text generalizing skip with
  | nil => cases skip <;> rfl
  | cons letter rest inductionHypothesis =>
      rw [occurrences]
      cases skip with
      | zero =>
          have later := inductionHypothesis (find.length - 1)
          have next := inductionHypothesis 0
          rw [replaced]
          split <;> omega
      | succ skip =>
          have later := inductionHypothesis skip
          rw [replaced]
          omega

/-- Where every occurrence is replaced, none begins in a part that is passed over. -/
theorem noOverlap_of_replaced {find : List Letter} (some : find ≠ []) {skip : ℕ}
    {text : List Letter} (all : replaced find skip text = occurrences find text) :
    NoOverlap find text ∧ ∀ position < skip, ¬ find <+: text.drop position := by
  induction text generalizing skip with
  | nil =>
      have nowhere : ∀ position, ¬ find <+: ([] : List Letter).drop position := by
        intro position here
        rw [List.drop_nil] at here
        exact some (List.prefix_nil.mp here)
      exact ⟨fun first _ _ here _ => absurd here (nowhere first),
        fun position _ => nowhere position⟩
  | cons letter rest inductionHypothesis =>
      have long := List.length_pos_of_ne_nil some
      rw [occurrences] at all
      cases skip with
      | zero =>
          rw [replaced] at all
          split at all
          · rename_i here
            rw [Nat.add_left_cancel_iff] at all
            obtain ⟨apart, free⟩ := inductionHypothesis all
            refine ⟨noOverlap_cons.mpr ⟨apart, fun _ second there => ?_⟩, fun _ before => ?_⟩
            · by_contra near
              exact free second (by omega) there
            · omega
          · rename_i elsewhere
            rw [Nat.zero_add] at all
            obtain ⟨apart, -⟩ := inductionHypothesis all
            refine ⟨noOverlap_cons.mpr ⟨apart, fun here => absurd here elsewhere⟩, ?_⟩
            intro position before
            omega
      | succ skip =>
          have most := replaced_le_occurrences find skip rest
          rw [replaced] at all
          have elsewhere : ¬ find <+: letter :: rest := by
            intro here
            rw [if_pos here] at all
            omega
          rw [if_neg elsewhere, Nat.zero_add] at all
          obtain ⟨apart, free⟩ := inductionHypothesis all
          refine ⟨noOverlap_cons.mpr ⟨apart, fun here => absurd here elsewhere⟩, ?_⟩
          intro position before
          cases position with
          | zero => exact elsewhere
          | succ position => exact free position (by omega)

theorem length_substitute_single (find replacement : List Letter) (some : find ≠ []) {skip : ℕ}
    {text : List Letter} (inside : skip ≤ text.length) :
    (substitute [(find, replacement)] skip text).length + skip +
        replaced find skip text * find.length =
      text.length + replaced find skip text * replacement.length := by
  induction text generalizing skip with
  | nil =>
      have none : skip = 0 := by simpa using inside
      subst none
      simp [replaced]
  | cons letter rest inductionHypothesis =>
      cases skip with
      | zero =>
          rw [substitute_single_cons, replaced]
          split
          · rename_i here
            have long := List.length_pos_of_ne_nil some
            have short := here.length_le
            rw [List.length_cons] at short ⊢
            have later := @inductionHypothesis (find.length - 1) (by omega)
            rw [List.length_append, Nat.add_mul, Nat.add_mul]
            omega
          · have later := @inductionHypothesis 0 (Nat.zero_le _)
            simp only [List.length_cons] at later ⊢
            omega
      | succ skip =>
          have later := @inductionHypothesis skip (by simpa using inside)
          rw [substitute_succ, replaced, List.length_cons]
          omega

/-! ## Reading one character more -/

theorem occurrences_append_singleton {find : List Letter} (some : find ≠ []) (text : List Letter)
    (last : Letter) :
    occurrences find (text ++ [last]) =
      occurrences find text + if find <:+ text ++ [last] then 1 else 0 := by
  induction text with
  | nil =>
      have same : find <+: [last] ↔ find <:+ [last] := by
        rw [← List.nil_append [last], prefix_concat_iff, List.prefix_nil]
        constructor
        · rintro (none | rfl)
          · exact absurd none some
          · exact List.suffix_rfl
        · intro ends
          obtain ⟨front, whole⟩ := ends
          rcases List.append_eq_singleton_iff.mp whole with ⟨-, is⟩ | ⟨-, is⟩
          · exact .inr is
          · exact .inl is
      simp [occurrences, same]
  | cons letter rest inductionHypothesis =>
      have starts : find <+: letter :: (rest ++ [last]) ↔
          find <+: letter :: rest ∨ find = letter :: (rest ++ [last]) := by
        rw [← List.cons_append]
        exact prefix_concat_iff
      rw [List.cons_append, occurrences, occurrences, inductionHypothesis]
      simp only [starts, List.suffix_cons_iff]
      by_cases whole : find = letter :: (rest ++ [last])
      · have notInside : ¬ find <+: letter :: rest := by
          intro here
          have short := here.length_le
          rw [whole] at short
          simp at short
        have notEnd : ¬ find <:+ rest ++ [last] := by
          intro ends
          have short := ends.length_le
          rw [whole] at short
          simp at short
        rw [if_pos (.inr whole), if_neg notInside, if_neg notEnd, if_pos (.inl whole)]
        omega
      · simp only [whole, or_false, false_or]
        omega

theorem substitute_append_singleton {find replacement : List Letter} {last : Letter} {skip : ℕ}
    {text : List Letter} (inside : skip ≤ text.length) (notEnd : ¬ find <:+ text ++ [last]) :
    substitute [(find, replacement)] skip (text ++ [last]) =
      substitute [(find, replacement)] skip text ++ [last] := by
  induction text generalizing skip with
  | nil =>
      have none : skip = 0 := by simpa using inside
      subst none
      have elsewhere : ¬ find <+: [last] := by
        intro here
        rcases prefix_concat_iff.mp (show find <+: [] ++ [last] from here) with none | whole
        · exact notEnd (by rw [List.prefix_nil.mp none]; exact List.nil_suffix)
        · exact notEnd (by rw [whole])
      rw [List.nil_append, substitute_single_cons, if_neg elsewhere]
      simp
  | cons letter rest inductionHypothesis =>
      have notLater : ¬ find <:+ rest ++ [last] := fun ends =>
        notEnd (ends.trans (List.suffix_cons letter _))
      cases skip with
      | zero =>
          have same : find <+: letter :: (rest ++ [last]) ↔ find <+: letter :: rest := by
            rw [← List.cons_append, prefix_concat_iff]
            exact or_iff_left fun whole => notEnd (by rw [whole])
          rw [List.cons_append, substitute_single_cons, substitute_single_cons]
          simp only [same]
          split
          · rename_i here
            have short := here.length_le
            rw [List.length_cons] at short
            rw [inductionHypothesis (by omega) notLater, List.append_assoc]
          · rw [inductionHypothesis (Nat.zero_le _) notLater, List.cons_append]
      | succ skip =>
          rw [List.cons_append, substitute_succ, substitute_succ]
          exact inductionHypothesis (by simpa using inside) notLater

theorem substitute_append_copied {find replacement text more : List Letter}
    (notEnd : ∀ front, front <+: more → front ≠ [] → ¬ find <:+ text ++ front) :
    substitute [(find, replacement)] 0 (text ++ more) =
      substitute [(find, replacement)] 0 text ++ more := by
  induction more using List.reverseRecOn with
  | nil => simp
  | append_singleton more last inductionHypothesis =>
      have shorter := inductionHypothesis fun front isPrefix =>
        notEnd front (isPrefix.trans (List.prefix_append more [last]))
      have here := notEnd (more ++ [last]) List.prefix_rfl (by simp)
      rw [← List.append_assoc] at here ⊢
      rw [substitute_append_singleton (Nat.zero_le _) here, shorter, List.append_assoc]

theorem substitute_append_pattern {find replacement : List Letter} (some : find ≠ []) {skip : ℕ}
    {text : List Letter} (inside : skip ≤ text.length) (apart : NoOverlap find (text ++ find)) :
    substitute [(find, replacement)] skip (text ++ find) =
      substitute [(find, replacement)] skip text ++ replacement := by
  induction text generalizing skip with
  | nil =>
      have none : skip = 0 := by simpa using inside
      subst none
      obtain ⟨letter, rest, rfl⟩ := List.exists_cons_of_ne_nil some
      rw [List.nil_append, substitute_single_cons, if_pos List.prefix_rfl, substitute_drop]
      simp
  | cons letter rest inductionHypothesis =>
      rw [List.cons_append] at apart
      obtain ⟨apartLater, atStart⟩ := noOverlap_cons.mp apart
      cases skip with
      | zero =>
          have same : find <+: letter :: (rest ++ find) ↔ find <+: letter :: rest := by
            constructor
            · intro here
              have far := atStart here rest.length (by rw [List.drop_left])
              exact List.prefix_of_prefix_length_le here
                (List.prefix_append (letter :: rest) find) (by simpa using far)
            · exact fun here => here.trans (List.prefix_append (letter :: rest) find)
          rw [List.cons_append, substitute_single_cons, substitute_single_cons]
          simp only [same]
          split
          · rename_i here
            have short := here.length_le
            rw [List.length_cons] at short
            rw [inductionHypothesis (by omega) apartLater, List.append_assoc]
          · rw [inductionHypothesis (Nat.zero_le _) apartLater, List.cons_append]
      | succ skip =>
          rw [List.cons_append, substitute_succ, substitute_succ]
          exact inductionHypothesis (by simpa using inside) apartLater

/-! ## Patterns and replacements that stay apart -/

variable {rules : List (Rule Letter)} {rule : Rule Letter} {letter : Letter}
  {text rest : List Letter}

theorem substitute_cons_of_some
    (found : rules.find? (fun rule => decide (rule.1 <+: letter :: rest)) = some rule) :
    substitute rules 0 (letter :: rest) =
      rule.2 ++ substitute rules 0 (rest.drop (rule.1.length - 1)) := by
  rw [← substitute_drop, substitute, found]

theorem substitute_cons_of_none
    (missing : rules.find? (fun rule => decide (rule.1 <+: letter :: rest)) = none) :
    substitute rules 0 (letter :: rest) = letter :: substitute rules 0 rest := by
  rw [substitute, missing]

theorem substitute_of_prefix {copied : List Letter} (clear : Clear rules copied)
    (here : copied <+: text) :
    substitute rules 0 text = copied ++ substitute rules 0 (text.drop copied.length) := by
  induction copied generalizing text with
  | nil => rfl
  | cons letter copied inductionHypothesis =>
      obtain ⟨rest, rfl⟩ := here
      have missing : rules.find? (fun rule => decide (rule.1 <+: letter :: (copied ++ rest))) =
          none := by
        rw [List.find?_eq_none]
        intro rule member
        have apart := (clear _ List.suffix_rfl (by simp) rule member).1
        rw [decide_eq_true_eq]
        exact apart.not_both (List.prefix_append (letter :: copied) rest)
      rw [List.cons_append, substitute_cons_of_none missing,
        inductionHypothesis clear.tail (List.prefix_append copied rest)]
      rfl

theorem prefix_substitute_iff {sought : List Letter} (clear : Clear rules sought) :
    sought <+: substitute rules 0 text ↔ sought <+: text := by
  induction text generalizing sought with
  | nil => rw [substitute_nil]
  | cons letter rest inductionHypothesis =>
      cases sought with
      | nil => simp
      | cons first sought =>
          have apart := clear _ List.suffix_rfl (by simp)
          cases found : rules.find? (fun rule => decide (rule.1 <+: letter :: rest)) with
          | some rule =>
              have member := List.mem_of_find?_eq_some found
              have standsHere := List.find?_some found
              rw [decide_eq_true_eq] at standsHere
              rw [substitute_cons_of_some found]
              constructor
              · intro here
                exact absurd (List.prefix_append _ _) ((apart rule member).2.not_both here)
              · intro here
                exact absurd standsHere ((apart rule member).1.not_both here)
          | none =>
              rw [substitute_cons_of_none found, List.cons_prefix_cons, List.cons_prefix_cons,
                inductionHypothesis clear.tail]

theorem cons_prefix_substitute_iff {sought : List Letter} (clear : Clear rules sought.tail)
    (missing : rules.find? (fun rule => decide (rule.1 <+: letter :: rest)) = none) :
    sought <+: substitute rules 0 (letter :: rest) ↔ sought <+: letter :: rest := by
  rw [substitute_cons_of_none missing]
  cases sought with
  | nil => simp
  | cons first sought =>
      rw [List.tail_cons] at clear
      rw [List.cons_prefix_cons, List.cons_prefix_cons, prefix_substitute_iff clear]

theorem substitute_inserted_append {inserted : List Letter}
    (apart : ∀ ending, ending <:+ inserted → ending ≠ [] →
      ∀ rule ∈ rules, Apart ending rule.1) (text : List Letter) :
    substitute rules 0 (inserted ++ text) = inserted ++ substitute rules 0 text := by
  induction inserted with
  | nil => rfl
  | cons letter inserted inductionHypothesis =>
      have missing : rules.find? (fun rule => decide (rule.1 <+: letter :: (inserted ++ text))) =
          none := by
        rw [List.find?_eq_none]
        intro rule member
        rw [decide_eq_true_eq]
        exact (apart _ List.suffix_rfl (by simp) rule member).not_both
          (List.prefix_append (letter :: inserted) text)
      rw [List.cons_append, substitute_cons_of_none missing, inductionHypothesis fun ending ends =>
        apart ending (ends.trans (List.suffix_cons letter inserted))]
      rfl

/-- Patterns and replacements that stay apart wherever they are put. -/
structure Separate (rules : List (Rule Letter)) : Prop where
  pattern : ∀ rule ∈ rules, rule.1 ≠ []
  clear : ∀ rule ∈ rules, Clear rules rule.1.tail
  inserted : ∀ rule ∈ rules, ∀ ending, ending <:+ rule.2 → ending ≠ [] →
    ∀ other ∈ rules, Apart ending other.1

theorem Separate.not_infix (separate : Separate rules) {sought : Rule Letter}
    (isRule : sought ∈ rules) (skip : ℕ) (text : List Letter) :
    ¬ sought.1 <:+: substitute rules skip text := by
  induction text generalizing skip with
  | nil =>
      rw [substitute_nil, List.infix_nil]
      exact separate.pattern sought isRule
  | cons letter rest inductionHypothesis =>
      cases skip with
      | succ skip => exact inductionHypothesis skip
      | zero =>
          cases found : rules.find? (fun rule => decide (rule.1 <+: letter :: rest)) with
          | some rule =>
              have member := List.mem_of_find?_eq_some found
              rw [substitute_cons_of_some found, ← substitute_drop]
              exact not_infix_append
                (fun ending ends some =>
                  separate.inserted rule member ending ends some sought isRule)
                (inductionHypothesis _)
          | none =>
              have starts := cons_prefix_substitute_iff (separate.clear sought isRule) found
              rw [substitute_cons_of_none found] at starts ⊢
              rw [List.infix_cons_iff, starts, not_or]
              refine ⟨?_, inductionHypothesis 0⟩
              simpa using List.find?_eq_none.mp found sought isRule

/-- Two passes, one for each of two patterns, are one substitution of both. -/
theorem substitute_substitute {first second : Rule Letter} (separate : Separate [first, second])
    (text : List Letter) :
    substitute [second] 0 (substitute [first] 0 text) = substitute [first, second] 0 text := by
  induction length : text.length using Nat.strong_induction_on generalizing text with
  | _ count inductionHypothesis =>
      cases text with
      | nil => simp
      | cons letter rest =>
          subst length
          have shorter : ∀ dropped,
              substitute [second] 0 (substitute [first] 0 (rest.drop dropped)) =
              substitute [first, second] 0 (rest.drop dropped) := fun dropped =>
            inductionHypothesis _ (by rw [List.length_drop, List.length_cons]; omega) _ rfl
          have onlyFirst : ∀ ending, Clear [first, second] ending → Clear [first] ending :=
            fun _ clear ending ends some rule member =>
              clear ending ends some rule (List.mem_cons.mpr (.inl (List.mem_singleton.mp member)))
          by_cases firstHere : first.1 <+: letter :: rest
          · have apart := separate.inserted first (by simp)
            rw [@substitute_cons_of_some _ _ [first] first _ _ (by simp [firstHere]),
              @substitute_cons_of_some _ _ [first, second] first _ _ (by simp [firstHere]),
              substitute_inserted_append
                (fun ending ends some rule member => apart ending ends some rule
                  (List.mem_cons_of_mem first member)), shorter]
          · have missing :
                [first].find? (fun rule => decide (rule.1 <+: letter :: rest)) = none := by
              simp [firstHere]
            have clear := onlyFirst _ (separate.clear second (by simp))
            have starts := cons_prefix_substitute_iff clear missing
            rw [substitute_cons_of_none missing] at starts ⊢
            by_cases secondHere : second.1 <+: letter :: rest
            · -- what the second pattern passes over is copied by the first pass
              have copied : second.1.tail <+: rest := by
                obtain ⟨start, behind, split⟩ :=
                  List.exists_cons_of_ne_nil (separate.pattern second (by simp))
                rw [split] at secondHere ⊢
                exact (List.cons_prefix_cons.mp secondHere).2
              rw [@substitute_cons_of_some _ _ [second] second _ _
                  (by simp [starts.mpr secondHere]),
                @substitute_cons_of_some _ _ [first, second] second _ _
                  (by simp [firstHere, secondHere]),
                substitute_of_prefix clear copied, ← List.length_tail, List.drop_left, shorter]
            · have notStarts : ¬ second.1 <+: letter :: substitute [first] 0 rest :=
                fun here => secondHere (starts.mp here)
              rw [@substitute_cons_of_none _ _ [second] _ _ (by simp [notStarts]),
                @substitute_cons_of_none _ _ [first, second] _ _ (by simp [firstHere, secondHere])]
              exact congrArg (letter :: ·) (shorter 0)

end OperationFrontLine.Library
