import OperationFrontLine.Library.Substitution

/-!
# Find and replace

`GSC_FindReplaceString` copies a text character by character and keeps the last characters
that it read in `_buf`.  `_start` is where they begin in the copy.  Behind a hit the copy is
changed, but `_buf` is not.
-/

namespace OperationFrontLine.Scripts

open OperationFrontLine.Library

universe u

variable {Letter : Type u} [DecidableEq Letter]

structure Replacing (Letter : Type u) where
  new : List Letter
  buf : List Letter
  start : ℤ
  deriving DecidableEq

/-- `array deleteRange [start, size]`.  What a negative start does is not documented and is
left to `outside`. -/
def deleteRange (outside : List Letter → ℤ → ℕ → List Letter) (array : List Letter)
    (start : ℤ) (size : ℕ) : List Letter :=
  if 0 ≤ start then array.take start.toNat ++ array.drop (start.toNat + size)
  else outside array start size

section Loop

variable (outside : List Letter → ℤ → ℕ → List Letter) (find replace : List Letter)

def replaceStep (forEachIndex : ℕ) (vars : Replacing Letter) (x : Letter) : Replacing Letter :=
  let size := find.length
  let new := vars.new ++ [x]
  let buf := vars.buf ++ [x]
  let start := if size ≤ forEachIndex then vars.start + 1 else vars.start
  let buf := if size ≤ forEachIndex then buf.tail else buf
  if buf = find then
    { new := deleteRange outside new start size ++ replace
      buf := buf
      start := start + (replace.length - size) }
  else
    { new := new, buf := buf, start := start }

/-- `{ ... } foreach _string` from an index on. -/
def replaceLoop : (forEachIndex : ℕ) → Replacing Letter → List Letter → Replacing Letter
  | _, vars, [] => vars
  | forEachIndex, vars, x :: rest =>
      replaceLoop (forEachIndex + 1) (replaceStep outside find replace forEachIndex vars x) rest

def replaceVars (string : List Letter) : Replacing Letter :=
  replaceLoop outside find replace 0 ⟨[], [], 0⟩ string

/-- `GSC_FindReplaceString`, on the characters of the strings. -/
def findReplaceString (string : List Letter) : List Letter :=
  (replaceVars outside find replace string).new

theorem replaceLoop_append (first second : List Letter) (forEachIndex : ℕ)
    (vars : Replacing Letter) :
    replaceLoop outside find replace forEachIndex vars (first ++ second) =
      replaceLoop outside find replace (forEachIndex + first.length)
        (replaceLoop outside find replace forEachIndex vars first) second := by
  induction first generalizing forEachIndex vars with
  | nil => rfl
  | cons x first inductionHypothesis =>
      rw [List.cons_append, replaceLoop, replaceLoop, inductionHypothesis, List.length_cons]
      congr 1
      omega

theorem replaceVars_append_singleton (string : List Letter) (x : Letter) :
    replaceVars outside find replace (string ++ [x]) =
      replaceStep outside find replace string.length
        (replaceVars outside find replace string) x := by
  rw [replaceVars, replaceLoop_append, Nat.zero_add]
  rfl

end Loop

/-- The last characters of a text, as many as the pattern has. -/
def lastOf (find string : List Letter) : List Letter :=
  string.drop (string.length - find.length)

omit [DecidableEq Letter] in
theorem lastOf_append_singleton (find string : List Letter) (x : Letter) (some : find ≠ []) :
    lastOf find (string ++ [x]) =
      if find.length ≤ string.length then (lastOf find string ++ [x]).tail
      else lastOf find string ++ [x] := by
  have long := List.length_pos_of_ne_nil some
  simp only [lastOf, List.length_append, List.length_singleton]
  split
  · rw [show string.length + 1 - find.length = string.length - find.length + 1 by omega,
      ← List.tail_drop, List.drop_append_of_le_length (by omega)]
  · rw [show string.length + 1 - find.length = 0 by omega,
      show string.length - find.length = 0 by omega]
    rfl

omit [DecidableEq Letter] in
theorem lastOf_eq_iff {find string : List Letter} :
    lastOf find string = find ↔ find <:+ string := by
  constructor
  · intro same
    rw [← same]
    exact List.drop_suffix _ _
  · rintro ⟨front, rfl⟩
    rw [lastOf, List.length_append, Nat.add_sub_cancel, List.drop_left]

variable {outside : List Letter → ℤ → ℕ → List Letter} {find replace : List Letter}

/-- What ties the variables to the text that was read. -/
structure Reads (find string : List Letter) (vars : Replacing Letter) : Prop where
  buf : vars.buf = lastOf find string
  start : vars.start = (vars.new.length : ℤ) - vars.buf.length

omit [DecidableEq Letter] in
theorem reads_nil (find : List Letter) : Reads find [] (⟨[], [], 0⟩ : Replacing Letter) :=
  ⟨by simp [lastOf], rfl⟩

theorem Reads.copy {string : List Letter} {vars : Replacing Letter}
    (reads : Reads find string vars) (some : find ≠ []) {x : Letter}
    (notEnd : ¬ find <:+ string ++ [x]) :
    (replaceStep outside find replace string.length vars x).new = vars.new ++ [x] ∧
      Reads find (string ++ [x]) (replaceStep outside find replace string.length vars x) := by
  have last := lastOf_append_singleton find string x some
  rw [← reads.buf] at last
  have other : lastOf find (string ++ [x]) ≠ find := fun same => notEnd (lastOf_eq_iff.mp same)
  rw [last] at other
  simp only [replaceStep, if_neg other]
  refine ⟨trivial, last.symm, ?_⟩
  have start := reads.start
  split
  · simp only [List.length_append, List.length_tail, List.length_singleton]
    push_cast
    omega
  · simp only [List.length_append, List.length_singleton]
    push_cast
    omega

/-- Behind an occurrence as many characters of the copy are taken back as it has. -/
theorem Reads.hit {string : List Letter} {vars : Replacing Letter}
    (reads : Reads find string vars) (some : find ≠ []) {x : Letter}
    (isEnd : find <:+ string ++ [x]) (long : find.length ≤ vars.new.length + 1) :
    (replaceStep outside find replace string.length vars x).new =
        (vars.new ++ [x]).take (vars.new.length + 1 - find.length) ++ replace ∧
      Reads find (string ++ [x]) (replaceStep outside find replace string.length vars x) := by
  have last := lastOf_append_singleton find string x some
  rw [← reads.buf] at last
  have same : lastOf find (string ++ [x]) = find := lastOf_eq_iff.mpr isEnd
  have whole := same
  rw [last] at whole
  -- the window begins where the occurrence does in the copy
  have begins : (if find.length ≤ string.length then vars.start + 1 else vars.start) =
      ((vars.new.length + 1 - find.length : ℕ) : ℤ) := by
    have start := reads.start
    have size := congrArg List.length whole
    split
    · rename_i full
      rw [if_pos full, List.length_tail, List.length_append, List.length_singleton] at size
      omega
    · rename_i short
      rw [if_neg short, List.length_append, List.length_singleton] at size
      omega
  have deleted : deleteRange outside (vars.new ++ [x])
      ((vars.new.length + 1 - find.length : ℕ) : ℤ) find.length =
        (vars.new ++ [x]).take (vars.new.length + 1 - find.length) := by
    rw [deleteRange, if_pos (Int.natCast_nonneg _), Int.toNat_natCast,
      Nat.sub_add_cancel long, List.drop_eq_nil_of_le (by simp), List.append_nil]
  simp only [replaceStep, if_pos whole, begins, deleted]
  refine ⟨trivial, last.symm, ?_⟩
  rw [whole, List.length_append, List.length_take, List.length_append, List.length_singleton]
  push_cast
  omega

/-! ## Without overlaps -/

omit [DecidableEq Letter] in
theorem NoOverlap.of_append {find first second : List Letter} (some : find ≠ [])
    (apart : NoOverlap find (first ++ second)) : NoOverlap find first := by
  -- a pattern has a first character, so that it stands inside the text
  have longer : ∀ position, find <+: first.drop position →
      find <+: (first ++ second).drop position := by
    intro position here
    have inside : position ≤ first.length := by
      by_contra behind
      rw [List.drop_eq_nil_of_le (by omega), List.prefix_nil] at here
      exact some here
    rw [List.drop_append_of_le_length inside]
    exact here.trans (List.prefix_append _ _)
  exact fun earlier later before here there =>
    apart earlier later before (longer earlier here) (longer later there)

omit [DecidableEq Letter] in
theorem NoOverlap.not_suffix {find front begin : List Letter}
    (apart : NoOverlap find (front ++ find)) (inside : begin <+: find) (strict : begin ≠ find)
    (occupied : begin ≠ []) : ¬ find <:+ front ++ begin := by
  intro ends
  obtain ⟨rest, split⟩ := ends
  obtain ⟨behind, whole⟩ := inside
  have shorter : begin.length < find.length := by
    rw [← whole, List.length_append]
    have more : behind ≠ [] := by
      rintro rfl
      exact strict (by rw [← whole, List.append_nil])
    have long := List.length_pos_of_ne_nil more
    omega
  have lengths := congrArg List.length split
  rw [List.length_append, List.length_append] at lengths
  have long := List.length_pos_of_ne_nil occupied
  have here : find <+: (front ++ find).drop rest.length := by
    rw [← whole, ← List.append_assoc, ← split, List.append_assoc, List.drop_left, whole]
    exact List.prefix_append _ _
  have there : find <+: (front ++ find).drop front.length := by
    rw [List.drop_left]
  have far := apart rest.length front.length (by omega) here there
  omega

theorem replaceVars_of_noOverlap (outside : List Letter → ℤ → ℕ → List Letter)
    (replace : List Letter) (some : find ≠ []) {string : List Letter}
    (apart : NoOverlap find string) :
    (replaceVars outside find replace string).new = replaceLeftmost find replace string ∧
      Reads find string (replaceVars outside find replace string) := by
  induction string using List.reverseRecOn with
  | nil => exact ⟨by rw [replaceLeftmost, substitute_nil]; rfl, reads_nil find⟩
  | append_singleton string x inductionHypothesis =>
      obtain ⟨copied, reads⟩ := inductionHypothesis (NoOverlap.of_append some apart)
      rw [replaceVars_append_singleton]
      by_cases isEnd : find <:+ string ++ [x]
      · obtain ⟨front, split⟩ := isEnd
        obtain ⟨begin, last, whole⟩ : ∃ begin last, find = begin ++ [last] :=
          ⟨find.dropLast, find.getLast some, (List.dropLast_append_getLast some).symm⟩
        have parts := split
        rw [whole, ← List.append_assoc] at parts
        obtain ⟨rfl, sameLast⟩ := List.append_inj' parts rfl
        rw [← split] at apart
        -- the copy ends with the part of the occurrence that was read before
        have copiedPart : replaceLeftmost find replace (front ++ begin) =
            replaceLeftmost find replace front ++ begin := by
          refine substitute_append_copied fun part isPart occupied => ?_
          refine NoOverlap.not_suffix apart (isPart.trans ⟨[last], whole.symm⟩) ?_ occupied
          rintro rfl
          have short := isPart.length_le
          rw [whole] at short
          simp at short
        rw [copiedPart] at copied
        have long : find.length ≤
            (replaceVars outside find replace (front ++ begin)).new.length + 1 := by
          rw [copied, whole]
          simp only [List.length_append, List.length_singleton]
          omega
        obtain ⟨ended, readsNext⟩ := reads.hit some ⟨front, split⟩ long
        refine ⟨?_, readsNext⟩
        have kept : (replaceVars outside find replace (front ++ begin)).new.length + 1 -
            find.length = (replaceLeftmost find replace front).length := by
          rw [copied, whole]
          simp only [List.length_append, List.length_singleton]
          omega
        rw [ended, kept, copied, List.append_assoc, List.take_left, ← split, replaceLeftmost,
          substitute_append_pattern some (Nat.zero_le _) apart]
      · obtain ⟨ended, readsNext⟩ :=
          @Reads.copy _ _ outside find replace string _ reads some x isEnd
        refine ⟨?_, readsNext⟩
        rw [ended, copied, replaceLeftmost, substitute_append_singleton (Nat.zero_le _) isEnd]

/-! ## With a longer replacement -/

/-- Every occurrence adds to the copy, one that overlaps another one too. -/
theorem length_replaceVars (outside : List Letter → ℤ → ℕ → List Letter) (some : find ≠ [])
    (longer : find.length ≤ replace.length) (string : List Letter) :
    (replaceVars outside find replace string).new.length +
          occurrences find string * find.length =
        string.length + occurrences find string * replace.length ∧
      Reads find string (replaceVars outside find replace string) := by
  induction string using List.reverseRecOn with
  | nil => exact ⟨by simp [replaceVars, replaceLoop, occurrences], reads_nil find⟩
  | append_singleton string x inductionHypothesis =>
      obtain ⟨lengths, reads⟩ := inductionHypothesis
      have more := Nat.mul_le_mul_left (occurrences find string) longer
      rw [replaceVars_append_singleton, occurrences_append_singleton some]
      by_cases isEnd : find <:+ string ++ [x]
      · have short := isEnd.length_le
        rw [List.length_append, List.length_singleton] at short
        obtain ⟨ended, readsNext⟩ :=
          @Reads.hit _ _ outside find replace string _ reads some x isEnd (by omega)
        refine ⟨?_, readsNext⟩
        rw [ended, if_pos isEnd, Nat.add_mul, Nat.add_mul, List.length_append, List.length_take,
          List.length_append, List.length_append, List.length_singleton]
        omega
      · obtain ⟨ended, readsNext⟩ :=
          @Reads.copy _ _ outside find replace string _ reads some x isEnd
        refine ⟨?_, readsNext⟩
        simp only [ended, if_neg isEnd, List.length_append, List.length_singleton, Nat.add_zero]
        omega

theorem noOverlap_of_leftmost (some : find ≠ []) (longer : find.length < replace.length)
    {string : List Letter}
    (same : findReplaceString outside find replace string = replaceLeftmost find replace string) :
    NoOverlap find string := by
  obtain ⟨lengths, -⟩ := length_replaceVars outside some longer.le string
  have leftmost := @length_substitute_single _ _ find replace some 0 string (Nat.zero_le _)
  rw [show (replaceVars outside find replace string).new = _ from same, replaceLeftmost] at lengths
  -- both texts have the same length, so as many occurrences were replaced as there are
  obtain ⟨extra, difference⟩ : ∃ extra, replace.length = find.length + (extra + 1) :=
    ⟨replace.length - find.length - 1, by omega⟩
  rw [difference] at lengths leftmost
  have counts : occurrences find string * (extra + 1) = replaced find 0 string * (extra + 1) := by
    rw [Nat.mul_add] at lengths leftmost
    omega
  exact (noOverlap_of_replaced some (Nat.eq_of_mul_eq_mul_right (Nat.succ_pos extra) counts).symm).1

/-- The text is scanned as promised, whatever the replacement is, exactly if no two
occurrences overlap; a single replacement longer than the pattern is enough to tell. -/
theorem findReplace_leftmost_iff (outside : List Letter → ℤ → ℕ → List Letter)
    (some : find ≠ []) (string : List Letter) :
    ((∀ replace, findReplaceString outside find replace string =
        replaceLeftmost find replace string) ↔ NoOverlap find string) ∧
      ∀ replace, find.length < replace.length →
        (findReplaceString outside find replace string =
          replaceLeftmost find replace string ↔ NoOverlap find string) := by
  have enough : NoOverlap find string → ∀ replace,
      findReplaceString outside find replace string = replaceLeftmost find replace string :=
    fun apart replace => (replaceVars_of_noOverlap outside replace some apart).1
  have needed : ∀ replace, find.length < replace.length →
      findReplaceString outside find replace string = replaceLeftmost find replace string →
        NoOverlap find string := fun replace longer same => noOverlap_of_leftmost some longer same
  have long := List.length_pos_of_ne_nil some
  refine ⟨⟨fun always => ?_, enough⟩, fun replace longer =>
    ⟨needed replace longer, fun apart => enough apart replace⟩⟩
  exact needed (find ++ find) (by rw [List.length_append]; omega) (always _)

/-- A pattern that overlaps itself, found in a text where it stands once. -/
theorem findReplace_leftmost_iff_aa :
    ((∀ replace, findReplaceString (fun array _ _ => array) "aa".toList replace "baa".toList =
        replaceLeftmost "aa".toList replace "baa".toList) ↔
          NoOverlap "aa".toList "baa".toList) ∧
      ∀ replace : List Char, "aa".toList.length < replace.length →
        (findReplaceString (fun array _ _ => array) "aa".toList replace "baa".toList =
          replaceLeftmost "aa".toList replace "baa".toList ↔
            NoOverlap "aa".toList "baa".toList) :=
  findReplace_leftmost_iff _ (by decide) _

/-- The second occurrence is replaced together with the end of the replaced first one. -/
theorem overlapping_replaced :
    findReplaceString (fun array _ _ => array) "aa".toList "bcd".toList "aaa".toList =
        "bcbcd".toList ∧
      replaceLeftmost "aa".toList "bcd".toList "aaa".toList = "bcda".toList ∧
      "bcbcd".toList ≠ "bcda".toList := by
  decide

end OperationFrontLine.Scripts
