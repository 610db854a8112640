import OperationFrontLine.Library.Numeral
import OperationFrontLine.Scripts.FindReplace

/-!
# The keys in the scripts

`PCS_HardKeyCompileList` writes the names of the two key variables over their placeholders in
every script, in two passes.
-/

namespace OperationFrontLine.Scripts

open OperationFrontLine.Library

def charlist : Text := "abcdefghijklmnopqrstuvwxyz0123456789".toList

def mapKeyToVarName (key : List ℕ) : Text :=
  key.map fun x => charlist.getD (x % 36) 'a'

/-- What a key is mapped to: not empty and of these characters only. -/
structure IsVarName (name : Text) : Prop where
  some : name ≠ []
  chars : ∀ char ∈ name, char ∈ charlist

theorem isVarName_mapKeyToVarName {key : List ℕ} (some : key ≠ []) :
    IsVarName (mapKeyToVarName key) := by
  refine ⟨by simpa [mapKeyToVarName] using some, fun char member => ?_⟩
  obtain ⟨x, -, rfl⟩ := List.mem_map.mp member
  have inside : x % 36 < charlist.length := Nat.mod_lt x (by decide)
  have found : charlist.getD (x % 36) 'a' = charlist[x % 36] := by
    rw [List.getD_eq_getElem?_getD, List.getElem?_eq_getElem inside, Option.getD_some]
  rw [found]
  exact List.getElem_mem inside

def pipeKeyA : Text := "PIPE_KEY_A".toList

def pipeKeyB : Text := "PIPE_KEY_B".toList

/-- `format ["PCS_KA_%1", _this select 0]` -/
def keyA (name : Text) : Text := "PCS_KA_".toList ++ name

/-- `format ["PCS_KB_%1", _this select 1]` -/
def keyB (name : Text) : Text := "PCS_KB_".toList ++ name

/-- The text of a script as it is compiled by `PCS_HardKeyCompileList`. -/
def hardKeyScript (outside : Text → ℤ → ℕ → Text) (nameA nameB script : Text) : Text :=
  findReplaceString outside pipeKeyB (keyB nameB)
    (findReplaceString outside pipeKeyA (keyA nameA) script)

def keyRules (nameA nameB : Text) : List (Rule Char) :=
  [(pipeKeyA, keyA nameA), (pipeKeyB, keyB nameB)]

theorem mem_keyRules {nameA nameB : Text} {rule : Rule Char} :
    rule ∈ keyRules nameA nameB ↔
      rule = (pipeKeyA, keyA nameA) ∨ rule = (pipeKeyB, keyB nameB) := List.mem_pair

theorem placeholder_ne_nil : ∀ pattern ∈ [pipeKeyA, pipeKeyB], pattern ≠ [] := by decide

/-! ## Placeholders and keys do not meet -/

def fixedTexts : List Text :=
  [pipeKeyA, pipeKeyB, "PCS_KA_".toList, "PCS_KB_".toList]

/-- Behind their first letter the placeholders meet neither a placeholder nor a key. -/
theorem placeholder_apart :
    ∀ pattern ∈ [pipeKeyA, pipeKeyB], ∀ ending ∈ pattern.tail.tails, ending ≠ [] →
      ∀ fixed ∈ fixedTexts, Apart ending fixed := by
  decide

theorem keyPrefix_apart :
    ∀ start ∈ ["PCS_KA_".toList, "PCS_KB_".toList], ∀ ending ∈ start.tails, ending ≠ [] →
      ∀ pattern ∈ [pipeKeyA, pipeKeyB], Apart pattern ending := by
  decide

theorem name_apart {name ending : Text} (isName : IsVarName name) (ends : ending <:+ name)
    (some : ending ≠ []) : Apart ending pipeKeyA ∧ Apart ending pipeKeyB := by
  obtain ⟨char, rest, rfl⟩ := List.exists_cons_of_ne_nil some
  have member := isName.chars char (ends.subset (by simp))
  have different : char ≠ 'P' := by
    rintro rfl
    revert member
    decide
  exact ⟨apart_of_head_ne different, apart_of_head_ne different⟩

/-- An end of a joined text is an end of its second part, or has an end of the first one. -/
theorem suffix_append_cases {ending start name : Text} (ends : ending <:+ start ++ name) :
    ending <:+ name ∨ ∃ part, part ≠ [] ∧ part <:+ start ∧ ending = part ++ name := by
  rcases List.suffix_or_suffix_of_suffix ends (List.suffix_append start name) with inName | longer
  · exact .inl inName
  · obtain ⟨part, rfl⟩ := longer
    by_cases none : part = []
    · exact .inl (by simp [none])
    · obtain ⟨before, whole⟩ := ends
      rw [← List.append_assoc] at whole
      exact .inr ⟨part, none, ⟨before, List.append_cancel_right whole⟩, rfl⟩

theorem key_apart {start name ending : Text} (isName : IsVarName name)
    (isStart : start ∈ ["PCS_KA_".toList, "PCS_KB_".toList]) (ends : ending <:+ start ++ name)
    (some : ending ≠ []) : Apart ending pipeKeyA ∧ Apart ending pipeKeyB := by
  rcases suffix_append_cases ends with inName | ⟨part, occupied, inStart, rfl⟩
  · exact name_apart isName inName some
  · have apart := keyPrefix_apart start isStart part ((List.mem_tails part start).mpr inStart)
      occupied
    exact ⟨((apart pipeKeyA (by simp)).append_right name).symm,
      ((apart pipeKeyB (by simp)).append_right name).symm⟩

theorem separate_keyRules {nameA nameB : Text} (isA : IsVarName nameA) (isB : IsVarName nameB) :
    Separate (keyRules nameA nameB) where
  pattern := by
    intro rule member
    rcases mem_keyRules.mp member with rfl | rfl
    · exact placeholder_ne_nil pipeKeyA (by simp)
    · exact placeholder_ne_nil pipeKeyB (by simp)
  clear := by
    intro rule member ending ends some other isOther
    have isPattern : rule.1 ∈ [pipeKeyA, pipeKeyB] := by
      rcases mem_keyRules.mp member with rfl | rfl <;> simp
    have apart := placeholder_apart rule.1 isPattern ending
      ((List.mem_tails ending rule.1.tail).mpr ends) some
    rcases mem_keyRules.mp isOther with rfl | rfl
    · exact ⟨apart pipeKeyA (by simp [fixedTexts]),
        (apart "PCS_KA_".toList (by simp [fixedTexts])).append_right nameA⟩
    · exact ⟨apart pipeKeyB (by simp [fixedTexts]),
        (apart "PCS_KB_".toList (by simp [fixedTexts])).append_right nameB⟩
  inserted := by
    intro rule member ending ends some other isOther
    have apart : Apart ending pipeKeyA ∧ Apart ending pipeKeyB := by
      rcases mem_keyRules.mp member with rfl | rfl
      · exact key_apart isA (by simp) ends some
      · exact key_apart isB (by simp) ends some
    rcases mem_keyRules.mp isOther with rfl | rfl
    · exact apart.1
    · exact apart.2

/-- The placeholders do not overlap themselves, so that the code replaces them as promised. -/
theorem findReplace_placeholder {pattern : Text} (isPattern : pattern ∈ [pipeKeyA, pipeKeyB])
    (outside : Text → ℤ → ℕ → Text) (replace script : Text) :
    findReplaceString outside pattern replace script =
      replaceLeftmost pattern replace script := by
  have occupied := placeholder_ne_nil pattern isPattern
  have isFixed : pattern ∈ fixedTexts := by
    rcases List.mem_pair.mp isPattern with rfl | rfl <;> simp [fixedTexts]
  have apart : NoOverlap pattern script := by
    apply noOverlap_of_apart
    intro ending ends some
    exact placeholder_apart pattern isPattern ending
      ((List.mem_tails ending pattern.tail).mpr ends) some pattern isFixed
  exact (replaceVars_of_noOverlap outside replace occupied apart).1

/-- Both placeholders are replaced at once, and none is left. -/
theorem keys_substituted {nameA nameB : Text} (isA : IsVarName nameA) (isB : IsVarName nameB)
    (outside : Text → ℤ → ℕ → Text) (script : Text) :
    hardKeyScript outside nameA nameB script = substitute (keyRules nameA nameB) 0 script ∧
      ¬ pipeKeyA <:+: hardKeyScript outside nameA nameB script ∧
      ¬ pipeKeyB <:+: hardKeyScript outside nameA nameB script := by
  have separate := separate_keyRules isA isB
  have same : hardKeyScript outside nameA nameB script =
      substitute (keyRules nameA nameB) 0 script := by
    rw [hardKeyScript, findReplace_placeholder (by simp), findReplace_placeholder (by simp)]
    exact substitute_substitute separate script
  rw [same]
  exact ⟨rfl, separate.not_infix (mem_keyRules.mpr (.inl rfl)) 0 script,
    separate.not_infix (mem_keyRules.mpr (.inr rfl)) 0 script⟩

/-- With the keys of two random numbers each. -/
theorem keys_substituted_random :
    hardKeyScript (fun array _ _ => array) (mapKeyToVarName [3, 40]) (mapKeyToVarName [255, 0])
          "[PIPE_KEY_A, PIPE_KEY_B]".toList =
        substitute (keyRules (mapKeyToVarName [3, 40]) (mapKeyToVarName [255, 0])) 0
          "[PIPE_KEY_A, PIPE_KEY_B]".toList ∧
      ¬ pipeKeyA <:+: hardKeyScript (fun array _ _ => array) (mapKeyToVarName [3, 40])
        (mapKeyToVarName [255, 0]) "[PIPE_KEY_A, PIPE_KEY_B]".toList ∧
      ¬ pipeKeyB <:+: hardKeyScript (fun array _ _ => array) (mapKeyToVarName [3, 40])
        (mapKeyToVarName [255, 0]) "[PIPE_KEY_A, PIPE_KEY_B]".toList :=
  keys_substituted (isVarName_mapKeyToVarName (by simp)) (isVarName_mapKeyToVarName (by simp)) _ _

end OperationFrontLine.Scripts
