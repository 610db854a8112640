import Mathlib.Data.Set.Card
import Mathlib.Tactic

/-!
# Counting over the keys of a function

The keys of a partial function whose value has a property, and sums over a list of keys,
with how they change when one key gets another value.  Both sides of an update are stated
as sums, so that an account of several updates is linear arithmetic.
-/

namespace OperationFrontLine.Library

universe u v w

variable {Key : Type u} {Value : Type v}

def keysWith (holds : Value → Prop) (entries : Key → Option Value) : Set Key :=
  {key | ∃ value ∈ entries key, holds value}

variable {holds : Value → Prop}

@[simp]
theorem mem_keysWith {entries : Key → Option Value} {key : Key} :
    key ∈ keysWith holds entries ↔ ∃ value ∈ entries key, holds value := Iff.rfl

@[simp]
theorem keysWith_none : keysWith holds (fun _ : Key => (none : Option Value)) = ∅ := by
  ext key
  simp

theorem sum_map_eraseIdx {Content : Type w} (amount : Content → ℕ) {contents : List Content}
    {index : ℕ} {content : Content} (found : contents[index]? = some content) :
    ((contents.eraseIdx index).map amount).sum + amount content = (contents.map amount).sum := by
  induction contents generalizing index with
  | nil => cases found
  | cons first rest inductionHypothesis =>
      cases index with
      | zero =>
          obtain rfl : first = content := Option.some.inj found
          simp only [List.eraseIdx_cons_zero, List.map_cons, List.sum_cons]
          omega
      | succ index =>
          have inRest : rest[index]? = some content := found
          have kept := inductionHypothesis inRest
          simp only [List.eraseIdx_cons_succ, List.map_cons, List.sum_cons]
          omega

variable [DecidableEq Key]

theorem keysWith_update (entries : Key → Option Value) (key : Key) (value : Option Value) :
    keysWith holds (Function.update entries key value) =
      {other | other = key ∧ ∃ given ∈ value, holds given} ∪ (keysWith holds entries \ {key}) := by
  ext other
  by_cases same : other = key
  · subst same
    simp
  · simp [same]

theorem finite_keysWith_update {entries : Key → Option Value}
    (finite : (keysWith holds entries).Finite) (key : Key) (value : Option Value) :
    (keysWith holds (Function.update entries key value)).Finite := by
  rw [keysWith_update]
  exact ((Set.finite_singleton key).subset fun other member => member.1).union finite.sdiff

theorem ncard_keysWith_update [DecidablePred holds] {entries : Key → Option Value}
    (finite : (keysWith holds entries).Finite) (key : Key) (value : Option Value) :
    (keysWith holds (Function.update entries key value)).ncard +
        (if ∃ old ∈ entries key, holds old then 1 else 0) =
      (keysWith holds entries).ncard + (if ∃ given ∈ value, holds given then 1 else 0) := by
  have rest : (keysWith holds entries).ncard =
      (keysWith holds entries \ {key}).ncard +
        (if ∃ old ∈ entries key, holds old then 1 else 0) := by
    split
    case isTrue member =>
      exact (Set.ncard_sdiff_singleton_add_one (mem_keysWith.mpr member) finite).symm
    case isFalse missing =>
      rw [Set.sdiff_singleton_eq_self (by simpa using missing), Nat.add_zero]
  have updated : (keysWith holds (Function.update entries key value)).ncard =
      (keysWith holds entries \ {key}).ncard +
        (if ∃ given ∈ value, holds given then 1 else 0) := by
    rw [keysWith_update]
    split
    case isTrue given =>
      have single : {other | other = key ∧ ∃ given ∈ value, holds given} = {key} := by
        ext other
        exact and_iff_left given
      rw [single, Set.singleton_union, Set.ncard_insert_of_notMem (by simp) finite.sdiff]
    case isFalse missing =>
      have empty : {other | other = key ∧ ∃ given ∈ value, holds given} = ∅ := by
        ext other
        exact iff_of_false (fun member => missing member.2) id
      rw [empty, Set.empty_union, Nat.add_zero]
  omega

/-- An update counts what the new value amounts to and no longer what the old one did. -/
theorem sum_map_update (amount : Key → Value → ℕ) (values : Key → Value) {keys : List Key}
    (nodup : keys.Nodup) {key : Key} (member : key ∈ keys) (value : Value) :
    (keys.map fun other => amount other (Function.update values key value other)).sum +
        amount key (values key) =
      (keys.map fun other => amount other (values other)).sum + amount key value := by
  induction keys with
  | nil => cases member
  | cons first rest inductionHypothesis =>
      rw [List.nodup_cons] at nodup
      rw [List.map_cons, List.map_cons, List.sum_cons, List.sum_cons]
      by_cases same : key = first
      · subst same
        have others :
            (rest.map fun other => amount other (Function.update values key value other)) =
              rest.map fun other => amount other (values other) := by
          refine List.map_congr_left fun other inside => ?_
          have different : other ≠ key := fun isKey => nodup.1 (isKey ▸ inside)
          rw [Function.update_of_ne different]
        rw [others, Function.update_self]
        omega
      · have inRest : key ∈ rest := (List.mem_cons.mp member).resolve_left same
        have kept := inductionHypothesis nodup.2 inRest
        rw [Function.update_of_ne (Ne.symm same)]
        omega

end OperationFrontLine.Library
