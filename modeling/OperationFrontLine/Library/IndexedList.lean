import OperationFrontLine.Library.Script

/-!
# A list with stored indices

Beside a list of entries with keys, an index may be stored for a key.  Pushing
an entry stores its place; deleting the entry at a stored place shifts the
entries behind it.  The lemmas say exactly when the stored indices still point
to entries of their own key.
-/

namespace OperationFrontLine.Library

universe u v

variable {Key : Type u} {Value : Type v}

/-- Every stored index is the place of an entry with its key. -/
def Indexes (entries : List (Key × Value)) (index : Key → Option ℤ) : Prop :=
  ∀ key place, index key = some place →
    ∃ position : ℕ, place = position ∧ ∃ value, entries[position]? = some (key, value)

/-- Behind the place stored for a key there is no other entry with that key. -/
def IndexesLast (entries : List (Key × Value)) (index : Key → Option ℤ) : Prop :=
  ∀ key (place : ℤ), index key = some place →
    ∀ (later : ℕ) value, entries[later]? = some (key, value) → (later : ℤ) ≤ place

section Weaken

variable {entries : List (Key × Value)} {index fewer : Key → Option ℤ}

theorem Indexes.anti (indexes : Indexes entries index)
    (sub : ∀ key place, fewer key = some place → index key = some place) :
    Indexes entries fewer :=
  fun key place stored => indexes key place (sub key place stored)

theorem IndexesLast.anti (last : IndexesLast entries index)
    (sub : ∀ key place, fewer key = some place → index key = some place) :
    IndexesLast entries fewer :=
  fun key place stored => last key place (sub key place stored)

end Weaken

section Push

variable [DecidableEq Key] [DecidableEq Value] {entries : List (Key × Value)}
  {index : Key → Option ℤ} {key : Key} {value : Value}

/-- After a push the indices are right exactly when the entry was new: for an old
one -1 is stored. -/
theorem indexes_push_iff (indexes : Indexes entries index) :
    Indexes (pushBackUnique entries (key, value))
        (Function.update index key (some (pushBackUniqueIndex entries (key, value)))) ↔
      (key, value) ∉ entries := by
  constructor
  · intro pushed already
    obtain ⟨position, isPosition, -⟩ := pushed key (-1) (by
      rw [Function.update_self, pushBackUniqueIndex, if_pos already])
    omega
  · intro fresh other place stored
    rw [pushBackUnique, if_neg fresh]
    rw [pushBackUniqueIndex, if_neg fresh, Function.update_apply] at stored
    split_ifs at stored with same
    · cases stored
      exact ⟨entries.length, rfl, value, by rw [same]; exact List.getElem?_concat_length⟩
    · obtain ⟨position, isPosition, stays, found⟩ := indexes other place stored
      exact ⟨position, isPosition, stays,
        (List.getElem?_append_left (List.getElem?_eq_some_iff.mp found).1).trans found⟩

theorem IndexesLast.push (last : IndexesLast entries index) (fresh : (key, value) ∉ entries) :
    IndexesLast (pushBackUnique entries (key, value))
      (Function.update index key (some (pushBackUniqueIndex entries (key, value)))) := by
  intro other place stored later found held
  rw [pushBackUnique, if_neg fresh] at held
  rw [pushBackUniqueIndex, if_neg fresh, Function.update_apply] at stored
  have inside := (List.getElem?_eq_some_iff.mp held).1
  rw [List.length_append, List.length_singleton] at inside
  split_ifs at stored with same
  · cases stored
    omega
  · rcases Nat.lt_or_ge later entries.length with old | new
    · rw [List.getElem?_append_left old] at held
      exact last other place stored later found held
    · have isNew : later = entries.length := by omega
      rw [isNew, List.getElem?_concat_length, Option.some.injEq, Prod.mk.injEq] at held
      exact absurd held.1.symm same

end Push

section Delete

variable [DecidableEq Key] {entries : List (Key × Value)} {index : Key → Option ℤ}
  {key : Key} {position : ℕ} {value : Value}

/-- After the entry at the place stored for a key is deleted, the indices are right
exactly when none of them was behind it. -/
theorem indexes_delete_iff (indexes : Indexes entries index) (last : IndexesLast entries index)
    (here : index key = some (position : ℤ)) :
    Indexes (entries.eraseIdx position) (Function.update index key none) ↔
      ∀ other place, other ≠ key → index other = some place → place ≤ position := by
  constructor
  · intro deleted other place different stored
    obtain ⟨there, isThere, found, held⟩ := deleted other place (by
      rw [Function.update_of_ne different, stored])
    by_contra behind
    rw [List.getElem?_eraseIdx_of_ge (by omega)] at held
    have bound := last other place stored (there + 1) found held
    omega
  · intro before other place stored
    rw [Function.update_apply] at stored
    split_ifs at stored with same
    obtain ⟨there, isThere, found, held⟩ := indexes other place stored
    have bound := before other place same stored
    refine ⟨there, isThere, found, ?_⟩
    have different : there ≠ position := by
      rintro rfl
      obtain ⟨own, isOwn, value, ownHeld⟩ := indexes key there here
      cases Int.ofNat.inj isOwn
      rw [held, Option.some.injEq, Prod.mk.injEq] at ownHeld
      exact same ownHeld.1
    rw [List.getElem?_eraseIdx_of_lt (by omega), held]

theorem IndexesLast.delete (last : IndexesLast entries index)
    (before : ∀ other place, other ≠ key → index other = some place → place ≤ position) :
    IndexesLast (entries.eraseIdx position) (Function.update index key none) := by
  intro other place stored later found held
  rw [Function.update_apply] at stored
  split_ifs at stored with same
  have bound := before other place same stored
  rcases Nat.lt_or_ge later position with inFront | behind
  · rw [List.getElem?_eraseIdx_of_lt inFront] at held
    exact last other place stored later found held
  · rw [List.getElem?_eraseIdx_of_ge behind] at held
    have shifted := last other place stored (later + 1) found held
    omega

theorem filter_eraseIdx (held : entries[position]? = some (key, value)) :
    (entries.eraseIdx position).filter (fun entry => entry.1 ≠ key) =
      entries.filter fun entry => entry.1 ≠ key := by
  induction entries generalizing position with
  | nil => simp at held
  | cons entry rest inductionHypothesis =>
      cases position with
      | zero =>
          rw [List.getElem?_cons_zero, Option.some.injEq] at held
          simp [held]
      | succ position =>
          rw [List.getElem?_cons_succ] at held
          rw [List.eraseIdx_cons_succ, List.filter_cons, List.filter_cons,
            inductionHypothesis held]

/-- What is left are the entries of the other keys exactly when the key had no
second entry. -/
theorem eraseIdx_eq_filter_iff (held : entries[position]? = some (key, value)) :
    entries.eraseIdx position = (entries.filter fun entry => entry.1 ≠ key) ↔
      ∀ other value, entries[other]? = some (key, value) → other = position := by
  rw [← filter_eraseIdx held, eq_comm, List.filter_eq_self]
  constructor
  · intro others other value found
    by_contra different
    have stays : (key, value) ∈ entries.eraseIdx position :=
      List.mem_eraseIdx_iff_getElem?.mpr ⟨other, different, found⟩
    simpa using others _ stays
  · rintro only ⟨other, value⟩ member
    obtain ⟨place, different, found⟩ := List.mem_eraseIdx_iff_getElem?.mp member
    rw [decide_eq_true_eq]
    rintro rfl
    exact different (only place value found)

end Delete

end OperationFrontLine.Library
