import Mathlib.Data.List.Basic
import Mathlib.Tactic

/-!
# Lists with slots that are emptied in place

A loop over a list may empty the slot it is at and leave the rest of the list
where it is; the empty slots are dropped later.  The entries that the slots
hold have distinct keys.
-/

namespace OperationFrontLine.Library

universe u v

variable {Entry : Type u} {Key : Type v}

def DistinctKeys (key : Entry → Key) (slots : List (Option Entry)) : Prop :=
  slots.Pairwise fun first second => ∀ x ∈ first, ∀ y ∈ second, key x ≠ key y

namespace DistinctKeys

variable {key : Entry → Key} {slots : List (Option Entry)}

theorem nil : DistinctKeys key [] := List.Pairwise.nil

theorem head_ne {slot : Option Entry} (distinct : DistinctKeys key (slot :: slots))
    {first other : Entry} (head : slot = some first) (member : some other ∈ slots) :
    key first ≠ key other :=
  (List.pairwise_cons.mp distinct).1 _ member first head other rfl

theorem tail {slot : Option Entry} (distinct : DistinctKeys key (slot :: slots)) :
    DistinctKeys key slots :=
  (List.pairwise_cons.mp distinct).2

theorem sublist {fewer : List (Option Entry)} (distinct : DistinctKeys key slots)
    (sub : fewer.Sublist slots) : DistinctKeys key fewer :=
  List.Pairwise.sublist sub distinct

theorem append_single (distinct : DistinctKeys key slots) {entry : Entry}
    (fresh : ∀ other, some other ∈ slots → key other ≠ key entry) :
    DistinctKeys key (slots ++ [some entry]) := by
  refine List.pairwise_append.mpr ⟨distinct, List.pairwise_singleton _ _, ?_⟩
  intro slot member last isLast x hasX y hasY
  rw [List.mem_singleton] at isLast
  subst isLast
  cases Option.mem_some_iff.mp hasY
  exact fresh x (Option.mem_def.mp hasX ▸ member)

theorem index_eq (distinct : DistinctKeys key slots) {first second : ℕ} {entry other : Entry}
    (isFirst : slots[first]? = some (some entry)) (isSecond : slots[second]? = some (some other))
    (same : key entry = key other) : first = second := by
  induction slots generalizing first second with
  | nil => simp at isFirst
  | cons slot rest inductionHypothesis =>
      cases first with
      | zero =>
          cases second with
          | zero => rfl
          | succ second =>
              rw [List.getElem?_cons_zero, Option.some.injEq] at isFirst
              exact absurd same (distinct.head_ne isFirst (List.mem_of_getElem? isSecond))
      | succ first =>
          cases second with
          | zero =>
              rw [List.getElem?_cons_zero, Option.some.injEq] at isSecond
              exact absurd same.symm (distinct.head_ne isSecond (List.mem_of_getElem? isFirst))
          | succ second =>
              exact congrArg (· + 1) (inductionHypothesis distinct.tail isFirst isSecond)

theorem mem_set (distinct : DistinctKeys key slots) {index : ℕ} {entry : Entry}
    (here : slots[index]? = some (some entry)) {other : Entry} :
    some other ∈ slots.set index none ↔ some other ∈ slots ∧ key other ≠ key entry := by
  induction slots generalizing index with
  | nil => simp at here
  | cons slot rest inductionHypothesis =>
      cases index with
      | zero =>
          rw [List.getElem?_cons_zero, Option.some.injEq] at here
          subst here
          simp only [List.set_cons_zero, List.mem_cons, Option.some.injEq, reduceCtorEq,
            false_or]
          constructor
          · intro member
            exact ⟨Or.inr member, (distinct.head_ne rfl member).symm⟩
          · rintro ⟨rfl | member, different⟩
            · exact absurd rfl different
            · exact member
      | succ index =>
          rw [List.getElem?_cons_succ] at here
          rw [List.set_cons_succ, List.mem_cons, List.mem_cons,
            inductionHypothesis distinct.tail here]
          constructor
          · rintro (head | ⟨member, different⟩)
            · exact ⟨Or.inl head, distinct.head_ne head.symm (List.mem_of_getElem? here)⟩
            · exact ⟨Or.inr member, different⟩
          · rintro ⟨head | member, different⟩
            · exact Or.inl head
            · exact Or.inr ⟨member, different⟩

theorem set (distinct : DistinctKeys key slots) (index : ℕ) :
    DistinctKeys key (slots.set index none) := by
  induction slots generalizing index with
  | nil => exact nil
  | cons slot rest inductionHypothesis =>
      cases index with
      | zero =>
          rw [List.set_cons_zero]
          refine List.pairwise_cons.mpr ⟨?_, distinct.tail⟩
          intro other _ x hasX
          exact absurd hasX (Option.not_mem_none x)
      | succ index =>
          rw [List.set_cons_succ]
          refine List.pairwise_cons.mpr ⟨?_, inductionHypothesis distinct.tail index⟩
          intro other member x hasX y hasY
          rw [Option.mem_def] at hasX hasY
          subst hasY
          rcases List.mem_or_eq_of_mem_set member with old | new
          · exact distinct.head_ne hasX old
          · cases new

/-- Deleting the slot of an entry removes the entry with its key and no other. -/
theorem mem_erase [DecidableEq Entry] (distinct : DistinctKeys key slots) {entry other : Entry}
    (member : some entry ∈ slots) :
    some other ∈ slots.erase (some entry) ↔ some other ∈ slots ∧ key other ≠ key entry := by
  induction slots with
  | nil => exact absurd member List.not_mem_nil
  | cons slot rest inductionHypothesis =>
      by_cases head : slot = some entry
      · subst head
        rw [List.erase_cons_head, List.mem_cons, Option.some.injEq]
        constructor
        · intro inRest
          exact ⟨Or.inr inRest, (distinct.head_ne rfl inRest).symm⟩
        · rintro ⟨rfl | inRest, different⟩
          · exact absurd rfl different
          · exact inRest
      · have inRest : some entry ∈ rest :=
          (List.mem_cons.mp member).resolve_left fun same => head same.symm
        rw [List.erase_cons_tail (by simpa using head), List.mem_cons, List.mem_cons,
          inductionHypothesis distinct.tail inRest]
        constructor
        · rintro (first | ⟨later, different⟩)
          · exact ⟨Or.inl first, distinct.head_ne first.symm inRest⟩
          · exact ⟨Or.inr later, different⟩
        · rintro ⟨first | later, different⟩
          · exact Or.inl first
          · exact Or.inr ⟨later, different⟩

end DistinctKeys

end OperationFrontLine.Library
