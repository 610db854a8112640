import Mathlib.Data.List.Basic
import Mathlib.Logic.Function.Basic

/-!
# Linked lists on a heap

A heap is a partial function from addresses to nodes, and each node points to the next one; a
null pointer is `none`.
-/

namespace OperationFrontLine.Library

universe u v

variable {Address : Type u} {Node : Type v} {next : Node → Option Address}

/-- From a pointer on, the nodes at these addresses follow each other up to a null pointer. -/
def Linked (next : Node → Option Address) (heap : Address → Option Node) :
    Option Address → List Address → Prop
  | pointer, [] => pointer = none
  | pointer, address :: rest =>
      pointer = some address ∧
        ∃ node, heap address = some node ∧ Linked next heap (next node) rest

variable {heap others : Address → Option Node} {pointer : Option Address}

theorem Linked.head? {addresses : List Address} (linked : Linked next heap pointer addresses) :
    pointer = addresses.head? := by
  cases addresses with
  | nil => exact linked
  | cons address rest => exact linked.1

/-- The nodes before this one stay where they are, and this one now leads to another list. -/
theorem Linked.relink {front rest later : List Address} {address : Address} {node : Node}
    (linked : Linked next heap pointer (front ++ address :: rest))
    (same : ∀ other ∈ front, (others other).map next = (heap other).map next)
    (held : others address = some node) (leads : Linked next others (next node) later) :
    Linked next others pointer (front ++ address :: later) := by
  induction front generalizing pointer with
  | nil => exact ⟨linked.1, node, held, leads⟩
  | cons other front inductionHypothesis =>
      obtain ⟨points, first, isFirst, linkedRest⟩ := linked
      have sameFirst := same other List.mem_cons_self
      rw [isFirst, Option.map_some] at sameFirst
      obtain ⟨moved, isMoved, sameNext⟩ := Option.map_eq_some_iff.mp sameFirst
      refine ⟨points, moved, isMoved, ?_⟩
      rw [sameNext]
      exact inductionHypothesis linkedRest fun member isMember =>
        same member (List.mem_cons_of_mem other isMember)

theorem Linked.congr {addresses : List Address} (linked : Linked next heap pointer addresses)
    (same : ∀ other ∈ addresses, (others other).map next = (heap other).map next) :
    Linked next others pointer addresses := by
  induction addresses generalizing pointer with
  | nil => exact linked
  | cons other rest inductionHypothesis =>
      obtain ⟨points, first, isFirst, linkedRest⟩ := linked
      have sameFirst := same other List.mem_cons_self
      rw [isFirst, Option.map_some] at sameFirst
      obtain ⟨moved, isMoved, sameNext⟩ := Option.map_eq_some_iff.mp sameFirst
      refine ⟨points, moved, isMoved, ?_⟩
      rw [sameNext]
      exact inductionHypothesis linkedRest fun member isMember =>
        same member (List.mem_cons_of_mem other isMember)

theorem Linked.drop {front rest : List Address}
    (linked : Linked next heap pointer (front ++ rest)) : Linked next heap rest.head? rest := by
  induction front generalizing pointer with
  | nil =>
      rw [List.nil_append] at linked
      rwa [linked.head?] at linked
  | cons other front inductionHypothesis =>
      obtain ⟨-, first, -, linkedRest⟩ := linked
      exact inductionHypothesis linkedRest

theorem Linked.held {front rest : List Address} {address : Address}
    (linked : Linked next heap pointer (front ++ address :: rest)) :
    ∃ node, heap address = some node ∧ next node = rest.head? := by
  obtain ⟨-, node, held, linkedRest⟩ := linked.drop
  exact ⟨node, held, linkedRest.head?⟩

/-! ## Walks -/

/-- Walk to the first node that passes a test.  The walk is `some none` at the end of the list,
and `none` when it follows a pointer to no node or takes more than this number of steps. -/
def seek (next : Node → Option Address) (heap : Address → Option Node) (test : Node → Bool) :
    ℕ → Option Address → Option (Option Address)
  | 0, _ => none
  | _ + 1, none => some none
  | steps + 1, some address =>
      (heap address).bind fun node =>
        if test node then some (some address) else seek next heap test steps (next node)

theorem Linked.seek_eq {addresses : List Address} (linked : Linked next heap pointer addresses)
    (test : Node → Bool) {steps : ℕ} (enough : addresses.length < steps) :
    seek next heap test steps pointer =
      some (addresses.find? fun address => (heap address).any test) := by
  induction addresses generalizing pointer steps with
  | nil =>
      obtain ⟨more, rfl⟩ : ∃ more, steps = more + 1 := ⟨steps - 1, by omega⟩
      rw [show pointer = none from linked]
      rfl
  | cons address rest inductionHypothesis =>
      obtain ⟨more, rfl⟩ : ∃ more, steps = more + 1 := ⟨steps - 1, by omega⟩
      obtain ⟨rfl, node, held, linkedRest⟩ := linked
      rw [seek, held, Option.bind_some, List.find?_cons, held, Option.any_some]
      cases passes : test node with
      | true => rfl
      | false =>
          rw [if_neg Bool.false_ne_true]
          rw [List.length_cons] at enough
          exact inductionHypothesis linkedRest (by omega)

/-- Walk with two pointers, of which the first follows the second, until the second is at an
address; the result is the first pointer. -/
def follow [DecidableEq Address] (next : Node → Option Address) (heap : Address → Option Node)
    (target : Address) : ℕ → Option Address → Option Address → Option (Option Address)
  | 0, _, _ => none
  | steps + 1, behind, current =>
      if current = some target then some behind
      else
        (current.bind heap).bind fun currentNode =>
          (behind.bind heap).bind fun behindNode =>
            follow next heap target steps (next behindNode) (next currentNode)

theorem Linked.follow_eq [DecidableEq Address] {front middle rest : List Address}
    {address target : Address}
    (linked : Linked next heap pointer (front ++ address :: (middle ++ target :: rest)))
    (first : target ∉ middle) {steps : ℕ} (enough : middle.length < steps) :
    follow next heap target steps (some address) (middle ++ target :: rest).head? =
      some (address :: middle).getLast? := by
  induction middle generalizing front address steps with
  | nil =>
      obtain ⟨more, rfl⟩ : ∃ more, steps = more + 1 := ⟨steps - 1, by omega⟩
      rw [follow, if_pos (by simp)]
      simp
  | cons other middle inductionHypothesis =>
      obtain ⟨more, rfl⟩ : ∃ more, steps = more + 1 := ⟨steps - 1, by omega⟩
      obtain ⟨node, held, leads⟩ := linked.held
      have moved : Linked next heap pointer
          ((front ++ [address]) ++ other :: (middle ++ target :: rest)) := by simpa using linked
      obtain ⟨otherNode, otherHeld, otherLeads⟩ := moved.held
      have different : ¬some other = some target := fun same =>
        first (by rw [Option.some.inj same]; exact List.mem_cons_self)
      rw [List.cons_append, List.head?_cons] at leads ⊢
      rw [follow, if_neg different, Option.bind_some, otherHeld, Option.bind_some,
        Option.bind_some, held, Option.bind_some, leads, otherLeads]
      have enoughLeft : middle.length < more := by
        rw [List.length_cons] at enough
        omega
      rw [inductionHypothesis moved (fun isMember => first (List.mem_cons_of_mem other isMember))
        enoughLeft, List.getLast?_cons_cons]

end OperationFrontLine.Library
