import Mathlib.Tactic

/-!
# Replicas filled by blocks

A source is copied to a replica over a channel that keeps the order: a block holds entries
from a start on and is stored only where the copy ends; a single entry is stored only where
the copy already has one.  Each message remembers the source as it was when it was sent.
If every message is taken from the source of its time, the copy is a prefix of the source
remembered by the message handled last, entry by entry the source remembered by the last
message about it, and, behind all messages, a prefix of the source itself.
-/

namespace OperationFrontLine.Library

universe u

variable {Value : Type u}

inductive Update (Value : Type u) where
  /-- entries from `start` on -/
  | block (start : ℕ) (values : List Value)
  /-- the entry at `index` -/
  | entry (index : ℕ) (value : Value)

namespace Update

def apply (copy : List Value) : Update Value → List Value
  | block start values => if start = copy.length then copy ++ values else copy
  | entry index value => copy.set index value

def Concerns (index : ℕ) : Update Value → Prop
  | block start values => start ≤ index ∧ index < start + values.length
  | entry place _ => index = place

def Quotes (source : List Value) : Update Value → Prop
  | block start values => values <+: source.drop start
  | entry index value => source[index]? = some value

theorem apply_block_of_eq (copy values : List Value) :
    (block copy.length values).apply copy = copy ++ values := by
  simp [apply]

theorem apply_block_of_ne {copy values : List Value} {start : ℕ} (gap : start ≠ copy.length) :
    (block start values).apply copy = copy := by
  simp [apply, gap]

@[simp]
theorem length_apply_entry (copy : List Value) (index : ℕ) (value : Value) :
    ((entry index value).apply copy).length = copy.length := by
  simp [apply]

theorem length_le_apply (update : Update Value) (copy : List Value) :
    copy.length ≤ (update.apply copy).length := by
  cases update with
  | block start values =>
      by_cases here : start = copy.length
      · subst here
        simp [apply_block_of_eq]
      · rw [apply_block_of_ne here]
  | entry index value => rw [length_apply_entry]

theorem apply_getElem?_of_not_concerns {update : Update Value} {copy : List Value} {index : ℕ}
    (foreign : ¬update.Concerns index) : (update.apply copy)[index]? = copy[index]? := by
  cases update with
  | block start values =>
      by_cases here : start = copy.length
      · subst here
        rw [apply_block_of_eq]
        rcases Nat.lt_or_ge index copy.length with inside | behind
        · exact List.getElem?_append_left inside
        · have past : copy.length + values.length ≤ index := by
            by_contra within
            exact foreign ⟨behind, by omega⟩
          rw [List.getElem?_eq_none (by simpa using past), List.getElem?_eq_none behind]
      · rw [apply_block_of_ne here]
  | entry place value => exact List.getElem?_set_ne (Ne.symm foreign)

/-- A block of the source extends a prefix of the source to a prefix of it. -/
theorem apply_block_isPrefix {copy source values : List Value} {start : ℕ}
    (follows : copy <+: source) (quoted : (block start values).Quotes source) :
    (block start values).apply copy <+: source := by
  by_cases here : start = copy.length
  · subst here
    rw [apply_block_of_eq]
    obtain ⟨rest, rfl⟩ := follows
    rw [Quotes, List.drop_left] at quoted
    exact (List.prefix_append_right_inj copy).mpr quoted
  · rwa [apply_block_of_ne here]

theorem apply_entry_isPrefix {copy source : List Value} (follows : copy <+: source)
    (index : ℕ) (value : Value) : (entry index value).apply copy <+: source.set index value := by
  rw [List.prefix_iff_eq_take] at follows ⊢
  rw [length_apply_entry, List.take_set, ← follows, apply]

end Update

/-- A message on its way, with the source as it was when the message was sent. -/
structure Sent (Value : Type u) where
  update : Update Value
  source : List Value

/-- What is left of the copy behind all messages of a queue. -/
def drained (copy : List Value) (queue : List (Sent Value)) : List Value :=
  queue.foldl (fun copy message => message.update.apply copy) copy

@[simp]
theorem drained_nil (copy : List Value) : drained copy [] = copy := rfl

@[simp]
theorem drained_cons (copy : List Value) (message : Sent Value) (queue : List (Sent Value)) :
    drained copy (message :: queue) = drained (message.update.apply copy) queue := rfl

@[simp]
theorem drained_push (copy : List Value) (queue : List (Sent Value)) (message : Sent Value) :
    drained copy (queue ++ [message]) = message.update.apply (drained copy queue) := by
  simp [drained, List.foldl_append]

theorem drained_getElem?_of_silent {copy : List Value} {queue : List (Sent Value)} {index : ℕ}
    (silent : ∀ message ∈ queue, ¬message.update.Concerns index) :
    (drained copy queue)[index]? = copy[index]? := by
  induction queue generalizing copy with
  | nil => rfl
  | cons message queue inductionHypothesis =>
      rw [drained_cons, inductionHypothesis fun other member => silent other (by simp [member])]
      exact Update.apply_getElem?_of_not_concerns (silent message (by simp))

theorem length_le_drained (copy : List Value) (queue : List (Sent Value)) :
    copy.length ≤ (drained copy queue).length := by
  induction queue generalizing copy with
  | nil => exact le_rfl
  | cons message queue inductionHypothesis =>
      exact (message.update.length_le_apply copy).trans (inductionHypothesis _)

/-- Each message of the queue is taken from the source of its time and brings the copy to a
prefix of that source; behind the last message the copy is a prefix of `source`. -/
def Follows (source : List Value) : List Value → List (Sent Value) → Prop
  | copy, [] => copy <+: source
  | copy, message :: queue =>
      message.update.Quotes message.source ∧ message.update.apply copy <+: message.source ∧
        Follows source (message.update.apply copy) queue

namespace Follows

variable {source copy : List Value} {queue : List (Sent Value)}

theorem drained_isPrefix (follows : Follows source copy queue) :
    drained copy queue <+: source := by
  induction queue generalizing copy with
  | nil => exact follows
  | cons message queue inductionHypothesis => exact inductionHypothesis follows.2.2

/-- An entry of the source is one of the copy, a message is about it, or neither the copy
nor what becomes of it behind all messages reaches it. -/
theorem getElem?_cases (follows : Follows source copy queue) {index : ℕ} {value : Value}
    (isEntry : source[index]? = some value) :
    copy[index]? = some value ∨ (∃ message ∈ queue, message.update.Concerns index) ∨
      copy.length ≤ index ∧ (drained copy queue).length ≤ index := by
  by_cases about : ∃ message ∈ queue, message.update.Concerns index
  · exact Or.inr (Or.inl about)
  · have same : (drained copy queue)[index]? = copy[index]? :=
      drained_getElem?_of_silent fun message member concerns => about ⟨message, member, concerns⟩
    by_cases inside : index < (drained copy queue).length
    · left
      rw [← same, ← isEntry, List.getElem?_eq_getElem inside]
      exact (List.prefix_iff_getElem?.mp follows.drained_isPrefix index inside).symm
    · have beyond := Nat.le_of_not_lt inside
      exact Or.inr (Or.inr ⟨(length_le_drained copy queue).trans beyond, beyond⟩)

/-- A message that brings every prefix of the source to a prefix of the next source may be
sent behind the others. -/
theorem push {next : List Value} {update : Update Value} (follows : Follows source copy queue)
    (quoted : update.Quotes next)
    (keeps : ∀ part, part <+: source → update.apply part <+: next) :
    Follows next copy (queue ++ [⟨update, next⟩]) := by
  induction queue generalizing copy with
  | nil =>
      have kept := keeps copy follows
      exact ⟨quoted, kept, kept⟩
  | cons message queue inductionHypothesis =>
      obtain ⟨said, brought, rest⟩ := follows
      exact ⟨said, brought, inductionHypothesis rest⟩

theorem push_block {start : ℕ} {values : List Value} (follows : Follows source copy queue)
    (quoted : (Update.block start values).Quotes source) :
    Follows source copy (queue ++ [⟨.block start values, source⟩]) := by
  apply follows.push quoted
  intro part isPrefix
  exact Update.apply_block_isPrefix isPrefix quoted

theorem push_entry {index : ℕ} (follows : Follows source copy queue)
    (inside : index < source.length) (value : Value) :
    Follows (source.set index value) copy
      (queue ++ [⟨.entry index value, source.set index value⟩]) := by
  apply follows.push
  · exact List.getElem?_set_self inside
  · intro part isPrefix
    exact Update.apply_entry_isPrefix isPrefix index value

end Follows

/-- Each entry of the copy is what the source held when the last message about it was sent,
among the messages handled so far, newest first. -/
def Latest (copy : List Value) (handled : List (Sent Value)) : Prop :=
  ∀ index < copy.length, ∃ newer message older, handled = newer ++ message :: older ∧
    (∀ other ∈ newer, ¬other.update.Concerns index) ∧ message.update.Concerns index ∧
    copy[index]? = message.source[index]?

theorem latest_nil (handled : List (Sent Value)) : Latest [] handled := by
  intro index inside
  exact absurd inside (Nat.not_lt_zero index)

theorem Latest.handle {copy : List Value} {handled : List (Sent Value)} {message : Sent Value}
    (latest : Latest copy handled) (brought : message.update.apply copy <+: message.source) :
    Latest (message.update.apply copy) (message :: handled) := by
  intro index inside
  by_cases concerned : message.update.Concerns index
  · refine ⟨[], message, handled, rfl, by simp, concerned, ?_⟩
    exact (List.prefix_iff_getElem?.mp brought index inside).symm ▸
      List.getElem?_eq_getElem inside
  · have untouched : (message.update.apply copy)[index]? = copy[index]? :=
      Update.apply_getElem?_of_not_concerns concerned
    have before : index < copy.length := by
      rw [List.getElem?_eq_getElem inside] at untouched
      by_contra beyond
      rw [List.getElem?_eq_none (Nat.le_of_not_lt beyond)] at untouched
      cases untouched
    obtain ⟨newer, last, older, split, silent, concerns, same⟩ := latest index before
    refine ⟨message :: newer, last, older, by rw [split, List.cons_append], ?_, concerns,
      untouched.trans same⟩
    intro other member
    rcases List.mem_cons.mp member with rfl | member
    · exact concerned
    · exact silent other member

end OperationFrontLine.Library
