import Mathlib.Tactic

/-!
# Mirrors filled by a snapshot

A source tells each of its changes to a mirror over a channel that keeps the order.  The
mirror is empty until a snapshot of the source comes and follows the changes from then on;
it does not look at another snapshot.  A snapshot need not be exact: however far the mirror is
behind, what it makes of the channel agrees with the source if the snapshots do and the changes
keep the agreement.
-/

namespace OperationFrontLine.Library

universe u v

variable {Change : Type u} {Value : Type v}

inductive Notice (Change : Type u) (Value : Type v) where
  | told (change : Change)
  | snapshot (value : Value)

def Notice.follow (act : Value → Change → Value) (copy : Option Value) :
    Notice Change Value → Option Value
  | told change => copy.map fun value => act value change
  | snapshot value => some (copy.getD value)

def caughtUp (act : Value → Change → Value) (copy : Option Value)
    (channel : List (Notice Change Value)) : Option Value :=
  channel.foldl (Notice.follow act) copy

/-- Behind the channel the mirror is still empty, or it agrees with the source. -/
def Mirrors (Agrees : Value → Value → Prop) (act : Value → Change → Value) (source : Value)
    (copy : Option Value) (channel : List (Notice Change Value)) : Prop :=
  ∀ value, caughtUp act copy channel = some value → Agrees value source

variable {Agrees : Value → Value → Prop} {act : Value → Change → Value} {source : Value}
  {copy : Option Value}
  {channel : List (Notice Change Value)}

theorem caughtUp_append (copy : Option Value) (first second : List (Notice Change Value)) :
    caughtUp act copy (first ++ second) = caughtUp act (caughtUp act copy first) second :=
  List.foldl_append

theorem caughtUp_changes (copy : Option Value) (changes : List Change) :
    caughtUp act copy (changes.map Notice.told) =
      copy.map fun value => changes.foldl act value := by
  induction changes generalizing copy with
  | nil => cases copy <;> rfl
  | cons change changes inductionHypothesis =>
      rw [List.map_cons, caughtUp, List.foldl_cons, ← caughtUp, inductionHypothesis]
      cases copy <;> rfl

namespace Mirrors

theorem start : Mirrors Agrees act source none [] := by
  intro value ended
  cases ended

theorem tell (mirrors : Mirrors Agrees act source copy channel)
    (keeps : ∀ first second change, Agrees first second → Agrees (act first change)
      (act second change)) (changes : List Change) :
    Mirrors Agrees act (changes.foldl act source) copy (channel ++ changes.map Notice.told) := by
  intro value ended
  rw [caughtUp_append, caughtUp_changes, Option.map_eq_some_iff] at ended
  obtain ⟨before, reached, rfl⟩ := ended
  have agrees := mirrors before reached
  clear mirrors reached
  induction changes generalizing before source with
  | nil => exact agrees
  | cons change changes inductionHypothesis =>
      exact inductionHypothesis _ (keeps before source change agrees)

theorem answer (mirrors : Mirrors Agrees act source copy channel) {said : Value}
    (agrees : Agrees said source) :
    Mirrors Agrees act source copy (channel ++ [.snapshot said]) := by
  intro value ended
  rw [caughtUp_append] at ended
  cases reached : caughtUp act copy channel with
  | none =>
      rw [reached] at ended
      cases ended
      exact agrees
  | some before =>
      rw [reached] at ended
      cases ended
      exact mirrors before reached

theorem deliver {notice : Notice Change Value}
    (mirrors : Mirrors Agrees act source copy (notice :: channel)) :
    Mirrors Agrees act source (notice.follow act copy) channel := mirrors

/-- A mirror that was filled and is not behind agrees with the source. -/
theorem caught {value : Value} (mirrors : Mirrors Agrees act source (some value) []) :
    Agrees value source :=
  mirrors value rfl

end Mirrors

end OperationFrontLine.Library
