import Mathlib.Tactic

/-!
# Arrays as objects

A variable holds a reference to an array; a command that changes the array in place is seen
through every variable that refers to it, and one that builds a new array through none.
-/

namespace OperationFrontLine.Library

universe u

/-- The arrays that exist, numbered in the order in which they were made. -/
structure Arrays (Element : Type u) where
  contents : ℕ → List Element
  next : ℕ

namespace Arrays

variable {Element : Type u} (arrays : Arrays Element)

/-- `array set [index, element]`; the element behind the last one is appended. -/
def set (object index : ℕ) (element : Element) : Arrays Element :=
  let old := arrays.contents object
  { arrays with
    contents := Function.update arrays.contents object
      (if index < old.length then old.set index element else old ++ [element]) }

def allocate (elements : List Element) : Arrays Element where
  contents := Function.update arrays.contents arrays.next elements
  next := arrays.next + 1

variable {arrays} {object other index : ℕ} {element : Element} {elements : List Element}

theorem set_contents_count :
    (arrays.set object (arrays.contents object).length element).contents object =
      arrays.contents object ++ [element] := by
  simp [set]

end Arrays

end OperationFrontLine.Library
