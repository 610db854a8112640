import OperationFrontLine.Wire.Agreement

/-!
# Three routes to the same data

A datum comes to `BuildData` alone, behind the name of a function, or as an
element of an array.  The loop over an array leaves the unit characters out;
on the other two routes a string is all that is behind its type character.
-/

namespace OperationFrontLine.Wire

open OperationFrontLine.Library OperationFrontLine.Native

namespace ArmaData

variable {Single : Type} {floats : FloatFormat Single} {data : ArmaData Single}

/-- Data that is no string is read alike, however deep the arrays may go. -/
theorem Flat.read (flat : Flat data) (noString : ∀ value, data ≠ .string value) (depth : ℕ) :
    buildData floats depth (deparseArmaData floats data) = .ok data := by
  have leaf := flat.leaf floats
  generalize deparseArmaData floats data = text at leaf ⊢
  cases leaf with
  | string => exact absurd rfl (noString _)
  | word plain plains hasData read =>
      cases depth with
      | zero => exact read _
      | succ depth => exact read _

theorem parse_quoted (floats : FloatFormat Single) (value : Text) :
    parseArmaData floats (deparseArmaData floats (.string value)) =
      .ok (.string (adUnit :: (value ++ [adUnit]))) := by
  rfl

theorem Flat.parse_element (flat : Flat data) :
    parseArmaData floats (arrayText [deparseArmaData floats data]) = .ok (.array [data]) := by
  have encodes : ∀ source ∈ [data],
      Encodes (Leaf floats) .array (deparseArmaData floats source) source := by
    intro source member
    rw [List.mem_singleton.mp member]
    exact .leaf (flat.leaf floats)
  exact buildData_arrayMap (deparseArmaData floats) id (by simp) encodes le_rfl

/-- All routes give a datum back exactly when it is not a string. -/
theorem routes_agree_iff (floats : FloatFormat Single) (flat : Flat data) {name : Text}
    (noSeperator : adSeperator ∉ name)
    (noType : ∀ first ∈ name.head?, ArmaMessage.isType first = false) :
    (parseArmaData floats (deparseArmaData floats data) = .ok data ∧
      ArmaMessage.parseArmaData floats (name ++ adSeperator :: deparseArmaData floats data) =
        .ok ⟨true, name, data⟩ ∧
      parseArmaData floats (arrayText [deparseArmaData floats data]) = .ok (.array [data])) ↔
      ∀ value, data ≠ .string value := by
  constructor
  · rintro ⟨alone, -, -⟩ value rfl
    rw [parse_quoted] at alone
    simp only [Except.ok.injEq, string.injEq] at alone
    have longer := congrArg List.length alone
    simp at longer
    omega
  · intro noString
    refine ⟨flat.read noString _, ?_, flat.parse_element⟩
    have some : deparseArmaData floats data ≠ [] := by
      cases flat <;> simp [deparseArmaData]
    rw [ArmaMessage.parse_named floats noSeperator noType some, flat.read noString]
    rfl

theorem routes_agree_iff_address :
    let floats : FloatFormat ℤ := ⟨stoll, fun _ => printInteger⟩
    let data : ArmaData ℤ := .address 3735928559
    parseArmaData floats (deparseArmaData floats data) = .ok data ∧
      ArmaMessage.parseArmaData floats
          ("Connect".toList ++ adSeperator :: deparseArmaData floats data) =
        .ok ⟨true, "Connect".toList, data⟩ ∧
      parseArmaData floats (arrayText [deparseArmaData floats data]) = .ok (.array [data]) := by
  intro floats data
  refine (routes_agree_iff floats (.address (by decide)) (by decide) ?_).mpr (by simp)
  rintro first ⟨⟩
  decide

/-- Alone, `player` comes back two characters longer. -/
theorem string_keeps_quotes :
    let floats : FloatFormat ℤ := ⟨stoll, fun _ => printInteger⟩
    ¬∀ (data : ArmaData ℤ) (name : Text), Flat data → adSeperator ∉ name →
      (∀ first ∈ name.head?, ArmaMessage.isType first = false) →
        parseArmaData floats (deparseArmaData floats data) = .ok data ∧
        ArmaMessage.parseArmaData floats (name ++ adSeperator :: deparseArmaData floats data) =
          .ok ⟨true, name, data⟩ ∧
        parseArmaData floats (arrayText [deparseArmaData floats data]) = .ok (.array [data]) := by
  intro floats agree
  have flat : Flat (.string "player".toList : ArmaData ℤ) :=
    .string (by decide) (by decide) (by decide)
  have alone := (agree _ [] flat (by simp) (by simp)).1
  rw [parse_quoted] at alone
  cases alone

end ArmaData

end OperationFrontLine.Wire
