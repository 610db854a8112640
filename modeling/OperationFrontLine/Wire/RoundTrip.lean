import OperationFrontLine.Wire.Reader

/-!
# Trees survive the wire

What `DeparseArmaData` writes for a tree is the text of that tree, and
`BuildData` reads it.
-/

namespace OperationFrontLine.Wire

open OperationFrontLine.Library OperationFrontLine.Native

namespace ArmaData

variable {Single : Type}

inductive WireSafe : ArmaData Single → Prop where
  | string {value : Text} (nonempty : value ≠ []) (noUnit : adUnit ∉ value)
      (noArray : adArray ∉ value) : WireSafe (.string value)
  | unsigned {value : ℕ} (high : value < 2 ^ 64) : WireSafe (.unsigned value)
  | signed {value : ℤ} (low : -2 ^ 63 ≤ value) (high : value < 2 ^ 63) :
      WireSafe (.signed value)
  | address {value : ℕ} (high : value < 2 ^ 64) : WireSafe (.address value)
  | array {elements : List (ArmaData Single)} (nonempty : elements ≠ [])
      (all : ∀ element ∈ elements, WireSafe element) : WireSafe (.array elements)

theorem WireSafe.hasData {data : ArmaData Single} (safe : WireSafe data) :
    data.hasData = true := by
  cases safe <;> rfl

variable (floats : FloatFormat Single)

theorem deparseElements_eq {elements : List (ArmaData Single)} (nonempty : elements ≠ [])
    (all : ∀ element ∈ elements, element.hasData = true) :
    deparseElements floats elements =
      joined (elements.map (deparseArmaData floats)) ++ [adSeperator] := by
  induction elements with
  | nil => exact absurd rfl nonempty
  | cons element elements inductionHypothesis =>
      rw [deparseElements, if_pos (all element (by simp))]
      cases elements with
      | nil => rfl
      | cons second elements =>
          rw [inductionHypothesis (by simp) fun other member =>
            all other (List.mem_cons_of_mem _ member)]
          simp [joined_cons_cons]

theorem deparse_array {elements : List (ArmaData Single)} (nonempty : elements ≠ [])
    (all : ∀ element ∈ elements, element.hasData = true) :
    deparseArmaData floats (.array elements) =
      arrayText (elements.map (deparseArmaData floats)) := by
  have positive : elements.length > 0 := List.length_pos_iff.mpr nonempty
  rw [deparseArmaData, deparseElements_eq floats nonempty all]
  have trimmed : (adAsLeft :: (joined (elements.map (deparseArmaData floats)) ++
      [adSeperator])).dropLast = adAsLeft :: joined (elements.map (deparseArmaData floats)) := by
    rw [← List.cons_append, List.dropLast_concat]
  simp only [if_pos positive, trimmed]
  rfl

theorem leaf_unsigned {value : ℕ} (high : value < 2 ^ 64) :
    Leaf floats (adUnsigned :: printNatural 10 value) (.unsigned value) := by
  refine .word (by decide) (plain_printNatural (by decide) (by decide) value) rfl fun parse => ?_
  obtain ⟨first, rest, digits⟩ := List.exists_cons_of_ne_nil (printNatural_ne_nil 10 value)
  have read := stoull_printNatural high
  rw [digits] at read ⊢
  simp [buildDataWith, read, show adUnsigned ≠ adString by decide,
    show adUnsigned ≠ adFloat by decide, show adUnsigned ≠ adSigned by decide]

theorem leaf_signed {word : Text} {value : ℤ} (nonempty : word ≠ [])
    (plains : ∀ character ∈ word, Plain character) (read : stoll word = some value) :
    Leaf floats (adSigned :: word) (.signed value) := by
  refine .word (by decide) plains rfl fun parse => ?_
  obtain ⟨first, rest, rfl⟩ := List.exists_cons_of_ne_nil nonempty
  simp [buildDataWith, read, show adSigned ≠ adString by decide,
    show adSigned ≠ adFloat by decide]

theorem leaf_address {word : Text} (nonempty : word ≠ [])
    (plains : ∀ character ∈ word, Plain character) :
    Leaf floats (adAddress :: word) (.address (extractHex word)) := by
  refine .word (by decide) plains rfl fun parse => ?_
  obtain ⟨first, rest, rfl⟩ := List.exists_cons_of_ne_nil nonempty
  simp [buildDataWith, show adAddress ≠ adString by decide, show adAddress ≠ adFloat by decide,
    show adAddress ≠ adSigned by decide, show adAddress ≠ adUnsigned by decide,
    show adAddress ≠ adArray by decide]

/-- Data without elements, other than floats. -/
inductive Flat : ArmaData Single → Prop where
  | string {value : Text} (nonempty : value ≠ []) (noUnit : adUnit ∉ value)
      (noArray : adArray ∉ value) : Flat (.string value)
  | unsigned {value : ℕ} (high : value < 2 ^ 64) : Flat (.unsigned value)
  | signed {value : ℤ} (low : -2 ^ 63 ≤ value) (high : value < 2 ^ 63) : Flat (.signed value)
  | address {value : ℕ} (high : value < 2 ^ 64) : Flat (.address value)

theorem Flat.leaf {data : ArmaData Single} (flat : Flat data) :
    Leaf floats (deparseArmaData floats data) data := by
  cases flat with
  | string nonempty noUnit noArray => exact .string nonempty noUnit noArray
  | unsigned high => exact leaf_unsigned floats high
  | @signed value low high =>
      exact leaf_signed floats (printInteger_ne_nil value) (plain_printInteger value)
        (stoll_printInteger low high)
  | @address value high =>
      have leaf := leaf_address floats (printNatural_ne_nil 16 value)
        (plain_printNatural (by decide) le_rfl value)
      rwa [extractHex_printNatural high] at leaf

theorem WireSafe.encodes {data : ArmaData Single} (safe : WireSafe data) :
    Encodes (Leaf floats) .array (deparseArmaData floats data) data := by
  induction safe with
  | string nonempty noUnit noArray =>
      exact .leaf (Flat.leaf floats (.string nonempty noUnit noArray))
  | unsigned high => exact .leaf (Flat.leaf floats (.unsigned high))
  | signed low high => exact .leaf (Flat.leaf floats (.signed low high))
  | address high => exact .leaf (Flat.leaf floats (.address high))
  | array nonempty all inductionHypothesis =>
      rw [deparse_array floats nonempty fun element member => (all element member).hasData]
      simpa using Encodes.arrayMap (deparseArmaData floats) id nonempty inductionHypothesis

/-- A tree that the extension writes is read back by the extension. -/
theorem parseArmaData_deparseArmaData {elements : List (ArmaData Single)}
    (safe : WireSafe (.array elements)) :
    parseArmaData floats (deparseArmaData floats (.array elements)) = .ok (.array elements) := by
  cases safe with
  | array nonempty all =>
      rw [parseArmaData, deparse_array floats nonempty fun element member =>
        (all element member).hasData]
      simpa using buildData_arrayMap (deparseArmaData floats) id nonempty
        (fun element member => (all element member).encodes floats) le_rfl

theorem parseArmaData_deparseArmaData_nested :
    let floats : FloatFormat ℤ := ⟨stoll, fun _ => printInteger⟩
    let tree : ArmaData ℤ := .array [.signed (-5), .array [.string "a],[$".toList, .unsigned 7],
      .address 3735928559]
    deparseArmaData floats tree = "@[--5,@[$\x1fa],[$\x1f,+7],*deadbeef]".toList ∧
      parseArmaData floats (deparseArmaData floats tree) = .ok tree := by
  refine ⟨by decide +kernel, parseArmaData_deparseArmaData _ (.array (by simp) ?_)⟩
  intro element member
  simp only [List.mem_cons, List.not_mem_nil, or_false] at member
  rcases member with rfl | rfl | rfl
  · exact .signed (by decide) (by decide)
  · refine .array (by simp) fun element member => ?_
    simp only [List.mem_cons, List.not_mem_nil, or_false] at member
    rcases member with rfl | rfl
    · exact .string (by decide) (by decide) (by decide)
    · exact .unsigned (by decide)
  · exact .address (by decide)

end ArmaData

end OperationFrontLine.Wire
