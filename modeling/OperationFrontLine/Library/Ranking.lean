import Mathlib.Tactic
import Mathlib.Data.List.Sort

/-!
# Sorting by rank with the place as the tie-break

A list is sorted in descending order of the triples (rank, distance from the end, place)
of its entries, and the entries are picked by the places.  Equal ranks keep their order, so
a part of the list that was in order of rank stays as it is.
-/

namespace OperationFrontLine.Library

universe u

def Descending (first second : ℕ × ℕ × ℕ) : Prop :=
  second.1 < first.1 ∨ first.1 = second.1 ∧
    (second.2.1 < first.2.1 ∨ first.2.1 = second.2.1 ∧ second.2.2 ≤ first.2.2)

instance : DecidableRel Descending := fun first second =>
  inferInstanceAs (Decidable (second.1 < first.1 ∨ first.1 = second.1 ∧
    (second.2.1 < first.2.1 ∨ first.2.1 = second.2.1 ∧ second.2.2 ≤ first.2.2)))

instance : Std.Total Descending where
  total first second := by
    unfold Descending
    omega

instance : IsTrans (ℕ × ℕ × ℕ) Descending where
  trans first second third := by
    unfold Descending
    omega

variable {Entry : Type u} (rank : Entry → ℕ)

def rankTriple (size : ℕ) (entry : Entry × ℕ) : ℕ × ℕ × ℕ :=
  (rank entry.1, size - 1 - entry.2, entry.2)

def sortByRank (entries : List Entry) : List Entry :=
  ((entries.zipIdx.map (rankTriple rank entries.length)).insertionSort Descending).filterMap
    fun triple => entries[triple.2.2]?

variable {rank} {entries : List Entry}

theorem pick_rankTriple {entry : Entry × ℕ} (member : entry ∈ entries.zipIdx) :
    entries[(rankTriple rank entries.length entry).2.2]? = some entry.1 :=
  List.mem_zipIdx_iff_getElem?.mp member

/-- Picking by the triples of some entries, each once and in order, gives these entries. -/
theorem filterMap_pick (keep : Entry → Bool) :
    ((entries.zipIdx.filter (keep ∘ Prod.fst)).map (rankTriple rank entries.length)).filterMap
      (fun triple => entries[triple.2.2]?) = entries.filter keep := by
  have picked : ∀ entry ∈ entries.zipIdx.filter (keep ∘ Prod.fst),
      ((fun triple : ℕ × ℕ × ℕ => entries[triple.2.2]?) ∘ rankTriple rank entries.length)
        entry = some (Prod.fst entry) :=
    fun entry member => pick_rankTriple (List.mem_of_mem_filter member)
  rw [List.filterMap_map, List.filterMap_congr picked, List.filterMap_eq_map',
    ← List.filter_map, List.zipIdx_map_fst]

theorem sortByRank_perm : (sortByRank rank entries).Perm entries := by
  have sorted := (List.perm_insertionSort Descending
    (entries.zipIdx.map (rankTriple rank entries.length))).filterMap
      fun triple => entries[triple.2.2]?
  have picked := @filterMap_pick _ rank entries fun _ => true
  rw [List.filter_eq_self.mpr (by simp), List.filter_eq_self.mpr (by simp)] at picked
  rwa [picked] at sorted

theorem sortByRank_pairwise :
    (sortByRank rank entries).Pairwise fun first second => rank second ≤ rank first := by
  rw [sortByRank, List.pairwise_filterMap]
  refine (List.pairwise_insertionSort Descending _).imp_of_mem ?_
  intro first second firstIn secondIn descending former formerPicked latter latterPicked
  obtain ⟨entry, entryIn, rfl⟩ :=
    List.mem_map.mp ((List.mem_insertionSort Descending).mp firstIn)
  obtain ⟨other, otherIn, rfl⟩ :=
    List.mem_map.mp ((List.mem_insertionSort Descending).mp secondIn)
  rw [pick_rankTriple entryIn, Option.some.injEq] at formerPicked
  rw [pick_rankTriple otherIn, Option.some.injEq] at latterPicked
  subst formerPicked latterPicked
  rcases descending with lower | ⟨equal, -⟩
  · exact lower.le
  · exact equal.ge

theorem sortByRank_filter_eq {keep : Entry → Bool}
    (ordered : (entries.filter keep).Pairwise fun first second => rank second ≤ rank first) :
    (sortByRank rank entries).filter keep = entries.filter keep := by
  have places : (entries.zipIdx.filter (keep ∘ Prod.fst)).Pairwise
      fun first second => first.2 < second.2 := by
    have ascending : (entries.zipIdx.map Prod.snd).Pairwise (· < ·) := by
      rw [List.zipIdx_map_snd]
      exact List.pairwise_lt_range'
    exact (List.pairwise_map.mp ascending).filter _
  have ranks : (entries.zipIdx.filter (keep ∘ Prod.fst)).Pairwise
      fun first second => rank second.1 ≤ rank first.1 := by
    have kept : (entries.zipIdx.filter (keep ∘ Prod.fst)).map Prod.fst =
        entries.filter keep := by
      rw [← List.filter_map, List.zipIdx_map_fst]
    rw [← kept] at ordered
    exact List.pairwise_map.mp ordered
  have descending : ((entries.zipIdx.filter (keep ∘ Prod.fst)).map
      (rankTriple rank entries.length)).Pairwise Descending := by
    refine List.pairwise_map.mpr ((places.and ranks).imp_of_mem ?_)
    rintro first second - secondIn ⟨before, lower⟩
    have inside : second.2 < entries.length := by
      have picked := List.mem_zipIdx_iff_getElem?.mp (List.mem_of_mem_filter secondIn)
      exact (List.getElem?_eq_some_iff.mp picked).1
    rcases lower.lt_or_eq with less | same
    · exact .inl less
    · refine .inr ⟨same.symm, .inl ?_⟩
      simp only [rankTriple]
      omega
  have sublist := (List.sublist_insertionSort descending
    ((List.filter_sublist (p := keep ∘ Prod.fst)).map (rankTriple rank entries.length))).filterMap
      fun triple => entries[triple.2.2]?
  rw [filterMap_pick] at sublist
  have within := sublist.filter keep
  rw [List.filter_filter, ← sortByRank] at within
  simp only [Bool.and_self] at within
  exact (within.eq_of_length ((sortByRank_perm.filter keep).length_eq).symm).symm

end OperationFrontLine.Library
