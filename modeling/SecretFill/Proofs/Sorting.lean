import Mathlib.Data.List.Nodup
/-!
Sorting by size, what is larger first. What is of one size keeps its order.
-/

namespace SecretFill

variable {α : Type} (size : α → Nat)

theorem larger_trans (first second third : α) (early : decide (size second ≤ size first) = true)
    (late : decide (size third ≤ size second) = true) :
    decide (size third ≤ size first) = true := by
  rw [decide_eq_true_eq] at *
  exact Nat.le_trans late early

theorem larger_total (first second : α) :
    (decide (size second ≤ size first) || decide (size first ≤ size second)) = true := by
  rw [Bool.or_eq_true, decide_eq_true_eq, decide_eq_true_eq]
  exact Nat.le_total _ _

theorem pairwise_largestFirst (list : List α) :
    (list.mergeSort fun first second => decide (size second ≤ size first)).Pairwise
      fun first second => size second ≤ size first :=
  (List.pairwise_mergeSort (larger_trans size) (larger_total size) list).imp fun before =>
    of_decide_eq_true before

section Places

variable [BEq α] [LawfulBEq α] {list : List α} {first second : α}

theorem pairwise_idxOf (distinct : list.Nodup) :
    list.Pairwise fun first second => list.idxOf first < list.idxOf second := by
  rw [List.pairwise_iff_getElem]
  intro early late inEarly inLate less
  rwa [distinct.idxOf_getElem early inEarly, distinct.idxOf_getElem late inLate]

theorem pair_sublist_of_idxOf (member : second ∈ list)
    (earlier : list.idxOf first < list.idxOf second) : [first, second].Sublist list := by
  have inside : list.idxOf second < list.length := List.idxOf_lt_length_of_mem member
  have early : first ∈ list.take (list.idxOf second) := by
    refine List.mem_take_iff_getElem.mpr ⟨list.idxOf first, by omega, ?_⟩
    exact List.getElem_idxOf (by omega)
  have late : second ∈ list.drop (list.idxOf second) := by
    rw [List.drop_eq_getElem_cons inside, List.getElem_idxOf inside]
    exact List.mem_cons_self
  have both := (List.singleton_sublist.mpr early).append (List.singleton_sublist.mpr late)
  rwa [List.take_append_drop] at both

theorem stable_largestFirst (distinct : list.Nodup) :
    (list.mergeSort fun first second => decide (size second ≤ size first)).Pairwise
      fun first second => size second < size first ∨
        size second = size first ∧ list.idxOf first < list.idxOf second := by
  have permuted := List.mergeSort_perm list fun first second => decide (size second ≤ size first)
  have distinct' := permuted.nodup_iff.mpr distinct
  have sorted := pairwise_largestFirst size list
  have placed := pairwise_idxOf distinct'
  rw [List.pairwise_iff_forall_sublist] at sorted placed ⊢
  intro first second pair
  rcases Nat.lt_or_eq_of_le (sorted pair) with smaller | same
  · exact .inl smaller
  · refine .inr ⟨same, ?_⟩
    -- Sorting keeps a pair of one size, so the other order would give both orders at once.
    by_contra late
    have ahead := placed pair
    have present : first ∈ list := permuted.mem_iff.mp (pair.subset List.mem_cons_self)
    have unequal : list.idxOf second ≠ list.idxOf first := by
      intro equal
      rw [(List.idxOf_inj (permuted.mem_iff.mp (pair.subset (by simp)))).mp equal] at ahead
      exact Nat.lt_irrefl _ ahead
    have before : [second, first].Sublist list := pair_sublist_of_idxOf present (by omega)
    have swapped := placed (List.pair_sublist_mergeSort (larger_trans size) (larger_total size)
      (decide_eq_true (Nat.le_of_eq same.symm)) before)
    omega

/-- Lists of the same elements are sorted alike if those of one size stand in the same order. -/
theorem largestFirst_congr {other : List α} (permuted : list.Perm other) (distinct : list.Nodup)
    (ties : ∀ first ∈ list, ∀ second ∈ list, size first = size second →
      list.idxOf first < list.idxOf second → other.idxOf first < other.idxOf second) :
    (list.mergeSort fun first second => decide (size second ≤ size first)) =
      other.mergeSort fun first second => decide (size second ≤ size first) := by
  have sorted := List.mergeSort_perm list fun first second => decide (size second ≤ size first)
  have sorted' := List.mergeSort_perm other fun first second => decide (size second ≤ size first)
  have stable := stable_largestFirst size distinct
  have stable' := stable_largestFirst size (permuted.nodup distinct)
  refine List.Perm.eq_of_pairwise ?_ (stable.imp_of_mem ?_) stable'
    (sorted.trans (permuted.trans sorted'.symm))
  · intro first second _ _ ahead behind
    omega
  · intro first second member member' before
    rcases before with smaller | ⟨same, earlier⟩
    · exact .inl smaller
    · exact .inr ⟨same, ties first (sorted.mem_iff.mp member) second (sorted.mem_iff.mp member')
        same.symm earlier⟩

end Places

end SecretFill
