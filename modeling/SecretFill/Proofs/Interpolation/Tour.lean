import SecretFill.Proofs.Interpolation.Ledger
import SecretFill.Proofs.Interpolation.Sharing
/-!
The tour of a walk over all documents of a stream that was planted: the seats to which it comes, one
for each leaf, in their order. What a substitution makes of the stream and what it records is read
off the tour, with no pass left in it.
-/

namespace SecretFill

open SecretFill.Data SecretFill.Forest
open Placeholder (Stands)

/-- The seats to which a walk over planted documents comes, from the first to the last. -/
structure Tour (stream : Stream) (plots : List Plot) (forest : Forest) (seats : List Seat) : Prop where
  ordered : seats.Pairwise Seat.Before
  exact : ∀ seat, seat ∈ seats ↔ ∃ root, stream.roots[seat.document]? = some root ∧
    Comes stream.cells [] root (Path.ofRoot seat.document stream.roots.length) seat.spot
  walked : Walked stream.cells ⟨Forest.empty, []⟩ (plots.map fun plot => (plot.node, plot.path))
    ⟨forest, []⟩ (seats.map fun seat => seat.spot.mark)
  grounded : ∀ root ∈ stream.roots, Grounded stream.cells root
  named : ∀ root ∈ stream.roots, Named stream.cells root

variable {stream : Stream} {plots : List Plot} {forest : Forest} {seats : List Seat}

theorem nodup_postingsOf {map : SubstitutionMap} (unequal : map.Nodup)
    (ordered : seats.Pairwise Seat.Before) : (postingsOf map seats).Nodup := by
  refine (pairwise_postingsOf unequal ordered).imp fun before same => ?_
  rw [same] at before
  exact Posting.Before.irrefl _ before

theorem named_of_plants {cells : Array Cell} {roots : List Value} {later : Forest}
    (plants : Plants cells roots forest plots later) : ∀ root ∈ roots, Named cells root := by
  induction plants with
  | nil => exact List.forall_mem_nil _
  | cons first _ ih => exact List.forall_mem_cons.mpr ⟨(grounded_of_plant first).2, ih⟩

theorem exists_tour (accepted : plantAll stream.cells stream.roots.length 0 stream.roots Forest.empty =
    .ok (plots, forest)) : ∃ seats, Tour stream plots forest seats := by
  obtain ⟨seats, ordered, seated, walked⟩ := plantAll_trail accepted
  have plants := plants_of_plantAll accepted
  refine ⟨seats, ordered, fun seat => ?_, walked, grounded_of_plants plants, named_of_plants plants⟩
  rw [seated]
  constructor
  · rintro ⟨place, root, found, same, comes⟩
    rw [Nat.zero_add] at same
    exact ⟨root, same ▸ found, comes⟩
  · rintro ⟨root, found, comes⟩
    exact ⟨seat.document, root, found, (Nat.zero_add _).symm, comes⟩

namespace Tour

theorem leaves (tour : Tour stream plots forest seats) :
    forest.leaves.toList = seats.map fun seat => ⟨seat.spot.value, false⟩ := by
  have leaves := tour.walked.leaves
  rw [List.map_map] at leaves
  exact leaves

theorem places (tour : Tour stream plots forest seats) :
    (route forest stream.cells plots []).1 = numbered 0 (seats.map fun seat => seat.spot.path) := by
  obtain ⟨visited, along, -⟩ := tour.walked.walk forest (forest.branches.size + 1) []
    (extends_refl _) (Nat.le_succ _) ⟨List.forall_mem_nil _, List.forall_mem_nil _⟩
  rw [List.map_map] at along
  exact congrArg Prod.fst along

theorem onRoute (tour : Tour stream plots forest seats) {number : Nat}
    (inside : number < forest.leaves.size) :
    number ∈ (route forest stream.cells plots []).1.map Place.leaf := by
  have sizes := congrArg List.length tour.leaves
  rw [tour.places, map_leaf_numbered, List.mem_range'_1]
  simp only [Array.length_toList, List.length_map] at sizes
  simp only [List.length_map]
  omega

theorem settles (tour : Tour stream plots forest seats) (entries : List (Text × Text)) :
    (entries.foldl (applyKey stream.cells plots) ([], forest)).2 =
      ⟨forest.branches, forest.leaves.map (settled entries)⟩ := by
  have branches := applyKeys_branches stream.cells plots entries ([], forest)
  have leaves : (entries.foldl (applyKey stream.cells plots) ([], forest)).2.leaves =
      forest.leaves.map (settled entries) := by
    refine Array.ext_getElem? fun number => ?_
    rw [Array.getElem?_map]
    by_cases inside : number < forest.leaves.size
    · exact applyKeys_leaf stream.cells plots entries ([], forest) (tour.onRoute inside)
    · have outside := Nat.le_of_not_lt inside
      have sizes := applyKeys_size stream.cells plots entries ([], forest)
      rw [Array.getElem?_eq_none (sizes ▸ outside), Array.getElem?_eq_none outside]
      rfl
  calc (entries.foldl (applyKey stream.cells plots) ([], forest)).2
      = ⟨_, (entries.foldl (applyKey stream.cells plots) ([], forest)).2.leaves⟩ := rfl
    _ = ⟨forest.branches, forest.leaves.map (settled entries)⟩ := by rw [branches, leaves]

/-- What a substitution makes of a stream, and what it records. -/
theorem substitutes (tour : Tour stream plots forest seats)
    (accepted : plantAll stream.cells stream.roots.length 0 stream.roots Forest.empty =
      .ok (plots, forest)) {map : SubstitutionMap} (unequal : map.Nodup) :
    substitute map stream = .ok
      (Forest.toStream ⟨forest.branches, forest.leaves.map (settled map.longestFirst)⟩ stream.cells
        (plots.map Plot.node), (postingsOf map seats).map Posting.record) := by
  obtain ⟨substitutions, later, ended, passes⟩ := substitute_of_planted map accepted
  have records := applyKeys_postings tour.walked unequal
  have forests := tour.settles map.longestFirst
  rw [passes] at records forests
  rw [ended, ← records, ← forests]

theorem reaches {seat : Seat} (tour : Tour stream plots forest seats) (member : seat ∈ seats) :
    ∃ root ∈ stream.roots, Reaches stream.cells root seat.spot.value := by
  obtain ⟨root, found, comes⟩ := (tour.exact seat).mp member
  exact ⟨root, List.mem_of_getElem? found, reaches_of_follow comes.followed⟩

theorem seated {root : Value} {text : Text} (tour : Tour stream plots forest seats)
    (member : root ∈ stream.roots) (reaches : Reaches stream.cells root (.atom (.text text))) :
    ∃ seat ∈ seats, seat.spot.value = .atom (.text text) := by
  obtain ⟨document, found⟩ := List.mem_iff_getElem?.mp member
  obtain ⟨way, shown, followed⟩ := exists_follow (tour.named root member) reaches
    (Path.ofRoot document stream.roots.length)
  -- Of the routes to the text the walk takes the first one.
  obtain ⟨first, arrives, same⟩ := exists_arrives (tour.grounded root member) followed
  obtain ⟨path, led⟩ := same.symm.follow followed
  let spot : Spot := ⟨first, .atom (.text text), path⟩
  have comes : Comes stream.cells [] root (Path.ofRoot document stream.roots.length) spot :=
    (comes_text_iff (tour.grounded root member) rfl).mpr ⟨led, arrives⟩
  exact ⟨⟨document, spot⟩, (tour.exact _).mpr ⟨root, found, comes⟩, rfl⟩

end Tour

end SecretFill
