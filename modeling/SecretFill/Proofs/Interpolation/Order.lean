import SecretFill.Proofs.Interpolation.Tour
/-!
The order in which the keys of a map were set. It decides between keys of one length and about
nothing else: for a text in which no two such keys have a placeholder the same entry is chosen in
any order, and where such keys keep their order the keys are tried in one and the same order.
-/

namespace SecretFill

open SecretFill.Data SecretFill.Forest
open Placeholder (Stands)

namespace SubstitutionMap

def Untied (map : SubstitutionMap) (text : Text) : Prop :=
  ∀ one ∈ map, ∀ other ∈ map,
    Stands one.1.toList text.toList → Stands other.1.toList text.toList →
      one.1.length = other.1.length → one.1 = other.1

/-- Keys of one length stand in the same order in two maps. -/
def TiesKept (first second : SubstitutionMap) : Prop :=
  ∀ one ∈ first, ∀ other ∈ first, one.1.length = other.1.length →
    first.idxOf one < first.idxOf other → second.idxOf one < second.idxOf other

instance (map : SubstitutionMap) (text : Text) : Decidable (map.Untied text) :=
  decidable_of_iff (∀ one ∈ map, ∀ other ∈ map,
    Placeholder.occurs one.1.toList text.toList = true →
    Placeholder.occurs other.1.toList text.toList = true →
    one.1.length = other.1.length → one.1 = other.1) (by
    simp only [Placeholder.occurs_iff_stands]
    rfl)

instance (first second : SubstitutionMap) : Decidable (first.TiesKept second) :=
  inferInstanceAs (Decidable (∀ one ∈ first, ∀ other ∈ first, one.1.length = other.1.length →
    first.idxOf one < first.idxOf other → second.idxOf one < second.idxOf other))

variable {first second : SubstitutionMap} {text : Text} {entry : Text × Text}

theorem Untied.of_perm (untied : first.Untied text) (reordered : first.Perm second) :
    second.Untied text :=
  fun one member other member' =>
    untied one (reordered.mem_iff.mpr member) other (reordered.mem_iff.mpr member')

/-- Without a tie it is the longest key that is chosen, wherever it stands. -/
theorem chooses_iff_longest (distinct : (first.map Prod.fst).Nodup) (untied : first.Untied text) :
    first.Chooses text entry ↔ entry ∈ first ∧ Stands entry.1.toList text.toList ∧
      ∀ other ∈ first, other ≠ entry → Stands other.1.toList text.toList →
        other.1.length < entry.1.length := by
  rw [chooses_iff distinct.of_map]
  refine and_congr_right fun member => and_congr_right fun stands => ?_
  refine forall₂_congr fun other member' => forall₂_congr fun differs stands' => ?_
  -- Of one length the other key would be a tie, so it is the length that decides.
  refine ⟨fun before => before.resolve_right ?_, .inl⟩
  rintro ⟨same, -⟩
  have keys := untied other member' entry member stands' stands same
  exact differs (List.inj_on_of_nodup_map distinct member' member keys)

theorem chooses_congr (reordered : first.Perm second) (distinct : (first.map Prod.fst).Nodup)
    (untied : first.Untied text) : first.Chooses text entry ↔ second.Chooses text entry := by
  have distinct' := (reordered.map Prod.fst).nodup distinct
  rw [chooses_iff_longest distinct untied, chooses_iff_longest distinct' (untied.of_perm reordered)]
  simp only [reordered.mem_iff]

theorem longestFirst_congr (reordered : first.Perm second) (unequal : first.Nodup)
    (kept : first.TiesKept second) : first.longestFirst = second.longestFirst :=
  largestFirst_congr (fun entry : Text × Text => entry.1.length) reordered unequal kept

end SubstitutionMap

variable {first second : SubstitutionMap} {stream : Stream} {plots : List Plot} {forest : Forest}
  {seats : List Seat}

theorem settled_congr (reordered : first.Perm second) (distinct : (first.map Prod.fst).Nodup)
    {leaf : Leaf} (untied : ∀ text, leaf.value = .atom (.text text) → first.Untied text) :
    settled first.longestFirst leaf = settled second.longestFirst leaf := by
  unfold settled
  split
  · next text =>
      have same : first.longestFirst.find? (fun entry =>
            Placeholder.occurs entry.1.toList text.toList) =
          second.longestFirst.find? fun entry =>
            Placeholder.occurs entry.1.toList text.toList := by
        ext entry
        simp only [SubstitutionMap.find?_eq_some_iff]
        exact SubstitutionMap.chooses_congr reordered distinct (untied text rfl)
      rw [same]
  · rfl

theorem postingsOf_perm (reordered : first.Perm second) (distinct : (first.map Prod.fst).Nodup)
    (ordered : seats.Pairwise Seat.Before)
    (untied : ∀ seat ∈ seats, ∀ text, seat.spot.value = .atom (.text text) → first.Untied text) :
    (postingsOf first seats).Perm (postingsOf second seats) := by
  have unequal : first.Nodup := distinct.of_map
  refine (List.perm_ext_iff_of_nodup (nodup_postingsOf unequal ordered)
    (nodup_postingsOf (reordered.nodup unequal) ordered)).mpr fun posting => ?_
  rw [mem_postingsOf, mem_postingsOf]
  refine and_congr_right fun member => exists_congr fun text => and_congr_right fun value => ?_
  rw [SubstitutionMap.chooses_congr reordered distinct (untied _ member text value)]

theorem Tour.settles_alike (tour : Tour stream plots forest seats) (reordered : first.Perm second)
    (distinct : (first.map Prod.fst).Nodup)
    (untied : ∀ seat ∈ seats, ∀ text, seat.spot.value = .atom (.text text) → first.Untied text) :
    forest.leaves.map (settled first.longestFirst) =
      forest.leaves.map (settled second.longestFirst) := by
  refine Array.map_congr_left fun leaf member => settled_congr reordered distinct fun text value => ?_
  rw [← Array.mem_toList_iff, tour.leaves] at member
  obtain ⟨seat, inside, rfl⟩ := List.mem_map.mp member
  exact untied seat inside text value

/-- The order in which keys were set decides ties and nothing else. Two maps with the same keys and
values make the same of every stream that can be planted, and record the same up to order, if no
text that is reached holds placeholders of two keys of one length; if keys of one length stand in
the same order in both, they make and record the same of every stream. -/
theorem substitute_order_breaks_ties (first second : SubstitutionMap) (reordered : first.Perm second)
    (distinct : (first.map Prod.fst).Nodup) (stream : Stream) (planted : List Plot × Forest)
    (accepted : plantAll stream.cells stream.roots.length 0 stream.roots Forest.empty =
      .ok planted) :
    ∃ result records result' records', substitute first stream = .ok (result, records) ∧
      substitute second stream = .ok (result', records') ∧
      ((∀ root ∈ stream.roots, ∀ text, Reaches stream.cells root (.atom (.text text)) →
          first.Untied text) → result = result' ∧ records.Perm records') ∧
      (first.TiesKept second → result = result' ∧ records = records') := by
  obtain ⟨plots, forest⟩ := planted
  obtain ⟨seats, tour⟩ := exists_tour accepted
  have unequal : first.Nodup := distinct.of_map
  have one := tour.substitutes accepted unequal
  have other := tour.substitutes accepted (reordered.nodup unequal)
  refine ⟨_, _, _, _, one, other, fun untied => ⟨?_, ?_⟩, fun kept => ?_⟩
  · rw [tour.settles_alike reordered distinct fun seat member text value => ?_]
    obtain ⟨root, inside, reaches⟩ := tour.reaches member
    exact untied root inside text (value ▸ reaches)
  · refine (postingsOf_perm reordered distinct tour.ordered fun seat member text value => ?_).map _
    obtain ⟨root, inside, reaches⟩ := tour.reaches member
    exact untied root inside text (value ▸ reaches)
  · have sorted := SubstitutionMap.longestFirst_congr reordered unequal kept
    have postings : postingsOf first seats = postingsOf second seats := by
      simp only [postingsOf, seatsOf, sorted]
    rw [sorted, postings]
    exact ⟨rfl, rfl⟩

/-- Three texts, one of them with keys of two lengths. The second map swaps keys of one length, the
third one does not. -/
theorem substitute_order_breaks_ties_of_three :
    let texts : List Text := ["$A $\x7bBB\x7d", "$A", "$C"]
    let stream : Stream := ⟨#[.list (texts.map fun text => .atom (.text text))], [.cell 0]⟩
    let first : SubstitutionMap := [("A", "one"), ("BB", "two"), ("C", "three")]
    let second : SubstitutionMap := [("C", "three"), ("BB", "two"), ("A", "one")]
    let third : SubstitutionMap := [("BB", "two"), ("A", "one"), ("C", "three")]
    ∃ result records records', substitute first stream = .ok (result, records) ∧
      substitute second stream = .ok (result, records') ∧ records.Perm records' ∧
      substitute third stream = .ok (result, records) := by
  intro texts stream first second third
  obtain ⟨result, records, _, records', made, made', swapped, -⟩ :=
    substitute_order_breaks_ties first second (by decide) (by decide) stream _ rfl
  obtain ⟨_, _, _, _, again, made'', -, kept⟩ :=
    substitute_order_breaks_ties first third (by decide) (by decide) stream _ rfl
  cases made.symm.trans again
  obtain ⟨rfl, rfl⟩ := kept (by decide)
  have untied : ∀ text ∈ texts, first.Untied text := by decide
  obtain ⟨rfl, permuted⟩ := swapped fun root member text reaches => by
    cases List.mem_singleton.mp member
    rcases Relation.ReflTransGen.cases_head reaches with same | ⟨part, inside, onward⟩
    · cases same
    · obtain ⟨shown, held, rfl⟩ := List.mem_map.mp ((inside_cell rfl part).mp inside)
      cases Reaches.eq_of_simple (fun index same => by cases same) onward
      exact untied text held
  exact ⟨result, records, records', made, made', permuted, made''⟩

end SecretFill
