import SecretFill.Interpolation
import SecretFill.Proofs.Placeholder
import SecretFill.Proofs.Sorting
/-!
Which key replaces a text: the longest one with a placeholder in it, and of several with one
length the first. The order in which the keys are tried finds exactly that key.
-/

namespace SecretFill.SubstitutionMap

open Placeholder (Stands)

/-- What becomes of a text: the value of the first key with a placeholder in it, in the order in
which keys are tried, and else the text itself. -/
def replace (map : SubstitutionMap) (text : Text) : Text :=
  match map.longestFirst.find? fun entry => Placeholder.occurs entry.1.toList text.toList with
  | some entry => entry.2
  | none => text

/-- An entry is the one for a text: its key has a placeholder in the text, an earlier key with one
is shorter, and a later key with one is not longer. -/
def Chooses (map : SubstitutionMap) (text : Text) (entry : Text × Text) : Prop :=
  ∃ before after, map = before ++ entry :: after ∧ Stands entry.1.toList text.toList ∧
    (∀ other ∈ before, Stands other.1.toList text.toList → other.1.length < entry.1.length) ∧
    ∀ other ∈ after, Stands other.1.toList text.toList → other.1.length ≤ entry.1.length

def longerFirst (first second : Text × Text) : Bool :=
  decide (second.1.length ≤ first.1.length)

theorem longerFirst_trans (first second third : Text × Text)
    (early : longerFirst first second = true) (late : longerFirst second third = true) :
    longerFirst first third = true :=
  larger_trans (fun entry : Text × Text => entry.1.length) first second third early late

theorem longerFirst_total (first second : Text × Text) :
    (longerFirst first second || longerFirst second first) = true :=
  larger_total (fun entry : Text × Text => entry.1.length) first second

theorem pairwise_longestFirst (map : SubstitutionMap) :
    map.longestFirst.Pairwise fun first second => second.1.length ≤ first.1.length :=
  pairwise_largestFirst (fun entry : Text × Text => entry.1.length) map

theorem mem_longestFirst {map : SubstitutionMap} {entry : Text × Text} :
    entry ∈ map.longestFirst ↔ entry ∈ map :=
  (List.mergeSort_perm map longerFirst).mem_iff

theorem longestFirst_cons (entry : Text × Text) (map : SubstitutionMap) :
    ∃ longer others, longestFirst (entry :: map) = longer ++ entry :: others ∧
      map.longestFirst = longer ++ others ∧
      ∀ other ∈ longer, entry.1.length < other.1.length := by
  obtain ⟨longer, others, whole, rest, before⟩ :=
    List.mergeSort_cons longerFirst_trans longerFirst_total entry map
  refine ⟨longer, others, whole, rest, fun other member => ?_⟩
  have notLonger := before other member
  simpa [longerFirst] using notLonger

theorem chooses_of_find? {map : SubstitutionMap} {text : Text} {entry : Text × Text}
    (found : map.longestFirst.find? (fun entry => Placeholder.occurs entry.1.toList text.toList) =
      some entry) : map.Chooses text entry := by
  induction map with
  | nil => simp [longestFirst] at found
  | cons first rest ih =>
      obtain ⟨longer, others, whole, tail, before⟩ := longestFirst_cons first rest
      rw [tail, List.find?_append] at ih
      rw [whole, List.find?_append] at found
      -- The first entry is sorted behind longer ones; one of these that occurs comes before it.
      cases ahead : longer.find? fun entry => Placeholder.occurs entry.1.toList text.toList with
      | some chosen =>
          simp only [ahead, Option.some_or] at ih found
          cases found
          obtain ⟨early, late, rfl, stands, shorter, notLonger⟩ := ih rfl
          refine ⟨first :: early, late, rfl, stands, fun other member present => ?_, notLonger⟩
          rcases List.mem_cons.mp member with same | later
          · rw [same]
            exact before entry (List.mem_of_find?_eq_some ahead)
          · exact shorter other later present
      | none =>
          simp only [ahead, Option.none_or] at ih found
          by_cases hit : Placeholder.occurs first.1.toList text.toList = true
          · simp only [List.find?_cons, hit] at found
            cases found
            refine ⟨[], rest, rfl, (Placeholder.occurs_iff_stands _ _).mp hit,
              (fun _ member => by cases member), fun other member present => ?_⟩
            have sorted := pairwise_longestFirst (entry :: rest)
            rw [whole] at sorted
            have place : other ∈ longer ++ others := by
              rw [← tail]
              exact mem_longestFirst.mpr member
            rcases List.mem_append.mp place with absurdly | behind
            · have missed := List.find?_eq_none.mp ahead other absurdly
              exact absurd ((Placeholder.occurs_iff_stands _ _).mpr present) missed
            · exact (List.pairwise_cons.mp (List.pairwise_append.mp sorted).2.1).1 other behind
          · simp only [List.find?_cons, hit] at found
            obtain ⟨early, late, rfl, stands, shorter, notLonger⟩ := ih found
            refine ⟨first :: early, late, rfl, stands, fun other member present => ?_, notLonger⟩
            rcases List.mem_cons.mp member with same | later
            · rw [same] at present
              exact absurd ((Placeholder.occurs_iff_stands _ _).mpr present) hit
            · exact shorter other later present

theorem chooses_unique {map : SubstitutionMap} {text : Text} {first second : Text × Text}
    (one : map.Chooses text first) (other : map.Chooses text second) : first = second := by
  obtain ⟨before, after, same, stands, shorter, notLonger⟩ := one
  obtain ⟨before', after', same', stands', shorter', notLonger'⟩ := other
  rw [same] at same'
  rcases List.append_eq_append_iff.mp same' with ⟨between, rfl, rest⟩ | ⟨between, rfl, rest⟩
  · cases between with
    | nil => exact (List.cons.inj rest).1
    | cons next between =>
        obtain ⟨rfl, rfl⟩ := List.cons.inj rest
        have less := shorter' first (by simp) stands
        have notMore := notLonger second (by simp) stands'
        omega
  · cases between with
    | nil => exact (List.cons.inj rest).1.symm
    | cons next between =>
        obtain ⟨rfl, rfl⟩ := List.cons.inj rest
        have less := shorter second (by simp) stands'
        have notMore := notLonger' first (by simp) stands
        omega

/-- The entry for a text is the first one in the order of trying that has a placeholder in it. -/
theorem find?_eq_some_iff {map : SubstitutionMap} {text : Text} {entry : Text × Text} :
    map.longestFirst.find? (fun entry => Placeholder.occurs entry.1.toList text.toList) =
      some entry ↔ map.Chooses text entry := by
  refine ⟨chooses_of_find?, fun chosen => ?_⟩
  cases found : map.longestFirst.find? fun entry =>
      Placeholder.occurs entry.1.toList text.toList with
  | some other => rw [chooses_unique (chooses_of_find? found) chosen]
  | none =>
      obtain ⟨before, after, same, stands, -⟩ := chosen
      have member : entry ∈ map.longestFirst := mem_longestFirst.mpr (by simp [same])
      have missed := List.find?_eq_none.mp found entry member
      exact absurd ((Placeholder.occurs_iff_stands _ _).mpr stands) missed

theorem replace_of_chooses {map : SubstitutionMap} {text : Text} {entry : Text × Text}
    (chosen : map.Chooses text entry) : map.replace text = entry.2 := by
  simp only [replace, find?_eq_some_iff.mpr chosen]

theorem chooses_or_absent (map : SubstitutionMap) (text : Text) :
    (∃ entry, map.Chooses text entry) ∨
      (∀ entry ∈ map, ¬ Stands entry.1.toList text.toList) ∧ map.replace text = text := by
  cases found : map.longestFirst.find? fun entry =>
      Placeholder.occurs entry.1.toList text.toList with
  | some entry => exact .inl ⟨entry, chooses_of_find? found⟩
  | none =>
      refine .inr ⟨fun entry member stands => ?_, by simp [replace, found]⟩
      have missed := List.find?_eq_none.mp found entry (mem_longestFirst.mpr member)
      exact missed ((Placeholder.occurs_iff_stands _ _).mpr stands)

/-! ### Ranks -/

/-- An entry goes before another one: its key is longer, or is as long and stands earlier. -/
def Precedes (map : SubstitutionMap) (first second : Text × Text) : Prop :=
  second.1.length < first.1.length ∨
    second.1.length = first.1.length ∧ map.idxOf first < map.idxOf second

theorem chooses_iff {map : SubstitutionMap} {text : Text} {entry : Text × Text}
    (distinct : map.Nodup) : map.Chooses text entry ↔
      entry ∈ map ∧ Stands entry.1.toList text.toList ∧
        ∀ other ∈ map, other ≠ entry → Stands other.1.toList text.toList →
          map.Precedes entry other := by
  -- Of equally long keys the earlier one comes first, so places in the map decide.
  constructor
  · rintro ⟨before, after, rfl, stands, shorter, notLonger⟩
    refine ⟨by simp, stands, fun other member differs present => ?_⟩
    rcases List.mem_append.mp member with early | late
    · exact .inl (shorter other early present)
    · have late : other ∈ after := (List.mem_cons.mp late).resolve_left differs
      rcases Nat.lt_or_eq_of_le (notLonger other late present) with less | same
      · exact .inl less
      · have placed := (List.pairwise_append.mp (pairwise_idxOf distinct)).2.1
        exact .inr ⟨same, (List.pairwise_cons.mp placed).1 other late⟩
  · rintro ⟨member, stands, first⟩
    obtain ⟨before, after, rfl⟩ := List.append_of_mem member
    obtain ⟨-, behind, apart⟩ := List.nodup_append.mp distinct
    refine ⟨before, after, rfl, stands, fun other early present => ?_, fun other late present => ?_⟩
    · have differs : other ≠ entry := apart other early entry List.mem_cons_self
      rcases first other (List.mem_append_left _ early) differs present with less | ⟨-, earlier⟩
      · exact less
      · have placed := (List.pairwise_append.mp (pairwise_idxOf distinct)).2.2 other early entry
          List.mem_cons_self
        exact absurd earlier (Nat.lt_asymm placed)
    · have differs : other ≠ entry := by
        rintro rfl
        exact (List.nodup_cons.mp behind).1 late
      rcases first other (by simp [late]) differs present with less | ⟨same, -⟩
      · exact Nat.le_of_lt less
      · exact Nat.le_of_eq same

theorem Precedes.asymm {map : SubstitutionMap} {first second : Text × Text}
    (before : map.Precedes first second) : ¬ map.Precedes second first := by
  unfold Precedes at before ⊢
  omega

theorem precedes_or {map : SubstitutionMap} {first second : Text × Text}
    (member : first ∈ map) (differs : first ≠ second) :
    map.Precedes first second ∨ map.Precedes second first := by
  have apart : map.idxOf first ≠ map.idxOf second := mt (List.idxOf_inj member).mp differs
  unfold Precedes
  omega

/-- An entry is passed over if its key has no placeholder in the text, or one that goes before it
has one too. -/
theorem not_chooses_iff {map : SubstitutionMap} {text : Text} {entry : Text × Text}
    (distinct : map.Nodup) (member : entry ∈ map) : ¬ map.Chooses text entry ↔
      (Stands entry.1.toList text.toList →
        ∃ other ∈ map, Stands other.1.toList text.toList ∧ map.Precedes other entry) := by
  rw [chooses_iff distinct]
  constructor
  · intro passed stands
    by_contra none
    refine passed ⟨member, stands, fun other member' differs present => ?_⟩
    refine (precedes_or member differs.symm).resolve_right fun before => ?_
    exact none ⟨other, member', present, before⟩
  · rintro ahead ⟨-, stands, first⟩
    obtain ⟨other, member', present, before⟩ := ahead stands
    by_cases same : other = entry
    · rw [same] at before
      exact before.asymm before
    · exact before.asymm (first other member' same present)

end SecretFill.SubstitutionMap
