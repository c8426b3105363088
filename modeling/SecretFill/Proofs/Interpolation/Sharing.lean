import SecretFill.Proofs.Forest.Planting
import SecretFill.Proofs.Forest.Tally
import SecretFill.Proofs.Interpolation.Substitution
import SecretFill.Proofs.Walker.Session
/-!
Substitution in documents that share. What one sees of the result is the same as if the documents
had been written out before; but a text in a shared container is replaced, and recorded, once only.
-/

namespace SecretFill

open SecretFill.Data SecretFill.Forest

def SubstitutionMap.matchesText (map : SubstitutionMap) (text : Text) : Bool :=
  map.any fun entry => Placeholder.occurs entry.1.toList text.toList

/-- Substitution in a stream and in an unrolled copy of it. -/
structure SeesThrough (map : SubstitutionMap) (stream copy result result' : Stream)
    (made made' : List Substitution) : Prop where
  done : substitute map stream = .ok (result, made)
  copied : substitute map copy = .ok (result', made')
  trees : ∃ trees, List.Forall₂ (Unfolds result.cells) result.roots trees ∧
    List.Forall₂ (Unfolds result'.cells) result'.roots trees
  cells : ∀ (index : Nat) cell, stream.cells[index]? = some cell →
    result.cells[index]? = some cell ∧ result'.cells[index]? = some cell
  counted : ∃ counts, List.Forall₂ (Tally map.matchesText stream.cells) stream.roots counts ∧
    made.length = counts.sum
  fewer : made.length ≤ made'.length

/-! ### Records of passes -/

theorem Walker.visitAll_records (cells : Array Cell) (plots : List Plot) (state : Walker × Forest) :
    (visitAll cells plots state).1.substitutions.length + state.2.replaced =
      state.1.substitutions.length + (visitAll cells plots state).2.replaced := by
  induction plots generalizing state with
  | nil => rfl
  | cons plot rest ih =>
      obtain ⟨walker, forest⟩ := state
      have first := walker.visit_records cells forest plot.node plot.path
      have others := ih (walker.visit cells forest plot.node plot.path)
      have onward : visitAll cells (plot :: rest) (walker, forest) =
          visitAll cells rest (walker.visit cells forest plot.node plot.path) := rfl
      rw [onward]
      dsimp only
      omega

theorem applyForm_records (cells : Array Cell) (plots : List Plot) (key value : Text)
    (state : List Substitution × Forest) (form : Placeholder.Form) :
    (applyForm cells plots key value state form).1.length + state.2.replaced =
      state.1.length + (applyForm cells plots key value state form).2.replaced := by
  have made := Walker.visitAll_records cells plots (Walker.new key form value, state.2)
  simp only [Walker.new, List.length_nil] at made
  simp only [applyForm, Walker.new, List.length_append]
  omega

theorem applyKeys_records (cells : Array Cell) (plots : List Plot) (entries : List (Text × Text))
    (state : List Substitution × Forest) :
    (entries.foldl (applyKey cells plots) state).1.length + state.2.replaced =
      state.1.length + (entries.foldl (applyKey cells plots) state).2.replaced := by
  induction entries generalizing state with
  | nil => rfl
  | cons entry rest ih =>
      have braced := applyForm_records cells plots entry.1 entry.2 state .braced
      have bare := applyForm_records cells plots entry.1 entry.2
        (applyForm cells plots entry.1 entry.2 state .braced) .bare
      have others := ih (applyKey cells plots state entry)
      simp only [applyKey, List.foldl_cons, List.foldl_nil] at others ⊢
      omega

theorem applyKeys_size (cells : Array Cell) (plots : List Plot) (entries : List (Text × Text))
    (state : List Substitution × Forest) :
    (entries.foldl (applyKey cells plots) state).2.leaves.size = state.2.leaves.size := by
  induction entries generalizing state with
  | nil => rfl
  | cons entry rest ih =>
      rw [List.foldl_cons, ih]
      simp only [applyKey, List.foldl_cons, List.foldl_nil, applyForm, Walker.visitAll_eq,
        Walker.visitPlaces_size]

/-! ### Leaves that are replaced -/

theorem settled_substituted (map : SubstitutionMap) (value : Value) :
    (settled map.longestFirst ⟨value, false⟩).substituted = value.wanted map.matchesText := by
  cases value with
  | cell index => rfl
  | atom atom =>
      cases atom with
      | text text =>
          have same : map.matchesText text = map.longestFirst.any fun entry =>
              Placeholder.occurs entry.1.toList text.toList :=
            (List.mergeSort_perm map _).symm.any_eq
          rw [Value.wanted, same, ← List.isSome_find?, settled]
          cases map.longestFirst.find? fun entry =>
            Placeholder.occurs entry.1.toList text.toList <;> rfl
      | _ => rfl

theorem replaced_of_settled {map : SubstitutionMap} {forest later : Forest}
    (leaves : ∀ number : Nat, later.leaves[number]? =
      forest.leaves[number]?.map (settled map.longestFirst))
    (unsubstituted : ∀ leaf ∈ forest.leaves, leaf.substituted = false) :
    later.replaced = forest.wanted map.matchesText := by
  have same : later.leaves = forest.leaves.map (settled map.longestFirst) := by
    refine Array.ext_getElem? fun number => ?_
    rw [leaves, Array.getElem?_map]
  rw [Forest.replaced, same, Array.toList_map, List.countP_map, Forest.wanted]
  refine List.countP_congr fun leaf member => ?_
  obtain ⟨value, marked⟩ := leaf
  cases unsubstituted ⟨value, marked⟩ (by simpa using member)
  rw [Function.comp_apply, settled_substituted]

theorem sown_of_plants {cells : Array Cell} {roots : List Value} {forest later : Forest}
    {plots : List Plot} (plants : Plants cells roots forest plots later) (sown : Sown cells forest) :
    Sown cells later := by
  induction plants with
  | nil => exact sown
  | cons first _ ih => exact ih (.plant sown first)

theorem substitute_records {map : SubstitutionMap} {stream result : Stream} {plots : List Plot}
    {forest : Forest} {made : List Substitution}
    (planted : plantAll stream.cells stream.roots.length 0 stream.roots Forest.empty =
      .ok (plots, forest)) (done : substitute map stream = .ok (result, made)) :
    made.length = forest.wanted map.matchesText := by
  obtain ⟨ordered, -, stands⟩ := plantAll_faithful ordered_empty planted
  have plants := plants_of_plantAll planted
  have sown := sown_of_plants plants .empty
  obtain ⟨_, later, again, passes⟩ := substitute_of_planted map planted
  cases done.symm.trans again
  have settles := passes_settle ordered stands passes
  have sizes := applyKeys_size stream.cells plots map.longestFirst ([], forest)
  have records := applyKeys_records stream.cells plots map.longestFirst ([], forest)
  rw [passes] at sizes records
  have leaves : ∀ number : Nat, later.leaves[number]? =
      forest.leaves[number]?.map (settled map.longestFirst) := by
    intro number
    by_cases inside : number < forest.leaves.size
    · -- Every leaf has grown with some document, so the passes come to it.
      rcases (plants_rooted plants).2 number inside with old | ⟨plot, member, below⟩
      · cases old
      · exact settles plot member number below
    · have outside : later.leaves.size ≤ number := by
        dsimp only at sizes
        omega
      rw [Array.getElem?_eq_none outside, Array.getElem?_eq_none (Nat.le_of_not_lt inside)]
      rfl
  have none := replaced_of_unsubstituted sown.unsubstituted
  have all := replaced_of_settled leaves sown.unsubstituted
  dsimp only [List.length_nil] at records
  omega

/-! ### The documents written out -/

theorem substitute_unnamed (map : SubstitutionMap) {stream : Stream}
    (acyclic : ∀ root ∈ stream.roots, ¬ Cyclic stream.cells root)
    (unnamed : ∃ root ∈ stream.roots, ¬ Named stream.cells root) :
    substitute map stream = .error .unnamedKey := by
  rw [substitute, plantAll_unnamed acyclic unnamed]
  rfl

theorem acyclic_of_trees {cells : Array Cell} {roots : List Value} {trees : List Tree}
    (unfolds : List.Forall₂ (Unfolds cells) roots trees) : ∀ root ∈ roots, ¬ Cyclic cells root := by
  intro root member
  obtain ⟨tree, -, unfolds⟩ := forall₂_left unfolds member
  exact unfolds.grounded.acyclic

theorem named_of_trees {cells other : Array Cell} {roots others : List Value} {trees : List Tree}
    (unfolds : List.Forall₂ (Unfolds cells) roots trees)
    (unfolds' : List.Forall₂ (Unfolds other) others trees) (named : ∀ root ∈ roots, Named cells root) :
    ∀ root ∈ others, Named other root := by
  intro root member
  obtain ⟨tree, inside, there⟩ := forall₂_left unfolds' member
  obtain ⟨origin, here, unfolds⟩ := forall₂_left unfolds.flip inside
  exact (named origin here).of_alike unfolds there

/-- When all keys have a text, substitution sees through shared containers. -/
theorem seesThrough_of_named (map : SubstitutionMap) {stream copy : Stream}
    (unrolls : Unrolls stream copy) (named : ∀ root ∈ stream.roots, Named stream.cells root) :
    ∃ result made result' made', SeesThrough map stream copy result result' made made' := by
  obtain ⟨trees, unfolds, unfolds'⟩ := unrolls.trees
  obtain ⟨⟨plots, forest⟩, planted⟩ := plantAll_accepts (acyclic_of_trees unfolds) named
    stream.roots.length 0 Forest.empty
  obtain ⟨⟨plots', forest'⟩, planted'⟩ := plantAll_accepts (acyclic_of_trees unfolds')
    (named_of_trees unfolds unfolds' named) copy.roots.length 0 Forest.empty
  obtain ⟨result, made, done, replaced, kept⟩ := substitute_replaces map planted
  obtain ⟨result', made', done', replaced', kept'⟩ := substitute_replaces map planted'
  have records := substitute_records planted done
  have records' := substitute_records planted' done'
  have plants := plants_of_plantAll planted
  obtain ⟨counts, tallies, total⟩ := plants_tally map.matchesText plants
  have most := (plants_measured map.matchesText plants unfolds).1
  have least := (plants_measured map.matchesText (plants_of_plantAll planted') unfolds').2
    unrolls.unshared
  have none : Forest.empty.wanted map.matchesText = 0 := rfl
  -- The copy makes at least as many records as its trees have texts, the stream at most as many.
  refine ⟨result, made, result', made', done, done', ⟨_, replaced trees unfolds,
    replaced' trees unfolds'⟩, fun index cell found => ?_, ⟨counts, tallies, by omega⟩, by omega⟩
  have inside := (Array.getElem?_eq_some_iff.mp found).1
  have found' := unrolls.cells index cell found
  have inside' := (Array.getElem?_eq_some_iff.mp found').1
  exact ⟨(kept index inside).trans found, (kept' index inside').trans found'⟩

/-- Substitution sees through shared containers. A stream without cycles can be unrolled, and for
every copy in which no container stands at two places: if a key has no text, substitution refuses
the stream and the copy alike; otherwise both results have the same trees, and in the stream there
is one record for each text with a placeholder, counted once in each container, never more than in
the copy. -/
theorem substitute_sees_through_sharing (map : SubstitutionMap) (stream : Stream)
    (closed : stream.Closed) (acyclic : ∀ root ∈ stream.roots, ¬ Cyclic stream.cells root) :
    (∃ copy, Unrolls stream copy) ∧
      ∀ copy, Unrolls stream copy →
        (∀ root ∈ stream.roots, Named stream.cells root) ∧
            (∃ result made result' made',
              SeesThrough map stream copy result result' made made') ∨
          (∃ root ∈ stream.roots, ¬ Named stream.cells root) ∧
            substitute map stream = .error .unnamedKey ∧
            substitute map copy = .error .unnamedKey := by
  constructor
  · have each : ∀ root ∈ stream.roots, ∃ tree, Unfolds stream.cells root tree := fun root member =>
      (grounded_of_acyclic (acyclic root member)).unfolds closed.cells (closed.roots root member)
    obtain ⟨trees, unfolds⟩ := exists_forall₂ each
    exact exists_unrolling unfolds
  · intro copy unrolls
    by_cases named : ∀ root ∈ stream.roots, Named stream.cells root
    · exact .inl ⟨named, seesThrough_of_named map unrolls named⟩
    · obtain ⟨trees, unfolds, unfolds'⟩ := unrolls.trees
      have unnamed : ∃ root ∈ stream.roots, ¬ Named stream.cells root := by
        simpa only [not_forall, exists_prop] using named
      have unnamed' : ∃ root ∈ copy.roots, ¬ Named copy.cells root := by
        by_contra none
        refine named (named_of_trees unfolds' unfolds fun root member => ?_)
        by_contra nameless
        exact none ⟨root, member, nameless⟩
      exact .inr ⟨unnamed, substitute_unnamed map acyclic unnamed,
        substitute_unnamed map (acyclic_of_trees unfolds') unnamed'⟩

/-- A list that holds one mapping twice, seen through. -/
theorem substitute_shared_mapping :
    let stream : Stream := ⟨#[.list [.atom (.text "$A"), .cell 1, .cell 1],
      .mapping [(.atom (.text "k"), .atom (.text "x $\x7bA\x7d"))]], [.cell 0]⟩
    ∃ copy, Unrolls stream copy ∧ ∃ result made result' made',
      SeesThrough [("A", "$A")] stream copy result result' made made' := by
  intro stream
  have accepted : Forest.empty.plant stream.cells (.cell 0) "$" = .ok (.branch 1, _) := rfl
  obtain ⟨acyclic, named⟩ :=
    (plant_ok_iff stream.cells (.cell 0) "$" Forest.empty).mp ⟨_, accepted⟩
  have acyclic' : ∀ root ∈ stream.roots, ¬ Cyclic stream.cells root := by
    intro root member
    rw [List.mem_singleton.mp member]
    exact acyclic
  obtain ⟨⟨copy, unrolls⟩, sees⟩ :=
    substitute_sees_through_sharing [("A", "$A")] stream (by decide) acyclic'
  rcases sees copy unrolls with ⟨-, through⟩ | ⟨⟨root, member, unnamed⟩, -⟩
  · exact ⟨copy, unrolls, through⟩
  · rw [List.mem_singleton.mp member] at unnamed
    exact absurd named unnamed

end SecretFill
