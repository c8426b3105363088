import SecretFill.Proofs.Forest.Growth
/-!
Which branch a container has become. A container grows once, into a branch of its own (`Linked`),
and the branch stands over what the parts of the container have become: so places of a document that
share a container share a branch, and no others do.
-/

namespace SecretFill.Forest

open Relation
open SecretFill.Data

/-- A node is what a value has become: a leaf that holds it, or the branch of a container. -/
inductive Stands (cells : Array Cell) (growth : Growth) : Value → Node → Prop
  | leaf {value : Value} {number : Nat}
      (simple : ∀ index, value = .cell index → ¬ IsContainer cells index)
      (found : growth.forest.leaves[number]? = some ⟨value, false⟩) :
      Stands cells growth value (.leaf number)
  | branch {index number : Nat} (container : IsContainer cells index)
      (found : (index, number) ∈ growth.finished) :
      Stands cells growth (.cell index) (.branch number)

/-- Every finished container has a branch of its own, over what its parts have become. -/
structure Growth.Linked (cells : Array Cell) (growth : Growth) : Prop where
  distinct : growth.done.Nodup
  apart : (growth.finished.map Prod.snd).Nodup
  branch : ∀ index number, (index, number) ∈ growth.finished → ∃ cell nodes,
    cells[index]? = some cell ∧ cell.isContainer = true ∧
      growth.forest.branches[number]? = some (branchOf nodes cell) ∧
      List.Forall₂ (Stands cells growth) cell.parts nodes

structure Adds (cells : Array Cell) (ancestors : List Nat) (values : List Value)
    (before after : Growth) : Prop where
  extended : Extends before.forest after.forest
  kept : before.finished ⊆ after.finished
  reached : ∀ index ∈ after.done, index ∈ before.done ∨
    index ∉ ancestors ∧ ∃ value ∈ values, Reaches cells value (.cell index)

variable {cells : Array Cell} {ancestors : List Nat} {value : Value} {values : List Value}
  {node : Node} {nodes : List Node} {growth middle after : Growth} {index : Nat}

theorem Stands.mono (stands : Stands cells growth value node)
    (extended : Extends growth.forest after.forest) (kept : growth.finished ⊆ after.finished) :
    Stands cells after value node := by
  cases stands with
  | leaf simple found => exact .leaf simple (extended.leaves _ _ found)
  | branch container found => exact .branch container (kept found)

theorem Adds.refl (growth : Growth) : Adds cells ancestors values growth growth :=
  ⟨extends_refl _, List.Subset.refl _, fun _ member => .inl member⟩

theorem Adds.cons (first : Adds cells ancestors [value] growth middle)
    (rest : Adds cells ancestors values middle after) :
    Adds cells ancestors (value :: values) growth after := by
  refine ⟨first.extended.trans rest.extended, List.Subset.trans first.kept rest.kept,
    fun index member => ?_⟩
  rcases rest.reached index member with early | ⟨outside, inner, inside, reaches⟩
  · rcases first.reached index early with old | ⟨outside, _, here, reaches⟩
    · exact .inl old
    · cases List.mem_singleton.mp here
      exact .inr ⟨outside, value, List.mem_cons_self, reaches⟩
  · exact .inr ⟨outside, inner, List.mem_cons_of_mem _ inside, reaches⟩

theorem Growth.Linked.addLeaf (linked : growth.Linked cells) (value : Value) :
    (growth.addLeaf value).2.Linked cells := by
  refine ⟨linked.distinct, linked.apart, fun index number member => ?_⟩
  obtain ⟨cell, nodes, found, container, branch, stands⟩ := linked.branch index number member
  have extended := addLeaf_extends growth value
  exact ⟨cell, nodes, found, container, extended.branches _ _ branch,
    stands.imp fun _ _ stands => stands.mono extended (List.Subset.refl _)⟩

theorem Growth.Linked.addBranch {cell : Cell} (linked : growth.Linked cells)
    (found : cells[index]? = some cell) (container : cell.isContainer = true)
    (fresh : index ∉ growth.done) (stands : List.Forall₂ (Stands cells growth) cell.parts nodes) :
    (growth.addBranch index (branchOf nodes cell)).2.Linked cells := by
  have extended := addBranch_extends growth index (branchOf nodes cell)
  have kept : growth.finished ⊆ (growth.addBranch index (branchOf nodes cell)).2.finished :=
    List.subset_cons_self _ _
  refine ⟨List.nodup_cons.mpr ⟨fresh, linked.distinct⟩,
    List.nodup_cons.mpr ⟨fun again => ?_, linked.apart⟩, fun other number member => ?_⟩
  · -- The new branch has the next number, and those of all others are taken.
    obtain ⟨⟨other, number⟩, member, same⟩ := List.mem_map.mp again
    obtain ⟨_, _, _, _, branch, _⟩ := linked.branch other number member
    have below := (Array.getElem?_eq_some_iff.mp branch).1
    exact absurd same (Nat.ne_of_lt below)
  · rcases List.mem_cons.mp member with same | old
    · cases same
      exact ⟨cell, nodes, found, container, Array.getElem?_push_size,
        stands.imp fun _ _ stands => stands.mono extended kept⟩
    · obtain ⟨cell, nodes, found, container, branch, stands⟩ := linked.branch other number old
      exact ⟨cell, nodes, found, container, extended.branches _ _ branch,
        stands.imp fun _ _ stands => stands.mono extended kept⟩

theorem linked_row (row : Row (fun value growth node after => growth.Linked cells →
      after.Linked cells ∧ Adds cells ancestors [value] growth after ∧ Stands cells after value node)
      values growth nodes after) (linked : growth.Linked cells) :
    after.Linked cells ∧ Adds cells ancestors values growth after ∧
      List.Forall₂ (Stands cells after) values nodes := by
  induction row with
  | nil => exact ⟨linked, .refl _, .nil⟩
  | cons first _ ih =>
      obtain ⟨linked', early, stands⟩ := first linked
      obtain ⟨linked'', late, others⟩ := ih linked'
      exact ⟨linked'', early.cons late, .cons (stands.mono late.extended late.kept) others⟩

/-- Growing keeps containers linked to their branches, and a value stands at its node then. -/
theorem grow_linked {depth : Nat} {path : Text}
    (grown : grow cells depth ancestors value path growth = .ok (node, after))
    (linked : growth.Linked cells) :
    after.Linked cells ∧ Adds cells ancestors [value] growth after ∧
      Stands cells after value node := by
  refine grow_induction (motive := fun ancestors value growth node after => growth.Linked cells →
    after.Linked cells ∧ Adds cells ancestors [value] growth after ∧ Stands cells after value node)
    ?_ ?_ ?_ grown linked
  · intro ancestors value growth simple linked
    refine ⟨linked.addLeaf value, ⟨addLeaf_extends growth value, List.Subset.refl _,
      fun _ member => .inl member⟩, .leaf simple Array.getElem?_push_size⟩
  · intro ancestors index number growth container past linked
    exact ⟨linked, .refl _, .branch container (mem_of_lookup past)⟩
  · intro ancestors index cell growth nodes middle found container outside absent row linked
    obtain ⟨linked', adds, stands⟩ := linked_row row linked
    -- Nothing below reaches up: the container itself has not grown in the meantime.
    have fresh : index ∉ middle.done := by
      intro again
      rcases adds.reached index again with old | ⟨apart, _⟩
      · exact mem_done.mp old absent
      · exact apart List.mem_cons_self
    refine ⟨linked'.addBranch found container fresh stands, ⟨?_, ?_, ?_⟩,
      .branch ⟨cell, found, container⟩ List.mem_cons_self⟩
    · exact adds.extended.trans (addBranch_extends middle index (branchOf nodes cell))
    · exact List.Subset.trans adds.kept (List.subset_cons_self _ _)
    · intro other member
      rcases List.mem_cons.mp member with rfl | early
      · exact .inr ⟨outside, _, List.mem_cons_self, .refl⟩
      · rcases adds.reached other early with old | ⟨apart, part, inside, reaches⟩
        · exact .inl old
        · exact .inr ⟨fun above => apart (List.mem_cons_of_mem _ above), _, List.mem_cons_self,
            .head ⟨cell, found, inside⟩ reaches⟩

theorem linked_start (cells : Array Cell) (forest : Forest) : Growth.Linked cells ⟨forest, []⟩ :=
  ⟨List.nodup_nil, List.nodup_nil, fun _ _ member => by cases member⟩

end SecretFill.Forest
