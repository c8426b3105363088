import Mathlib.Data.List.Nodup
import Mathlib.Data.Set.Function
import SecretFill.Proofs.Forest.Linked
import SecretFill.Proofs.Forest.Planting
import SecretFill.Proofs.Interpolation.Substitution
import SecretFill.Proofs.Walker.Session
/-!
Documents that come back from their trees. Whatever walkers have done to the trees, the data of a
tree is the document again with the same sharing: its containers are in bijection with those of the
document, and what is no container stands as it stood unless its leaf was replaced.
-/

namespace SecretFill

open Relation
open SecretFill.Data SecretFill.Forest

namespace Forest

/-- What the data of a tree has at a node in the place of a value: the image of a container, a value
that was kept, or that of a walker that looks for the text there. -/
inductive Mirrors (cells : Array Cell) (walkers : List Walker) (forest : Forest)
    (image : Nat → Nat) : Value → Node → Value → Prop
  | container {index number : Nat} (container : IsContainer cells index)
      (same : image index = cells.size + number) :
      Mirrors cells walkers forest image (.cell index) (.branch number) (.cell (image index))
  | kept {value : Value} {number : Nat}
      (simple : ∀ index, value = .cell index → ¬ IsContainer cells index)
      (leaf : forest.leaves[number]? = some ⟨value, false⟩) :
      Mirrors cells walkers forest image value (.leaf number) value
  | replaced {text : Text} {walker : Walker} {number : Nat} (member : walker ∈ walkers)
      (hit : walker.matchesText text = true)
      (leaf : forest.leaves[number]? = some ⟨.atom (.text walker.value), true⟩) :
      Mirrors cells walkers forest image (.atom (.text text)) (.leaf number)
        (.atom (.text walker.value))

/-- A container and its image are of one kind, with the same keys in the same order, and part for
part the image has what stands at the nodes of the container's branch. -/
structure Reflected (cells : Array Cell) (walkers : List Walker) (forest : Forest) (image : Nat → Nat)
    (index : Nat) (cell : Cell) (nodes : List Node) (parts : List Value) : Prop where
  found : cells[index]? = some cell
  branch : ∃ number, image index = cells.size + number ∧
    forest.branches[number]? = some (branchOf nodes cell)
  filled : (forest.allCells cells)[image index]? = some (cell.refill parts)
  sizes : cell.parts.length = nodes.length ∧ cell.parts.length = parts.length
  each : ∀ (place : Nat) part node other, cell.parts[place]? = some part →
    nodes[place]? = some node → parts[place]? = some other →
    Mirrors cells walkers forest image part node other

structure RoundTrip (cells : Array Cell) (root : Value) (walkers : List Walker) (forest : Forest)
    (node : Node) (image : Nat → Nat) (value : Value) : Prop where
  result : forest.toStream cells [node] = ⟨forest.allCells cells, [value]⟩
  stands : Mirrors cells walkers forest image root node value
  bijective : Set.BijOn image (containers cells root) (containers (forest.allCells cells) value)
  alike : ∀ index ∈ containers cells root, ∃ cell nodes parts,
    Reflected cells walkers forest image index cell nodes parts

/-- What walkers may have made of a forest. -/
structure Worked (walkers : List Walker) (forest later : Forest) : Prop where
  branches : later.branches = forest.branches
  leaves : ∀ (number : Nat) value, forest.leaves[number]? = some ⟨value, false⟩ →
    later.leaves[number]? = some ⟨value, false⟩ ∨
      ∃ text, value = .atom (.text text) ∧ ∃ walker ∈ walkers, walker.matchesText text = true ∧
        later.leaves[number]? = some ⟨.atom (.text walker.value), true⟩

def Growth.image (cells : Array Cell) (growth : Growth) (index : Nat) : Nat :=
  cells.size + (growth.finished.lookup index).getD 0

theorem lookup_of_mem {entries : List (Nat × Nat)} (distinct : (entries.map Prod.fst).Nodup)
    {index number : Nat} (member : (index, number) ∈ entries) :
    entries.lookup index = some number := by
  induction entries with
  | nil => cases member
  | cons entry rest ih =>
      obtain ⟨absent, distinct⟩ := List.nodup_cons.mp distinct
      rcases List.mem_cons.mp member with rfl | later
      · simp
      · have differs : index ≠ entry.1 := by
          intro same
          exact absent (List.mem_map.mpr ⟨_, later, same⟩)
        rw [List.lookup_cons, beq_eq_false_iff_ne.mpr differs]
        exact ih distinct later

section Image

variable {cells : Array Cell} {growth : Growth} {walkers : List Walker} {later : Forest}
  {value part : Value} {node : Node} (linked : growth.Linked cells)
  (worked : Worked walkers growth.forest later)

theorem image_of_finished {index number : Nat} (linked : growth.Linked cells)
    (member : (index, number) ∈ growth.finished) : growth.image cells index = cells.size + number := by
  rw [Growth.image, lookup_of_mem linked.distinct member, Option.getD_some]

include linked worked

theorem Stands.mirrors (stands : Stands cells growth value node) :
    Mirrors cells walkers later (growth.image cells) value node
      (node.toValue later.leaves cells.size) := by
  cases stands with
  | branch container member =>
      have same := image_of_finished linked member
      rw [Node.toValue, ← same]
      exact .container container same
  | leaf simple found =>
      rcases worked.leaves _ _ found with kept | ⟨text, rfl, walker, member, hit, replaced⟩
      · simp only [Node.toValue, kept, Option.map_some, Option.getD_some]
        exact .kept simple kept
      · simp only [Node.toValue, replaced, Option.map_some, Option.getD_some]
        exact .replaced member hit replaced

theorem reflected_of_finished {index number : Nat} (member : (index, number) ∈ growth.finished) :
    ∃ cell nodes, List.Forall₂ (Stands cells growth) cell.parts nodes ∧
      Reflected cells walkers later (growth.image cells) index cell nodes
        (nodes.map (Node.toValue later.leaves cells.size)) := by
  obtain ⟨cell, nodes, found, container, branch, stands⟩ := linked.branch index number member
  have same := image_of_finished linked member
  rw [← worked.branches] at branch
  have sizes := stands.length_eq
  refine ⟨cell, nodes, stands, found, ⟨number, same, branch⟩, ?_, ⟨sizes, by simpa using sizes⟩, ?_⟩
  · rw [same, allCells_branch cells container branch]
  · intro place part node other here there filled
    rw [List.getElem?_map, there, Option.map_some] at filled
    cases filled
    obtain ⟨inParts, rfl⟩ := List.getElem?_eq_some_iff.mp here
    obtain ⟨inNodes, rfl⟩ := List.getElem?_eq_some_iff.mp there
    exact (stands.get inParts inNodes).mirrors linked worked

theorem inside_branch {index number : Nat} (member : (index, number) ∈ growth.finished) :
    ∃ parts nodes, List.Forall₂ (Stands cells growth) parts nodes ∧
      (∀ part, Inside cells (.cell index) part ↔ part ∈ parts) ∧
      ∀ other, Inside (later.allCells cells) (.cell (cells.size + number)) other ↔
        other ∈ nodes.map (Node.toValue later.leaves cells.size) := by
  obtain ⟨cell, nodes, found, container, -⟩ := linked.branch index number member
  obtain ⟨again, nodes, stands, reflected⟩ := reflected_of_finished linked worked member
  cases found.symm.trans reflected.found
  have filled := reflected.filled
  rw [image_of_finished linked member] at filled
  refine ⟨cell.parts, nodes, stands, inside_cell found, fun other => ?_⟩
  rw [inside_cell filled, parts_refill container reflected.sizes.2]

theorem simple_leaf {number : Nat} (within : value.Within cells.size)
    (stands : Stands cells growth value (.leaf number)) {index : Nat}
    (same : (Node.leaf number).toValue later.leaves cells.size = .cell index) :
    ¬ IsContainer (later.allCells cells) index := by
  have mirrors := stands.mirrors linked worked
  rintro ⟨cell, found, container⟩
  rw [same] at mirrors
  cases mirrors with
  | kept simple leaf =>
      rw [allCells_old later within] at found
      exact simple index rfl ⟨cell, found, container⟩

theorem Stands.forth (stands : Stands cells growth value node) (inside : Inside cells value part) :
    ∃ inner, Stands cells growth part inner ∧
      Inside (later.allCells cells) (node.toValue later.leaves cells.size)
        (inner.toValue later.leaves cells.size) := by
  cases stands with
  | leaf simple found =>
      obtain ⟨index, same, container⟩ := isContainer_of_part inside
      exact absurd container (simple index same)
  | branch container member =>
      obtain ⟨parts, nodes, stands, document, data⟩ := inside_branch linked worked member
      obtain ⟨inner, below, stands⟩ := forall₂_left stands ((document part).mp inside)
      exact ⟨inner, stands, (data _).mpr (List.mem_map_of_mem below)⟩

theorem Stands.back (stands : Stands cells growth value node) (within : value.Within cells.size)
    {other : Value}
    (inside : Inside (later.allCells cells) (node.toValue later.leaves cells.size) other) :
    ∃ part inner, Inside cells value part ∧ Stands cells growth part inner ∧
      other = inner.toValue later.leaves cells.size := by
  cases stands with
  | leaf simple found =>
      obtain ⟨index, same, container⟩ := isContainer_of_part inside
      exact absurd container (simple_leaf linked worked within (.leaf simple found) same)
  | branch container member =>
      obtain ⟨parts, nodes, stands, document, data⟩ := inside_branch linked worked member
      obtain ⟨inner, below, rfl⟩ := List.mem_map.mp ((data other).mp inside)
      obtain ⟨part, here, stands⟩ := forall₂_left stands.flip below
      exact ⟨part, inner, (document part).mpr here, stands, rfl⟩

theorem Stands.reaches_forth {goal : Value} (stands : Stands cells growth value node)
    (reaches : Reaches cells value goal) :
    ∃ inner, Stands cells growth goal inner ∧
      Reaches (later.allCells cells) (node.toValue later.leaves cells.size)
        (inner.toValue later.leaves cells.size) := by
  induction reaches with
  | refl => exact ⟨node, stands, .refl⟩
  | tail _ inside ih =>
      obtain ⟨middle, stands', reaches⟩ := ih
      obtain ⟨inner, stands'', further⟩ := stands'.forth linked worked inside
      exact ⟨inner, stands'', reaches.tail further⟩

theorem Stands.reaches_back (closed : ClosedCells cells) (stands : Stands cells growth value node)
    (within : value.Within cells.size) {other : Value}
    (reaches : Reaches (later.allCells cells) (node.toValue later.leaves cells.size) other) :
    ∃ goal inner, Reaches cells value goal ∧ Stands cells growth goal inner ∧
      other = inner.toValue later.leaves cells.size := by
  induction reaches with
  | refl => exact ⟨value, node, .refl, stands, rfl⟩
  | tail _ inside ih =>
      obtain ⟨middle, inner, early, stands', rfl⟩ := ih
      have inRange := closed.within_of_reaches within early
      obtain ⟨part, inner', further, stands'', same⟩ := stands'.back linked worked inRange inside
      exact ⟨part, inner', early.tail further, stands'', same⟩

theorem finished_of_reached {root : Value} (stands : Stands cells growth root node) {index : Nat}
    (reached : index ∈ containers cells root) :
    ∃ number, (index, number) ∈ growth.finished ∧
      cells.size + number ∈
        containers (later.allCells cells) (node.toValue later.leaves cells.size) := by
  -- The way down to the container is copied step by step to its branch in the data.
  obtain ⟨container, reaches⟩ := reached
  obtain ⟨inner, stands', reaches'⟩ := stands.reaches_forth linked worked reaches
  cases stands' with
  | leaf simple found => exact absurd container (simple index rfl)
  | @branch _ number _ member =>
      obtain ⟨cell, nodes, -, reflected⟩ := reflected_of_finished linked worked member
      have filled := reflected.filled
      rw [image_of_finished linked member] at filled
      obtain ⟨_, again, isContainer⟩ := container
      cases again.symm.trans reflected.found
      exact ⟨number, member, ⟨_, filled, (isContainer_refill _ cell).trans isContainer⟩, reaches'⟩

/-- Containers of the document and of the data are in bijection. -/
theorem image_bijective {root : Value} (closed : ClosedCells cells)
    (within : root.Within cells.size) (stands : Stands cells growth root node) :
    Set.BijOn (growth.image cells) (containers cells root)
      (containers (later.allCells cells) (node.toValue later.leaves cells.size)) := by
  refine .mk ?_ ?_ ?_
  · intro index reached
    obtain ⟨number, member, inside⟩ := finished_of_reached linked worked stands reached
    rw [image_of_finished linked member]
    exact inside
  · -- Two containers with one image would be finished with one branch.
    intro first reached second reached' same
    obtain ⟨number, member, -⟩ := finished_of_reached linked worked stands reached
    obtain ⟨number', member', -⟩ := finished_of_reached linked worked stands reached'
    rw [image_of_finished linked member, image_of_finished linked member',
      Nat.add_left_cancel_iff] at same
    exact congrArg Prod.fst (List.inj_on_of_nodup_map linked.apart member member' same)
  · rintro index ⟨container, reaches⟩
    obtain ⟨goal, inner, reached, stands', same⟩ :=
      stands.reaches_back linked worked closed within reaches
    cases stands' with
    | leaf simple found =>
        have inRange := closed.within_of_reaches within reached
        exact absurd container (simple_leaf linked worked inRange (.leaf simple found) same.symm)
    | branch isContainer member =>
        cases same
        exact ⟨_, ⟨isContainer, reached⟩, image_of_finished linked member⟩

theorem roundTrip_of_linked {root : Value} (closed : ClosedCells cells)
    (within : root.Within cells.size) (stands : Stands cells growth root node) :
    RoundTrip cells root walkers later node (growth.image cells)
      (node.toValue later.leaves cells.size) := by
  refine ⟨rfl, stands.mirrors linked worked, image_bijective linked worked closed within stands, ?_⟩
  intro index reached
  obtain ⟨number, member, -⟩ := finished_of_reached linked worked stands reached
  obtain ⟨cell, nodes, -, reflected⟩ := reflected_of_finished linked worked member
  exact ⟨cell, nodes, _, reflected⟩

end Image

theorem worked_of_session {walkers : List Walker} {errands : List Errand} {forest : Forest}
    {cells : Array Cell} (sown : Sown cells forest)
    (fresh : ∀ walker ∈ walkers, walker = .new walker.key walker.form walker.value)
    (within : ∀ errand ∈ errands, errand.node.Within forest) :
    Worked walkers forest (Session.attendAll cells ⟨walkers, forest⟩ errands).forest := by
  have start := Session.orderly_start fresh sown.unsubstituted
  refine ⟨(Session.attendAll_orderly cells start sown.ordered within).branches, ?_⟩
  intro number value found
  exact Session.attendAll_leaf start sown.ordered within found

/-- A document that does not lead back to itself has a tree, unless one of its keys has no text.
After any errands of any walkers over the tree, and over the trees planted before it, the data of
the tree is the document again: with the same sharing, kinds, lengths and keys in their order, and
with everything that is no container in its place or, where a leaf was replaced, with the value put
in. -/
theorem planted_data_mirrors {cells : Array Cell} {forest : Forest} {root : Value}
    (sown : Sown cells forest) (closed : ClosedCells cells) (inRange : root.Within cells.size)
    (acyclic : ¬ Cyclic cells root) (path : Text) :
    (Named cells root ∧ ∃ node planted, forest.plant cells root path = .ok (node, planted) ∧
      ∀ walkers errands,
        (∀ walker ∈ walkers, walker = Walker.new walker.key walker.form walker.value) →
        (∀ errand ∈ errands, errand.node.Within planted) →
        ∃ image value, RoundTrip cells root walkers
          (Session.attendAll cells ⟨walkers, planted⟩ errands).forest node image value) ∨
    (¬ Named cells root ∧ forest.plant cells root path = .error .unnamed) := by
  by_cases named : Named cells root
  · obtain ⟨⟨node, planted⟩, accepted⟩ := (plant_ok_iff cells root path forest).mpr ⟨acyclic, named⟩
    refine .inl ⟨named, node, planted, accepted, fun walkers errands fresh within => ?_⟩
    obtain ⟨growth, grown, rfl⟩ := grow_of_plant accepted
    obtain ⟨linked, -, stands⟩ := grow_linked grown (linked_start cells forest)
    have worked := worked_of_session (.plant sown accepted) fresh within
    exact ⟨_, _, roundTrip_of_linked linked worked closed inRange stands⟩
  · exact .inr ⟨named, plant_unnamed acyclic named path forest⟩

/-- A list that holds one mapping twice comes back after two walkers were at it. -/
theorem planted_data_shared_mapping :
    let cells : Array Cell := #[.list [.atom (.text "$A"), .cell 1, .cell 1],
      .mapping [(.atom (.text "k"), .atom (.text "$A $\x7bB\x7d"))]]
    let walkers := [Walker.new "A" .bare "one", Walker.new "B" .braced "$A"]
    let errands : List Errand := [⟨1, .branch 0, "k"⟩, ⟨0, .branch 1, "$"⟩, ⟨1, .branch 1, "$"⟩]
    ∃ node planted, Forest.empty.plant cells (.cell 0) "$" = .ok (node, planted) ∧
      ∃ image value, RoundTrip cells (.cell 0) walkers
        (Session.attendAll cells ⟨walkers, planted⟩ errands).forest node image value := by
  intro cells walkers errands
  have accepted : Forest.empty.plant cells (.cell 0) "$" = .ok (.branch 1, _) := rfl
  obtain ⟨acyclic, named⟩ := (plant_ok_iff cells (.cell 0) "$" Forest.empty).mp ⟨_, accepted⟩
  rcases planted_data_mirrors .empty (by decide) (by decide) acyclic "$" with
    ⟨-, node, planted, again, trip⟩ | ⟨unnamed, -⟩
  · cases accepted.symm.trans again
    exact ⟨_, _, accepted, trip walkers errands (by decide) (by decide)⟩
  · exact absurd named unnamed

end Forest

end SecretFill
