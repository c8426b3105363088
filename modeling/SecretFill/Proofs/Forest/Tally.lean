import Mathlib.Algebra.Ring.Nat
import SecretFill.Proofs.Data.Unshared
import SecretFill.Proofs.Forest.Coverage
import SecretFill.Proofs.Forest.Cycle
import SecretFill.Proofs.Forest.Linked
/-!
How many texts of a kind stand in the leaves of a tree. A shared container has its texts once among
the leaves; so they are counted once for each container that holds them, and there are at most as
many as in the document written out.
-/

namespace SecretFill

open Relation
open SecretFill.Data SecretFill.Forest

def Data.Value.wanted (wants : Text → Bool) : Value → Bool
  | .atom (.text text) => wants text
  | _ => false

def Data.wantedIn (wants : Text → Bool) (cells : Array Cell) (index : Nat) : Nat :=
  match cells[index]? with
  | some cell => cell.parts.countP (Value.wanted wants)
  | none => 0

def Data.Tree.wanted (wants : Text → Bool) (tree : Tree) : Nat := tree.texts.countP wants

/-- How many wanted texts a document has, those in one container counted once. -/
def Data.Tally (wants : Text → Bool) (cells : Array Cell) (root : Value) (count : Nat) : Prop :=
  ∃ distinct : List Nat, distinct.Nodup ∧ (∀ index, index ∈ distinct ↔ index ∈ containers cells root) ∧
    count = [root].countP (Value.wanted wants) + (distinct.map (wantedIn wants cells)).sum

namespace Forest

def wanted (wants : Text → Bool) (forest : Forest) : Nat :=
  forest.leaves.toList.countP fun leaf => leaf.value.wanted wants

def Growth.credit (wants : Text → Bool) (cells : Array Cell) (growth : Growth) : Nat :=
  (growth.done.map (wantedIn wants cells)).sum

variable {wants : Text → Bool} {cells : Array Cell} {ancestors : List Nat} {value root : Value}
  {values : List Value} {node : Node} {nodes : List Node} {growth after : Growth}
  {forest later : Forest} {depth : Nat} {path : Text}

theorem wanted_addLeaf (growth : Growth) (value : Value) :
    (growth.addLeaf value).2.forest.wanted wants =
      growth.forest.wanted wants + [value].countP (Value.wanted wants) := by
  simp only [wanted, Growth.addLeaf, Array.toList_push, List.countP_append, List.countP_singleton]

theorem not_wanted_cell (index : Nat) : [Value.cell index].countP (Value.wanted wants) = 0 := rfl

/-! ### Containers once each -/

theorem credit_row (row : Row (fun value growth _ after =>
      after.forest.wanted wants + growth.credit wants cells =
        growth.forest.wanted wants + [value].countP (Value.wanted wants) + after.credit wants cells)
      values growth nodes after) :
    after.forest.wanted wants + growth.credit wants cells =
      growth.forest.wanted wants + values.countP (Value.wanted wants) + after.credit wants cells := by
  induction row with
  | nil => rfl
  | cons first _ ih =>
      rw [List.countP_singleton] at first
      rw [List.countP_cons]
      omega

/-- What growing adds to the leaves is the value itself and what stands in the containers that are
finished by then and were not before. -/
theorem grow_credit (grown : grow cells depth ancestors value path growth = .ok (node, after)) :
    after.forest.wanted wants + growth.credit wants cells =
      growth.forest.wanted wants + [value].countP (Value.wanted wants) + after.credit wants cells := by
  refine grow_induction (motive := fun _ value growth _ after =>
    after.forest.wanted wants + growth.credit wants cells = growth.forest.wanted wants +
      [value].countP (Value.wanted wants) + after.credit wants cells) ?_ ?_ ?_ grown
  · intro _ value growth _
    rw [wanted_addLeaf]
    rfl
  · intro _ index number growth _ _
    rw [not_wanted_cell, Nat.add_zero]
  · intro _ index cell growth nodes middle found _ _ _ row
    -- The texts of the parts were charged to the parts; the finished container takes them over.
    have parts := credit_row row
    have credit : (middle.addBranch index (branchOf nodes cell)).2.credit wants cells =
        cell.parts.countP (Value.wanted wants) + middle.credit wants cells := by
      simp only [Growth.credit, Growth.done, Growth.addBranch, List.map_cons, List.sum_cons, wantedIn,
        found]
    have same : (middle.addBranch index (branchOf nodes cell)).2.forest.wanted wants =
        middle.forest.wanted wants := rfl
    rw [not_wanted_cell, credit, same]
    omega

theorem plant_tally (wants : Text → Bool)
    (planted : forest.plant cells root path = .ok (node, later)) :
    ∃ count, Tally wants cells root count ∧ later.wanted wants = forest.wanted wants + count := by
  obtain ⟨growth, grown, rfl⟩ := grow_of_plant planted
  obtain ⟨linked, adds, -⟩ := grow_linked grown (linked_start cells forest)
  have outcome := outcome_start cells root path forest
  rw [grown] at outcome
  have added : growth.forest.wanted wants + 0 = forest.wanted wants +
      [root].countP (Value.wanted wants) + growth.credit wants cells := grow_credit grown
  refine ⟨_, ⟨growth.done, linked.distinct, fun index => ⟨fun member => ?_, fun reached => ?_⟩,
    rfl⟩, ?_⟩
  · obtain ⟨⟨_, number⟩, inside, rfl⟩ := List.mem_map.mp member
    obtain ⟨cell, nodes, found, container, -⟩ := linked.branch _ number inside
    rcases adds.reached _ member with old | ⟨-, _, here, reaches⟩
    · cases old
    · cases List.mem_singleton.mp here
      exact ⟨⟨cell, found, container⟩, reaches⟩
  · exact outcome.2.2.covered index reached.2 reached.1
  · rw [Nat.add_zero, Nat.add_assoc] at added
    exact added

/-! ### The document written out -/

theorem wanted_leaf_tree {tree : Tree} (unfolds : Unfolds cells value tree)
    (simple : ∀ index, value = .cell index → ¬ IsContainer cells index) :
    [value].countP (Value.wanted wants) = tree.wanted wants := by
  cases unfolds with
  | atom atom =>
      cases atom with
      | text text =>
          rw [Tree.wanted, Tree.texts, List.countP_singleton, List.countP_singleton]
          rfl
      | _ => simp [Tree.wanted, Tree.texts, Value.wanted]
  | whole found _ => simp [Tree.wanted, Tree.texts, Value.wanted]
  | list found _ _ => exact absurd ⟨_, found, rfl⟩ (simple _ rfl)
  | mapping found _ _ => exact absurd ⟨_, found, rfl⟩ (simple _ rfl)

/-- What growing adds to the leaves is no more than the tree has, and is just that if no container
is met twice. -/
def Measured (wants : Text → Bool) (cells : Array Cell) (value : Value) (growth after : Growth) :
    Prop :=
  (∀ index ∈ after.done, index ∈ growth.done ∨ index ∈ containers cells value) ∧
    ∀ tree, Unfolds cells value tree →
      after.forest.wanted wants ≤ growth.forest.wanted wants + tree.wanted wants ∧
      (Unshared cells value → (∀ index ∈ growth.done, index ∉ containers cells value) →
        growth.forest.wanted wants + tree.wanted wants ≤ after.forest.wanted wants)

theorem done_row (row : Row (fun value growth _ after =>
      ∀ index ∈ after.done, index ∈ growth.done ∨ index ∈ containers cells value)
      values growth nodes after) :
    ∀ index ∈ after.done, index ∈ growth.done ∨ ∃ value ∈ values, index ∈ containers cells value := by
  induction row with
  | nil => exact fun _ member => .inl member
  | @cons value values _ _ _ _ _ first _ ih =>
      intro index member
      rcases ih index member with early | ⟨other, inside, reached⟩
      · rcases first index early with old | reached
        · exact .inl old
        · exact .inr ⟨value, List.mem_cons_self, reached⟩
      · exact .inr ⟨other, List.mem_cons_of_mem _ inside, reached⟩

theorem measured_row {trees : List Tree}
    (row : Row (fun value growth _ after => Measured wants cells value growth after)
      values growth nodes after) (unfolds : List.Forall₂ (Unfolds cells) values trees) :
    after.forest.wanted wants ≤ growth.forest.wanted wants + (trees.map (Tree.wanted wants)).sum ∧
      ((∀ value ∈ values, Unshared cells value) → values.Pairwise (Apart cells) →
        (∀ value ∈ values, ∀ index ∈ growth.done, index ∉ containers cells value) →
        growth.forest.wanted wants + (trees.map (Tree.wanted wants)).sum ≤
          after.forest.wanted wants) := by
  induction row generalizing trees with
  | nil =>
      cases unfolds
      exact ⟨Nat.le_refl _, fun _ _ _ => Nat.le_refl _⟩
  | @cons value values node nodes growth middle after first _ ih =>
      obtain - | @⟨_, tree, _, trees, one, more⟩ := unfolds
      obtain ⟨done, measured⟩ := first
      obtain ⟨most, least⟩ := measured tree one
      obtain ⟨mostLater, leastLater⟩ := ih more
      rw [List.map_cons, List.sum_cons]
      refine ⟨by omega, fun unshared apart fresh => ?_⟩
      obtain ⟨unsharedHere, unsharedLater⟩ := List.forall_mem_cons.mp unshared
      obtain ⟨freshHere, freshLater⟩ := List.forall_mem_cons.mp fresh
      obtain ⟨apartHere, apartLater⟩ := List.pairwise_cons.mp apart
      have here := least unsharedHere freshHere
      -- What the first value has finished is apart from the others, so they meet nothing again.
      have later := leastLater unsharedLater apartLater fun other inside index member reached => by
        rcases done index member with old | early
        · exact freshLater other inside index old reached
        · exact apartHere other inside index early.1 early.2 reached.2
      omega

theorem grow_measured (grown : grow cells depth ancestors value path growth = .ok (node, after)) :
    Measured wants cells value growth after := by
  refine grow_induction (motive := fun _ value growth _ after =>
    Measured wants cells value growth after) ?_ ?_ ?_ grown
  · intro _ value growth simple
    refine ⟨fun _ member => .inl member, fun tree unfolds => ?_⟩
    rw [wanted_addLeaf, wanted_leaf_tree unfolds simple]
    exact ⟨Nat.le_refl _, fun _ _ => Nat.le_refl _⟩
  · intro _ index number growth container past
    -- What is met again adds nothing; where nothing is shared, nothing is met again.
    refine ⟨fun _ member => .inl member, fun tree _ => ⟨Nat.le_add_right _ _, fun _ fresh => ?_⟩⟩
    exact absurd ⟨container, .refl⟩ (fresh index (mem_done.mpr (by simp [past])))
  · intro _ index cell growth nodes middle found container _ _ row
    have below : ∀ part ∈ cell.parts, Inside cells (.cell index) part :=
      fun part member => (inside_cell found part).mpr member
    have deeper : ∀ part ∈ cell.parts, ∀ inner ∈ containers cells part,
        inner ∈ containers cells (.cell index) :=
      fun part member inner reached => ⟨reached.1, .head (below part member) reached.2⟩
    refine ⟨fun inner member => ?_, fun tree unfolds => ?_⟩
    · rcases List.mem_cons.mp member with rfl | early
      · exact .inr ⟨⟨cell, found, container⟩, .refl⟩
      · rcases done_row (row.imp fun _ _ _ _ measured => measured.1) inner early with
          old | ⟨part, member, reached⟩
        · exact .inl old
        · exact .inr (deeper part member inner reached)
    · obtain ⟨trees, parts, rfl⟩ := (unfolds_container found container).mp unfolds
      obtain ⟨most, least⟩ := measured_row row parts
      have sum : (cell.tree trees).wanted wants = (trees.map (Tree.wanted wants)).sum := by
        rw [Tree.wanted, texts_tree container parts.length_eq, List.countP_flatMap]
        rfl
      rw [sum]
      refine ⟨most, fun unshared fresh => least ?_ ?_ ?_⟩
      · exact fun part member inner other reaches =>
          unshared inner other (.head (below part member) reaches)
      · exact unshared index cell .refl found
      · exact fun part member inner old reached =>
          fresh inner old (deeper part member inner reached)

theorem plant_measured (wants : Text → Bool) {tree : Tree}
    (planted : forest.plant cells root path = .ok (node, later)) (unfolds : Unfolds cells root tree) :
    later.wanted wants ≤ forest.wanted wants + tree.wanted wants ∧
      (Unshared cells root → forest.wanted wants + tree.wanted wants ≤ later.wanted wants) := by
  obtain ⟨growth, grown, rfl⟩ := grow_of_plant planted
  have measured : Measured wants cells root ⟨forest, []⟩ growth := grow_measured grown
  obtain ⟨most, least⟩ := measured.2 tree unfolds
  exact ⟨most, fun unshared => least unshared (List.forall_mem_nil _)⟩

/-! ### All leaves -/

theorem Below.extend {number : Nat} (below : Below forest node number)
    (extended : Extends forest later) : Below later node number := by
  induction below with
  | here number => exact .here number
  | under found member _ ih => exact .under (extended.branches _ _ found) member ih

def Rooted (growth : Growth) (nodes : List Node) (after : Growth) : Prop :=
  Extends growth.forest after.forest ∧ ∀ number < after.forest.leaves.size,
    number < growth.forest.leaves.size ∨ ∃ node ∈ nodes, Below after.forest node number

theorem rooted_row (row : Row (fun _ growth node after => Rooted growth [node] after)
    values growth nodes after) : Rooted growth nodes after := by
  induction row with
  | nil => exact ⟨extends_refl _, fun _ within => .inl within⟩
  | @cons _ _ node nodes _ _ _ first _ ih =>
      obtain ⟨early, here⟩ := first
      obtain ⟨late, others⟩ := ih
      refine ⟨early.trans late, fun number within => ?_⟩
      rcases others number within with before | ⟨other, inside, below⟩
      · rcases here number before with old | ⟨_, same, below⟩
        · exact .inl old
        · cases List.mem_singleton.mp same
          exact .inr ⟨node, List.mem_cons_self, below.extend late⟩
      · exact .inr ⟨other, List.mem_cons_of_mem _ inside, below⟩

theorem grow_rooted (grown : grow cells depth ancestors value path growth = .ok (node, after)) :
    Rooted growth [node] after := by
  refine grow_induction (motive := fun _ _ growth node after => Rooted growth [node] after)
    ?_ ?_ ?_ grown
  · intro _ value growth _
    refine ⟨addLeaf_extends growth value, fun number within => ?_⟩
    simp only [Growth.addLeaf, Array.size_push] at within
    rcases Nat.lt_succ_iff_lt_or_eq.mp within with old | rfl
    · exact .inl old
    · exact .inr ⟨_, List.mem_cons_self, .here _⟩
  · exact fun _ _ _ growth _ _ => ⟨extends_refl _, fun _ within => .inl within⟩
  · intro _ index cell growth nodes middle found container _ _ row
    obtain ⟨extended, below⟩ := rooted_row row
    have last := addBranch_extends middle index (branchOf nodes cell)
    refine ⟨extended.trans last, fun number within => ?_⟩
    rcases below number within with old | ⟨node, member, below⟩
    · exact .inl old
    · refine .inr ⟨_, List.mem_cons_self, .under Array.getElem?_push_size ?_ (below.extend last)⟩
      rwa [nodes_branchOf row.length_eq]

/-! ### All documents -/

variable {roots : List Value} {plots : List Plot}

theorem plants_tally (wants : Text → Bool) (plants : Plants cells roots forest plots later) :
    ∃ counts, List.Forall₂ (Tally wants cells) roots counts ∧
      later.wanted wants = forest.wanted wants + counts.sum := by
  induction plants with
  | nil => exact ⟨[], .nil, rfl⟩
  | cons first _ ih =>
      obtain ⟨count, tally, here⟩ := plant_tally wants first
      obtain ⟨counts, tallies, others⟩ := ih
      refine ⟨count :: counts, .cons tally tallies, ?_⟩
      rw [List.sum_cons]
      omega

theorem plants_measured (wants : Text → Bool) {trees : List Tree}
    (plants : Plants cells roots forest plots later)
    (unfolds : List.Forall₂ (Unfolds cells) roots trees) :
    later.wanted wants ≤ forest.wanted wants + (trees.map (Tree.wanted wants)).sum ∧
      ((∀ root ∈ roots, Unshared cells root) →
        forest.wanted wants + (trees.map (Tree.wanted wants)).sum ≤ later.wanted wants) := by
  induction plants generalizing trees with
  | nil =>
      cases unfolds
      exact ⟨Nat.le_refl _, fun _ => Nat.le_refl _⟩
  | cons first _ ih =>
      obtain - | ⟨one, more⟩ := unfolds
      obtain ⟨most, least⟩ := plant_measured wants first one
      obtain ⟨mostLater, leastLater⟩ := ih more
      rw [List.map_cons, List.sum_cons]
      refine ⟨by omega, fun unshared => ?_⟩
      obtain ⟨here, later⟩ := List.forall_mem_cons.mp unshared
      have early := least here
      have late := leastLater later
      omega

theorem plants_rooted (plants : Plants cells roots forest plots later) :
    Extends forest later ∧ ∀ number < later.leaves.size,
      number < forest.leaves.size ∨ ∃ plot ∈ plots, Below later plot.node number := by
  induction plants with
  | nil => exact ⟨extends_refl _, fun _ within => .inl within⟩
  | cons first _ ih =>
      obtain ⟨growth, grown, rfl⟩ := grow_of_plant first
      obtain ⟨early, here⟩ := grow_rooted grown
      obtain ⟨late, others⟩ := ih
      refine ⟨early.trans late, fun number within => ?_⟩
      rcases others number within with before | ⟨plot, inside, below⟩
      · rcases here number before with old | ⟨_, same, below⟩
        · exact .inl old
        · cases List.mem_singleton.mp same
          exact .inr ⟨_, List.mem_cons_self, below.extend late⟩
      · exact .inr ⟨plot, List.mem_cons_of_mem _ inside, below⟩

end Forest

end SecretFill
