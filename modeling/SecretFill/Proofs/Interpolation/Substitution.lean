import SecretFill.Proofs.Data.Unfolding
import SecretFill.Proofs.Interpolation.Choice
import SecretFill.Proofs.Interpolation.Passes
/-!
Substitution as one pass. However many walkers go over a stream one after the other, what comes out
is the stream with each text replaced at once, by a function of that text alone. What was put in is
never read.
-/

namespace SecretFill

open SecretFill.Data SecretFill.Forest

theorem settled_value (map : SubstitutionMap) (leaf : Leaf) (fresh : leaf.substituted = false) :
    (settled map.longestFirst leaf).value =
      match leaf.value with
      | .atom (.text text) => .atom (.text (map.replace text))
      | value => value := by
  obtain ⟨value, substituted⟩ := leaf
  cases fresh
  cases value with
  | cell index => rfl
  | atom atom =>
      cases atom with
      | text text =>
          cases found : map.longestFirst.find? fun entry =>
              Placeholder.occurs entry.1.toList text.toList with
          | none => simp [settled, SubstitutionMap.replace, found]
          | some entry => simp [settled, SubstitutionMap.replace, found]
      | _ => rfl

abbrev Forest.allCells (forest : Forest) (cells : Array Cell) : Array Cell :=
  cells ++ forest.branches.map (Branch.toCell forest.leaves cells.size)

theorem allCells_old (forest : Forest) {cells : Array Cell} {index : Nat}
    (inside : index < cells.size) : (forest.allCells cells)[index]? = cells[index]? := by
  rw [Array.getElem?_append_left inside]

theorem allCells_new (forest : Forest) (cells : Array Cell) (number : Nat) :
    (forest.allCells cells)[cells.size + number]? =
      forest.branches[number]?.map (Branch.toCell forest.leaves cells.size) := by
  rw [Array.getElem?_append_right (Nat.le_add_right _ _), Nat.add_sub_cancel_left,
    Array.getElem?_map]

theorem toCell_branchOf (leaves : Array Leaf) (base : Nat) (nodes : List Node) {cell : Cell}
    (container : cell.isContainer = true) :
    (branchOf nodes cell).toCell leaves base = cell.refill (nodes.map (Node.toValue leaves base)) := by
  cases cell with
  | list items => rfl
  | mapping entries =>
      simp only [branchOf, Branch.toCell, Cell.refill, List.zip_map_right]
      rfl
  | _ => cases container

theorem allCells_branch {forest : Forest} (cells : Array Cell) {cell : Cell} {nodes : List Node}
    {number : Nat} (container : cell.isContainer = true)
    (branch : forest.branches[number]? = some (branchOf nodes cell)) :
    (forest.allCells cells)[cells.size + number]? =
      some (cell.refill (nodes.map (Node.toValue forest.leaves cells.size))) := by
  rw [allCells_new, branch, Option.map_some, toCell_branchOf _ _ _ container]

theorem Forest.Planted.replaced {cells : Array Cell} {forest later : Forest} {map : SubstitutionMap}
    {value : Value} {node : Node} {tree : Tree} (planted : Planted cells forest value node)
    (unfolds : Unfolds cells value tree) (branches : later.branches = forest.branches)
    (leaves : ∀ number, Below forest node number →
      later.leaves[number]? = forest.leaves[number]?.map (settled map.longestFirst)) :
    Unfolds (later.allCells cells) (node.toValue later.leaves cells.size)
      (tree.mapTexts map.replace) := by
  induction planted using Planted.induction_parts generalizing tree with
  | leaf value number simple leaf =>
      have after := leaves number (.here number)
      rw [leaf, Option.map_some] at after
      have becomes := settled_value map ⟨value, false⟩ rfl
      simp only [Node.toValue, after, Option.map_some, Option.getD_some, becomes]
      cases unfolds using Unfolds.induction_parts with
      | atom atom => cases atom <;> simp only [Tree.mapTexts] <;> exact .atom _
      | whole index cell found plain =>
          have inside := (Array.getElem?_eq_some_iff.mp found).1
          rw [Tree.mapTexts]
          exact .whole ((allCells_old later inside).trans found) plain
      | container index cell trees found container _ =>
          exact absurd ⟨cell, found, container⟩ (simple index rfl)
  | branch index number cell nodes found container branch below =>
      obtain ⟨trees, each, rfl⟩ := (unfolds_container found container).mp unfolds
      have sizes := below.length_eq
      rw [mapTexts_tree map.replace container each.length_eq]
      refine unfolds_refill (allCells_branch cells container (branches ▸ branch)) container
        (by simpa using sizes) ?_
      -- Part by part: what the node of a part has become has the tree of the part, replaced.
      rw [List.forall₂_map_left_iff, List.forall₂_map_right_iff]
      refine List.forall₂_iff_get.mpr ⟨sizes.symm.trans each.length_eq, fun place inNodes inTrees => ?_⟩
      have inParts : place < cell.parts.length := sizes ▸ inNodes
      obtain ⟨-, ih⟩ := below.get inParts inNodes
      refine ih (each.get inParts inTrees) fun leaf under => leaves leaf (.under branch ?_ under)
      rw [nodes_branchOf sizes]
      exact List.getElem_mem inNodes

theorem planted_unfold {cells : Array Cell} {forest : Forest} {roots : List Value}
    {plots : List Plot}
    (stands : List.Forall₂ (fun root plot => Planted cells forest root plot.node) roots plots)
    (closed : ClosedCells cells) (within : ∀ root ∈ roots, root.Within cells.size) :
    ∃ trees, List.Forall₂ (Unfolds cells) roots trees := by
  induction stands with
  | nil => exact ⟨[], .nil⟩
  | cons planted _ ih =>
      obtain ⟨here, later⟩ := List.forall_mem_cons.mp within
      obtain ⟨tree, one⟩ := planted.grounded.unfolds closed here
      obtain ⟨trees, more⟩ := ih later
      exact ⟨tree :: trees, .cons one more⟩

theorem planted_replaced {cells : Array Cell} {forest later : Forest} {map : SubstitutionMap}
    {roots : List Value} {plots : List Plot} {trees : List Tree}
    (stands : List.Forall₂ (fun root plot => Planted cells forest root plot.node) roots plots)
    (unfolds : List.Forall₂ (Unfolds cells) roots trees) (branches : later.branches = forest.branches)
    (leaves : ∀ plot ∈ plots, ∀ number, Below forest plot.node number →
      later.leaves[number]? = forest.leaves[number]?.map (settled map.longestFirst)) :
    List.Forall₂ (Unfolds (later.allCells cells))
      (plots.map fun plot => plot.node.toValue later.leaves cells.size)
      (trees.map (Tree.mapTexts map.replace)) := by
  induction stands generalizing trees with
  | nil =>
      cases unfolds
      exact .nil
  | cons planted _ ih =>
      obtain - | ⟨one, more⟩ := unfolds
      obtain ⟨here, others⟩ := List.forall_mem_cons.mp leaves
      exact .cons (planted.replaced one branches here) (ih more others)

theorem substitute_of_planted (map : SubstitutionMap) {stream : Stream} {plots : List Plot}
    {forest : Forest}
    (planted : plantAll stream.cells stream.roots.length 0 stream.roots Forest.empty =
      .ok (plots, forest)) :
    ∃ substitutions later, substitute map stream =
        .ok (later.toStream stream.cells (plots.map Plot.node), substitutions) ∧
      map.longestFirst.foldl (applyKey stream.cells plots) ([], forest) =
        (substitutions, later) := by
  refine ⟨_, _, ?_, rfl⟩
  simp only [substitute, planted]
  rfl

theorem passes_settle {cells : Array Cell} {map : SubstitutionMap} {forest later : Forest}
    {roots : List Value} {plots : List Plot} {substitutions : List Substitution}
    (ordered : Ordered forest)
    (stands : List.Forall₂ (fun root plot => Planted cells forest root plot.node) roots plots)
    (passes : map.longestFirst.foldl (applyKey cells plots) ([], forest) = (substitutions, later)) :
    ∀ plot ∈ plots, ∀ number, Below forest plot.node number →
      later.leaves[number]? = forest.leaves[number]?.map (settled map.longestFirst) := by
  have within : ∀ plot ∈ plots, plot.node.Within forest := by
    intro plot member
    exact nodes_within (List.forall₂_map_right_iff.mpr stands) plot.node (List.mem_map_of_mem member)
  intro plot member number below
  have onRoute := mem_route ordered cells within member below
  have settles := applyKeys_leaf cells plots map.longestFirst ([], forest) onRoute
  rwa [passes] at settles

/-- A stream whose documents can be planted and have trees comes out with the texts of the trees
replaced, and its cells are still there. -/
theorem substitute_replaces (map : SubstitutionMap) {stream : Stream} {planted : List Plot × Forest}
    (accepted : plantAll stream.cells stream.roots.length 0 stream.roots Forest.empty =
      .ok planted) :
    ∃ result substitutions, substitute map stream = .ok (result, substitutions) ∧
      (∀ trees, List.Forall₂ (Unfolds stream.cells) stream.roots trees →
        List.Forall₂ (Unfolds result.cells) result.roots (trees.map (Tree.mapTexts map.replace))) ∧
      ∀ index < stream.cells.size, result.cells[index]? = stream.cells[index]? := by
  obtain ⟨plots, forest⟩ := planted
  obtain ⟨ordered, -, stands⟩ := plantAll_faithful ordered_empty accepted
  obtain ⟨substitutions, later, ended, passes⟩ := substitute_of_planted map accepted
  have branches : later.branches = forest.branches := by
    have kept := applyKeys_branches stream.cells plots map.longestFirst ([], forest)
    rwa [passes] at kept
  refine ⟨_, substitutions, ended, fun trees unfolds => ?_,
      fun index inside => allCells_old later inside⟩
  simp only [toStream, List.map_map]
  exact planted_replaced stands unfolds branches (passes_settle ordered stands passes)

/-- Substitution is one pass. Every stream whose trees can be planted comes out with each text, keys
apart, replaced by the value of the entry that is chosen for the text as it was; a text without a
placeholder of any key stays, and so does all that is neither a text nor holds one. -/
theorem substitute_one_pass (map : SubstitutionMap) (stream : Stream) (closed : stream.Closed)
    (planted : List Plot × Forest)
    (accepted : plantAll stream.cells stream.roots.length 0 stream.roots Forest.empty =
      .ok planted) :
    ∃ result substitutions, substitute map stream = .ok (result, substitutions) ∧
      (∃ trees, List.Forall₂ (Unfolds stream.cells) stream.roots trees ∧
        List.Forall₂ (Unfolds result.cells) result.roots (trees.map (Tree.mapTexts map.replace))) ∧
      (∀ index < stream.cells.size, result.cells[index]? = stream.cells[index]?) ∧
      ∀ text, (∃ entry, map.Chooses text entry ∧ map.replace text = entry.2) ∨
        (∀ entry ∈ map, ¬ Placeholder.Stands entry.1.toList text.toList) ∧
          map.replace text = text := by
  obtain ⟨-, -, stands⟩ := plantAll_faithful ordered_empty accepted
  obtain ⟨trees, unfolds⟩ := planted_unfold stands closed.cells closed.roots
  obtain ⟨result, substitutions, ended, replaced, kept⟩ := substitute_replaces map accepted
  refine ⟨result, substitutions, ended, ⟨trees, unfolds, replaced trees unfolds⟩, kept, ?_⟩
  intro text
  rcases SubstitutionMap.chooses_or_absent map text with ⟨entry, chosen⟩ | absent
  · exact .inl ⟨entry, chosen, SubstitutionMap.replace_of_chooses chosen⟩
  · exact .inr absent

/-- Two keys whose values look like placeholders of each other, at places that share a cell. -/
theorem substitute_crossed_values :
    let stream : Stream := ⟨#[.list [.atom (.text "$AB"), .cell 1, .cell 1],
      .mapping [(.atom (.text "k"), .atom (.text "x$\x7bA\x7d"))]], [.cell 0]⟩
    let map : SubstitutionMap := [("A", "$AB"), ("AB", "$\x7bA\x7d")]
    stream.Closed ∧
      ∃ result substitutions, substitute map stream = .ok (result, substitutions) ∧
        ∃ trees, List.Forall₂ (Unfolds stream.cells) stream.roots trees ∧
          List.Forall₂ (Unfolds result.cells) result.roots
            (trees.map (Tree.mapTexts map.replace)) := by
  intro stream map
  have closed : stream.Closed := by decide
  obtain ⟨result, substitutions, ended, seen, -⟩ := substitute_one_pass map stream closed _ rfl
  exact ⟨closed, result, substitutions, ended, seen⟩

end SecretFill
