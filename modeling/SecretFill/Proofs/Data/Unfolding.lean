import Mathlib.Data.Fintype.EquivFin
import SecretFill.Proofs.Data.Plain
import SecretFill.Proofs.Data.Route
/-!
Trees and the graphs that unfold to them. A graph has a tree below a value exactly if the value does
not lead back to itself. Lists and mappings unfold alike, part by part, and what is reached from a
value has a tree of its own, the same in all graphs with the same tree.
-/

namespace SecretFill.Data

open Relation

def Cell.tree (trees : List Tree) : Cell → Tree
  | .mapping entries => .mapping ((entries.map Prod.fst).zip trees)
  | _ => .list trees

def Tree.texts : Tree → List Text
  | .atom (.text text) => [text]
  | .atom _ => []
  | .whole _ => []
  | .list items => items.flatMap texts
  | .mapping entries => entries.flatMap fun entry => entry.2.texts
decreasing_by
  · decreasing_tactic
  · next member => exact sizeOf_entry member

variable {cells other : Array Cell} {value part : Value} {index : Nat} {cell : Cell} {tree : Tree}
  {trees : List Tree}

theorem unfolds_container (found : cells[index]? = some cell) (container : cell.isContainer = true) :
    Unfolds cells (.cell index) tree ↔
      ∃ trees, List.Forall₂ (Unfolds cells) cell.parts trees ∧ tree = cell.tree trees := by
  constructor
  · intro unfolds
    cases unfolds with
    | whole again simple =>
        cases again.symm.trans found
        rw [simple] at container
        cases container
    | list again sizes below =>
        cases again.symm.trans found
        exact ⟨_, List.forall₂_iff_get.mpr ⟨sizes, below⟩, rfl⟩
    | @mapping _ entries trees again keys below =>
        cases again.symm.trans found
        exact ⟨trees.map Prod.snd, forall₂_parts keys below, by rw [Cell.tree, zip_of_keys keys]⟩
  · rintro ⟨trees, below, rfl⟩
    obtain ⟨sizes, each⟩ := List.forall₂_iff_get.mp below
    cases cell with
    | list items => exact .list found sizes each
    | mapping entries =>
        simp only [Cell.parts, List.length_map] at sizes
        apply Unfolds.mapping found
        · exact (List.map_fst_zip (by simp [sizes])).symm
        · intro place inEntries inTrees
          rw [List.length_zip, List.length_map] at inTrees
          simpa [Cell.parts] using each place (by simpa [Cell.parts] using inEntries) (by omega)
    | _ => cases container

theorem texts_tree (container : cell.isContainer = true) (sizes : cell.parts.length = trees.length) :
    (cell.tree trees).texts = trees.flatMap Tree.texts := by
  cases cell with
  | list items => simp only [Cell.tree, Tree.texts]
  | mapping entries =>
      have same : ((entries.map Prod.fst).zip trees).map Prod.snd = trees :=
        List.map_snd_zip (by simpa [Cell.parts] using sizes.ge)
      rw [Cell.tree, Tree.texts, ← List.flatMap_map Prod.snd Tree.texts, same]
  | _ => cases container

theorem mapTexts_tree (change : Text → Text) (container : cell.isContainer = true)
    {trees : List Tree} (sizes : cell.parts.length = trees.length) :
    (cell.tree trees).mapTexts change = cell.tree (trees.map (Tree.mapTexts change)) := by
  cases cell with
  | list items => simp only [Cell.tree, Tree.mapTexts]
  | mapping entries =>
      simp only [Cell.tree, Tree.mapTexts, List.zip_map_right]
      rfl
  | _ => cases container

theorem refill_tree (parts : List Value) (cell : Cell) (trees : List Tree)
    (sizes : cell.parts.length = parts.length) : (cell.refill parts).tree trees = cell.tree trees := by
  cases cell with
  | mapping entries =>
      have keys : ((entries.map Prod.fst).zip parts).map Prod.fst = entries.map Prod.fst :=
        List.map_fst_zip (by simpa [Cell.parts] using sizes.le)
      simp only [Cell.refill, Cell.tree, keys]
  | _ => rfl

theorem unfolds_refill {parts : List Value} (found : cells[index]? = some (cell.refill parts))
    (container : cell.isContainer = true) (sizes : cell.parts.length = parts.length)
    (below : List.Forall₂ (Unfolds cells) parts trees) :
    Unfolds cells (.cell index) (cell.tree trees) := by
  have isContainer := (isContainer_refill parts cell).trans container
  rw [← refill_tree parts cell trees sizes]
  refine (unfolds_container found isContainer).mpr ⟨trees, ?_, rfl⟩
  rwa [parts_refill container sizes]

/-- What holds of atoms, of what unfolds as a whole, and of a container if it holds of the parts,
holds of all that unfolds. -/
@[elab_as_elim]
theorem Unfolds.induction_parts {motive : ∀ value tree, Unfolds cells value tree → Prop}
    (atom : ∀ atom, motive (.atom atom) (.atom atom) (.atom atom))
    (whole : ∀ index cell (found : cells[index]? = some cell) (simple : cell.isContainer = false),
      motive (.cell index) (.whole index) (.whole found simple))
    (container : ∀ index cell trees (found : cells[index]? = some cell)
      (container : cell.isContainer = true) (below : List.Forall₂ (fun part tree =>
        ∃ unfolds : Unfolds cells part tree, motive part tree unfolds) cell.parts trees),
      motive (.cell index) (cell.tree trees) ((unfolds_container found container).mpr
        ⟨trees, below.imp fun _ _ both => both.1, rfl⟩))
    (unfolds : Unfolds cells value tree) : motive value tree unfolds := by
  induction unfolds with
  | atom constant => exact atom constant
  | whole found simple => exact whole _ _ found simple
  | @list index items trees found sizes below ih =>
      exact container index _ trees found rfl (List.forall₂_iff_get.mpr
        ⟨sizes, fun place inItems inTrees => ⟨below place inItems inTrees, ih place inItems inTrees⟩⟩)
  | @mapping index entries trees found keys below ih =>
      have parts : List.Forall₂ (fun part tree => ∃ unfolds : Unfolds cells part tree,
          motive part tree unfolds) (Cell.mapping entries).parts (trees.map Prod.snd) :=
        forall₂_parts keys fun place inEntries inTrees =>
          ⟨below place inEntries inTrees, ih place inEntries inTrees⟩
      -- The tree is that of the cell over its parts only up to an equation.
      have whichever : ∀ tree, (Cell.mapping entries).tree (trees.map Prod.snd) = tree →
          ∀ unfolds, motive (.cell index) tree unfolds := by
        rintro _ rfl _
        exact container index _ _ found rfl parts
      exact whichever _ (by rw [Cell.tree, zip_of_keys keys]) _

/-! ### What is reached has a tree -/

theorem Unfolds.inside (unfolds : Unfolds cells value tree) (inside : Inside cells value part) :
    ∃ inner, Unfolds cells part inner := by
  obtain ⟨index, rfl, cell, found, container⟩ := isContainer_of_part inside
  obtain ⟨trees, below, -⟩ := (unfolds_container found container).mp unfolds
  obtain ⟨inner, -, unfolds⟩ := forall₂_left below ((inside_cell found part).mp inside)
  exact ⟨inner, unfolds⟩

theorem Unfolds.reaches (unfolds : Unfolds cells value tree) (reaches : Reaches cells value part) :
    ∃ inner, Unfolds cells part inner := by
  induction reaches with
  | refl => exact ⟨tree, unfolds⟩
  | tail _ inside ih =>
      obtain ⟨middle, unfolds⟩ := ih
      exact unfolds.inside inside

theorem Unfolds.grounded (unfolds : Unfolds cells value tree) : Grounded cells value := by
  induction unfolds using Unfolds.induction_parts with
  | atom atom => exact .intro _ fun part inside => nomatch isContainer_of_part inside
  | whole index cell found simple =>
      refine .intro _ fun part inside => ?_
      rw [inside_cell found, parts_of_simple (by simp [simple])] at inside
      cases inside
  | container index cell trees found _ below =>
      refine .intro _ fun part inside => ?_
      obtain ⟨_, -, -, grounded⟩ := forall₂_left below ((inside_cell found part).mp inside)
      exact grounded

/-! ### What has a tree -/

/-- In a graph of finitely many cells all that does not lead back to itself comes to an end. -/
theorem grounded_of_acyclic {root : Value} (acyclic : ¬ Cyclic cells root) : Grounded cells root := by
  have atoms : ∀ atom, Grounded cells (.atom atom) := fun atom =>
    .intro _ fun part inside => nomatch isContainer_of_part inside
  -- Below the root, to be reached is a strict order on finitely many cells, so it is well-founded.
  let below (inner outer : Fin cells.size) : Prop :=
    Reaches cells root (.cell outer) ∧ TransGen (Inside cells) (.cell outer) (.cell inner)
  have irrefl : Std.Irrefl below := ⟨fun index cycle => acyclic ⟨_, cycle.1, cycle.2⟩⟩
  have trans : IsTrans (Fin cells.size) below :=
    ⟨fun _ _ _ first second => ⟨second.1, second.2.trans first.2⟩⟩
  have wellFounded : WellFounded below := Finite.wellFounded_of_trans_of_irrefl below
  have reached : ∀ index : Fin cells.size, Reaches cells root (.cell index) →
      Grounded cells (.cell index) := by
    intro index
    induction index using wellFounded.induction with
    | _ index ih =>
        intro reaches
        refine .intro _ fun part inside => ?_
        cases part with
        | atom atom => exact atoms atom
        | cell inner =>
            by_cases within : inner < cells.size
            · exact ih ⟨inner, within⟩ ⟨reaches, .single inside⟩ (reaches.tail inside)
            · refine .intro _ fun part deeper => ?_
              obtain ⟨cell, found, -⟩ := deeper
              exact absurd (Array.getElem?_eq_some_iff.mp found).1 within
  cases root with
  | atom atom => exact atoms atom
  | cell index =>
      by_cases within : index < cells.size
      · exact reached ⟨index, within⟩ .refl
      · refine .intro _ fun part inside => ?_
        obtain ⟨cell, found, -⟩ := inside
        exact absurd (Array.getElem?_eq_some_iff.mp found).1 within

theorem exists_forall₂ {α β : Type} {related : α → β → Prop} {list : List α}
    (each : ∀ element ∈ list, ∃ other, related element other) :
    ∃ others, List.Forall₂ related list others := by
  induction list with
  | nil => exact ⟨[], .nil⟩
  | cons element rest ih =>
      obtain ⟨here, later⟩ := List.forall_mem_cons.mp each
      obtain ⟨other, first⟩ := here
      obtain ⟨others, more⟩ := ih later
      exact ⟨other :: others, .cons first more⟩

theorem Grounded.unfolds (closed : ClosedCells cells) (grounded : Grounded cells value)
    (within : value.Within cells.size) : ∃ tree, Unfolds cells value tree := by
  induction grounded with
  | intro value _ ih =>
      cases value with
      | atom atom => exact ⟨_, .atom atom⟩
      | cell index =>
          have found : cells[index]? = some cells[index] := Array.getElem?_eq_getElem within
          by_cases container : cells[index].isContainer = true
          · have parts : ∀ part ∈ cells[index].parts, ∃ tree, Unfolds cells part tree := by
              intro part member
              have inside := (inside_cell found part).mpr member
              exact ih part inside (closed.within_of_reaches within (.single inside))
            obtain ⟨trees, below⟩ := exists_forall₂ parts
            exact ⟨_, (unfolds_container found container).mpr ⟨trees, below, rfl⟩⟩
          · exact ⟨_, .whole found (Bool.of_not_eq_true container)⟩

/-! ### Graphs with one tree -/

theorem unfolds_alike {like : Cell} (container : like.isContainer = true)
    (sizes : like.parts.length = trees.length) (unfolds : Unfolds cells value (like.tree trees)) :
    ∃ index cell, value = .cell index ∧ cells[index]? = some cell ∧ cell.isContainer = true ∧
      cell.keys = like.keys ∧ List.Forall₂ (Unfolds cells) cell.parts trees := by
  cases like with
  | list items =>
      cases unfolds with
      | list found sizes below =>
          exact ⟨_, _, rfl, found, rfl, rfl, List.forall₂_iff_get.mpr ⟨sizes, below⟩⟩
  | mapping entries =>
      simp only [Cell.parts, List.length_map] at sizes
      cases unfolds with
      | @mapping index others _ found keys below =>
          have parts := forall₂_parts keys below
          rw [List.map_snd_zip (by simp [sizes])] at parts
          rw [List.map_fst_zip (by simp [sizes])] at keys
          exact ⟨_, _, rfl, found, rfl, keys, parts⟩
  | _ => cases container

theorem reaches_alike {goal : Value} (unfolds : Unfolds cells value tree) {value' : Value}
    (unfolds' : Unfolds other value' tree) (reaches : Reaches other value' goal) :
    ∃ start inner, Reaches cells value start ∧ Unfolds cells start inner ∧
      Unfolds other goal inner := by
  induction reaches with
  | refl => exact ⟨value, tree, .refl, unfolds, unfolds'⟩
  | tail _ inside ih =>
      -- Both graphs have one tree at this place, so they go down to parts with one tree.
      obtain ⟨start, inner, reached, here, there⟩ := ih
      obtain ⟨index', rfl, cell', found', container'⟩ := isContainer_of_part inside
      obtain ⟨trees, below', rfl⟩ := (unfolds_container found' container').mp there
      obtain ⟨index, cell, rfl, found, container, -, below⟩ :=
        unfolds_alike container' below'.length_eq here
      obtain ⟨inner, member, there'⟩ := forall₂_left below' ((inside_cell found' _).mp inside)
      obtain ⟨part, inParts, here'⟩ := forall₂_left below.flip member
      exact ⟨part, inner, reached.tail ((inside_cell found part).mpr inParts), here', there'⟩

theorem Named.of_alike {value' : Value} (named : Named cells value)
    (unfolds : Unfolds cells value tree) (unfolds' : Unfolds other value' tree) :
    Named other value' := by
  intro goal cell' reaches found' key member
  obtain ⟨start, inner, reached, here, there⟩ := reaches_alike unfolds unfolds' reaches
  cases goal with
  | atom atom => cases found'
  | cell index' =>
      by_cases container' : cell'.isContainer = true
      · obtain ⟨trees, below', rfl⟩ := (unfolds_container found' container').mp there
        obtain ⟨index, cell, rfl, found, -, keys, -⟩ :=
          unfolds_alike container' below'.length_eq here
        exact named _ cell reached found key (keys ▸ member)
      · cases cell' with
        | mapping entries => exact absurd rfl container'
        | _ => cases member

end SecretFill.Data
