import SecretFill.Proofs.Data.Closed
import SecretFill.Proofs.Data.Unfolding
/-!
All that a value carries: what is in it, keys and members of tuples and sets included, and what is
in that. Changing the texts of a document changes nothing else of what it carries.
-/

namespace SecretFill.Data

open Relation

def Contains (cells : Array Cell) (outer inner : Value) : Prop :=
  ∃ index cell, outer = .cell index ∧ cells[index]? = some cell ∧ inner ∈ cell.values

def Carries (cells : Array Cell) : Value → Value → Prop := ReflTransGen (Contains cells)

variable {cells later : Array Cell} {value goal : Value} {cell : Cell} {tree : Tree}

theorem carries_atom {atom : Atom} (carries : Carries cells (.atom atom) goal) :
    goal = .atom atom := by
  rcases ReflTransGen.cases_head carries with same | ⟨_, ⟨_, _, isCell, _⟩, _⟩
  · exact same.symm
  · cases isCell

theorem values_container (container : cell.isContainer = true) :
    cell.values = cell.keys ++ cell.parts := by
  cases cell with
  | list items => rfl
  | mapping entries => rfl
  | _ => cases container

theorem carries_old (closed : ClosedCells cells) (within : value.Within cells.size)
    (kept : ∀ index < cells.size, later[index]? = cells[index]?)
    (carries : Carries later value goal) : Carries cells value goal := by
  induction carries using ReflTransGen.head_induction_on with
  | refl => exact .refl
  | head contains _ ih =>
      obtain ⟨index, cell, rfl, found, member⟩ := contains
      rw [kept index within] at found
      exact .head ⟨index, cell, rfl, found, member⟩ (ih (closed index cell found _ member))

/-- A number that is carried after the texts of a tree are changed was carried before. -/
theorem carries_replaced (closed : ClosedCells cells) (change : Text → Text)
    (kept : ∀ index < cells.size, later[index]? = cells[index]?)
    (unfolds : Unfolds cells value tree) {value' : Value}
    (unfolds' : Unfolds later value' (tree.mapTexts change)) {number : Int}
    (carries : Carries later value' (.atom (.int number))) :
    Carries cells value (.atom (.int number)) := by
  induction unfolds using Unfolds.induction_parts generalizing value' with
  | atom atom =>
      cases atom <;> simp only [Tree.mapTexts] at unfolds' <;> cases unfolds' <;>
        cases carries_atom carries
      exact .refl
  | whole index cell found simple =>
      have inside := (Array.getElem?_eq_some_iff.mp found).1
      rw [Tree.mapTexts] at unfolds'
      cases unfolds'
      exact carries_old closed inside kept carries
  | container index cell trees found container below =>
      have sizes := below.length_eq
      rw [mapTexts_tree change container sizes] at unfolds'
      obtain ⟨index', cell', rfl, found', container', keys, parts⟩ :=
        unfolds_alike container (by simpa using sizes) unfolds'
      -- The number is in a key, which is the same here and there, or in a part.
      rcases ReflTransGen.cases_head carries with same | ⟨inner, contains, carries⟩
      · cases same
      obtain ⟨_, _, ⟨⟩, again, member⟩ := contains
      cases again.symm.trans found'
      rw [values_container container', keys] at member
      rcases List.mem_append.mp member with isKey | isPart
      · have here : inner ∈ cell.values := by
          rw [values_container container]
          exact List.mem_append_left _ isKey
        have before := carries_old closed (closed index cell found inner here) kept carries
        exact .head ⟨index, cell, rfl, found, here⟩ before
      · obtain ⟨_, among, there⟩ := forall₂_left parts isPart
        obtain ⟨tree, inTrees, rfl⟩ := List.mem_map.mp among
        obtain ⟨part, inParts, -, ih⟩ := forall₂_left below.flip inTrees
        have here : part ∈ cell.values := by
          rw [values_container container]
          exact List.mem_append_right _ inParts
        exact .head ⟨index, cell, rfl, found, here⟩ (ih there carries)

end SecretFill.Data
