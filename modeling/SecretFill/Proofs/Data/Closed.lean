import SecretFill.Data.Stream
/-!
Streams whose cells refer to cells of the same stream only.
-/

namespace SecretFill.Data

def Value.Within (size : Nat) : Value → Prop
  | .atom _ => True
  | .cell index => index < size

instance (size : Nat) : (value : Value) → Decidable (value.Within size)
  | .atom _ => isTrue trivial
  | .cell index => inferInstanceAs (Decidable (index < size))

def Cell.values : Cell → List Value
  | .list items => items
  | .mapping entries => entries.map Prod.fst ++ entries.map Prod.snd
  | .tuple items => items
  | .set members => members
  | _ => []

/-- Every value in some cells is an atom or one of the cells. -/
def ClosedCells (cells : Array Cell) : Prop :=
  ∀ (index : Nat) (cell : Cell), cells[index]? = some cell →
    ∀ value ∈ cell.values, value.Within cells.size

theorem closedCells_iff (cells : Array Cell) :
    ClosedCells cells ↔ ∀ cell ∈ cells.toList, ∀ value ∈ cell.values, value.Within cells.size := by
  constructor
  · intro closed cell member
    obtain ⟨index, found⟩ := List.mem_iff_getElem?.mp member
    exact closed index cell (by simpa using found)
  · intro closed index cell found
    exact closed cell (List.mem_iff_getElem?.mpr ⟨index, by simpa using found⟩)

instance (cells : Array Cell) : Decidable (ClosedCells cells) :=
  decidable_of_iff _ (closedCells_iff cells).symm

structure Stream.Closed (stream : Stream) : Prop where
  roots : ∀ root ∈ stream.roots, root.Within stream.cells.size
  cells : ClosedCells stream.cells

instance (stream : Stream) : Decidable stream.Closed :=
  decidable_of_iff ((∀ root ∈ stream.roots, root.Within stream.cells.size) ∧
    ClosedCells stream.cells) ⟨fun both => ⟨both.1, both.2⟩, fun closed => ⟨closed.1, closed.2⟩⟩

end SecretFill.Data
