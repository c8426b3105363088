import SecretFill.Data.Stream
import SecretFill.Forest.Path
/-!
Trees of documents. Lists and mappings become branches, and everything else, tuples and sets
included, becomes a leaf; what several places of a document share is one branch. A branch is
numbered after the branches below it, and the leaves are numbered in the order in which a walk
from the root first comes to them. `plant` refuses a document in which a container holds itself.
-/

namespace SecretFill

open SecretFill.Data

namespace Forest

inductive Node
  | leaf (number : Nat)
  | branch (number : Nat)
  deriving DecidableEq, Repr, Inhabited

inductive Branch
  | sequence (items : List Node)
  | mapping (entries : List (Value × Node))
  deriving DecidableEq, Repr, Inhabited

structure Leaf where
  value : Value
  /-- The value came from a secret. -/
  substituted : Bool
  deriving DecidableEq, Repr, Inhabited

end Forest

structure Forest where
  branches : Array Forest.Branch
  leaves : Array Forest.Leaf
  deriving DecidableEq, Repr

namespace Forest

def empty : Forest := ⟨#[], #[]⟩

inductive PlantError
  /-- At this path a container is reached that holds the path. -/
  | cycle (path : Text)
  /-- A key has no text, so that nothing below it has a path. -/
  | unnamed
  deriving DecidableEq, Repr

/-- A forest that is growing, and the branches that cells of the current document have become. -/
structure Growth where
  forest : Forest
  finished : List (Nat × Nat)

def Growth.addLeaf (growth : Growth) (value : Value) : Node × Growth :=
  let leaves := growth.forest.leaves.push ⟨value, false⟩
  let forest := { growth.forest with leaves := leaves }
  (.leaf growth.forest.leaves.size, { growth with forest := forest })

def Growth.addBranch (growth : Growth) (cell : Nat) (branch : Branch) : Node × Growth :=
  let number := growth.forest.branches.size
  let branches := growth.forest.branches.push branch
  (.branch number,
    { forest := { growth.forest with branches := branches }
      finished := (cell, number) :: growth.finished })

abbrev Grow := Value → Text → Growth → Except PlantError (Node × Growth)

def growItems (grow : Grow) (path : Text) : Nat → List Value → Growth →
    Except PlantError (List Node × Growth)
  | _, [], growth => .ok ([], growth)
  | index, value :: rest, growth => do
      let (node, growth) ← grow value (Path.item path index) growth
      let (nodes, growth) ← growItems grow path (index + 1) rest growth
      .ok (node :: nodes, growth)

def growEntries (grow : Grow) (cells : Array Cell) (path : Text) : List (Value × Value) →
    Growth → Except PlantError (List (Value × Node) × Growth)
  | [], growth => .ok ([], growth)
  | (key, value) :: rest, growth => do
      if !hasLabel key then .error .unnamed
      else
        let (node, growth) ← grow value (Path.entry path (keyLabel cells key)) growth
        let (entries, growth) ← growEntries grow cells path rest growth
        .ok ((key, node) :: entries, growth)

/-- Grows the tree of a value. `ancestors` are the cells on the way to it. A way through more cells
than there are passes one of them twice, so `depth` never runs out before a cycle is found. -/
def grow (cells : Array Cell) : Nat → List Nat → Grow
  | 0, _, _, path, _ => .error (.cycle path)
  | depth + 1, ancestors, value, path, growth =>
      match value with
      | .atom _ => .ok (growth.addLeaf value)
      | .cell index =>
          let inside := grow cells depth (index :: ancestors)
          -- A cell on the way to itself is a cycle; one that is finished is shared.
          let checked (result : Except PlantError (Node × Growth)) :
              Except PlantError (Node × Growth) :=
            if index ∈ ancestors then .error (.cycle path)
            else
              match growth.finished.lookup index with
              | some number => .ok (.branch number, growth)
              | none => result
          match cells[index]? with
          | some (.list items) =>
              checked do
                let (nodes, growth) ← growItems inside path 0 items growth
                .ok (growth.addBranch index (.sequence nodes))
          | some (.mapping entries) =>
              checked do
                let (entries, growth) ← growEntries inside cells path entries growth
                .ok (growth.addBranch index (.mapping entries))
          | _ => .ok (growth.addLeaf value)

def plant (cells : Array Cell) (root : Value) (path : Text) (forest : Forest) :
    Except PlantError (Node × Forest) := do
  -- Each document begins with nothing finished, so documents share no branches.
  let (node, growth) ← grow cells (cells.size + 1) [] root path ⟨forest, []⟩
  .ok (node, growth.forest)

def Node.toValue (leaves : Array Leaf) (base : Nat) : Node → Value
  | .leaf number => (leaves[number]?.map Leaf.value).getD (.atom .null)
  | .branch number => .cell (base + number)

def Branch.toCell (leaves : Array Leaf) (base : Nat) : Branch → Cell
  | .sequence items => .list (items.map (Node.toValue leaves base))
  | .mapping entries =>
      .mapping (entries.map fun (key, node) => (key, node.toValue leaves base))

/-- The documents of some trees: the branches as cells behind those that the leaves refer to. -/
def toStream (forest : Forest) (cells : Array Cell) (roots : List Node) : Stream :=
  { cells := cells ++ forest.branches.map (Branch.toCell forest.leaves cells.size)
    roots := roots.map (Node.toValue forest.leaves cells.size) }

end Forest

end SecretFill
