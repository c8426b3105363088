import SecretFill.Forest.Basic
import SecretFill.Placeholder
/-!
Walking over trees. `places` lists the leaves below a node, each with its path, in the order in
which a walk comes to them; a branch that was visited before is passed over. A `Walker` replaces
the leaves among them that hold its placeholder, and it never comes to a branch twice.
-/

namespace SecretFill

open SecretFill.Data

structure Substitution where
  path : Text
  key : Text
  deriving DecidableEq, Repr

namespace Forest

structure Place where
  leaf : Nat
  path : Text
  deriving DecidableEq, Repr

def Branch.children (cells : Array Cell) (path : Text) : Branch → List (Node × Text)
  | .sequence items => items.mapIdx fun index node => (node, Path.item path index)
  | .mapping entries =>
      entries.map fun (key, node) => (node, Path.entry path (keyLabel cells key))

/-- The places below nodes, given those below each node, which depend on the branches visited. -/
def placesOfAll (placesOf : Node → Text → List Nat → List Place × List Nat) :
    List (Node × Text) → List Nat → List Place × List Nat
  | [], visited => ([], visited)
  | (node, path) :: rest, visited =>
      let (places, visited) := placesOf node path visited
      let (others, visited) := placesOfAll placesOf rest visited
      (places ++ others, visited)

/-- The places below a node and the branches visited then. `depth` bounds the way down; a branch
has a greater number than those below it. -/
def placesBelow (branches : Array Branch) (cells : Array Cell) :
    Nat → Node → Text → List Nat → List Place × List Nat
  | _, .leaf number, path, visited => ([⟨number, path⟩], visited)
  | 0, .branch _, _, visited => ([], visited)
  | depth + 1, .branch number, path, visited =>
      if number ∈ visited then ([], visited)
      else
        match branches[number]? with
        | none => ([], visited)
        | some branch =>
            -- The branch counts as visited before the walk goes below it.
            placesOfAll (placesBelow branches cells depth) (branch.children cells path)
              (number :: visited)

def places (forest : Forest) (cells : Array Cell) (visited : List Nat) (node : Node)
    (path : Text) : List Place × List Nat :=
  placesBelow forest.branches cells (forest.branches.size + 1) node path visited

def openText? (forest : Forest) (number : Nat) : Option Text :=
  match forest.leaves[number]? with
  | some ⟨.atom (.text text), false⟩ => some text
  | _ => none

def substitute (forest : Forest) (number : Nat) (value : Text) : Forest :=
  { forest with leaves := forest.leaves.setIfInBounds number ⟨.atom (.text value), true⟩ }

end Forest

open Placeholder (Form)

structure Walker where
  key : Text
  form : Form
  value : Text
  /-- The branches that the walker came to. -/
  visited : List Nat
  substitutions : List Substitution
  deriving DecidableEq, Repr

namespace Walker

def new (key : Text) (form : Form) (value : Text) : Walker := ⟨key, form, value, [], []⟩

def matchesText (walker : Walker) (text : Text) : Bool :=
  walker.form.occurs walker.key.toList text.toList

def visitPlace (state : Walker × Forest) (place : Forest.Place) : Walker × Forest :=
  let (walker, forest) := state
  match forest.openText? place.leaf with
  | none => state
  | some text =>
      if walker.matchesText text then
        let record : Substitution := ⟨place.path, walker.key⟩
        ({ walker with substitutions := walker.substitutions ++ [record] },
          forest.substitute place.leaf walker.value)
      else state

def visit (walker : Walker) (cells : Array Cell) (forest : Forest) (node : Forest.Node)
    (path : Text) : Walker × Forest :=
  let (places, visited) := forest.places cells walker.visited node path
  places.foldl visitPlace ({ walker with visited := visited }, forest)

end Walker

end SecretFill
