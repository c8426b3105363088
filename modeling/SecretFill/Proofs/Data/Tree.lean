import Mathlib.Data.List.Forall2
import SecretFill.Data.Stream
/-!
Documents without sharing. A `Tree` is what one sees of a document who does not ask which of its
places share a cell. A document that leads back to itself has no tree; any other one has exactly
one, in which tuples, sets and dates stand as a whole.
-/

namespace SecretFill.Data

def Cell.isContainer : Cell → Bool
  | .list _ => true
  | .mapping _ => true
  | _ => false

inductive Tree
  | atom (atom : Atom)
  | whole (cell : Nat)
  | list (items : List Tree)
  | mapping (entries : List (Value × Tree))

def Tree.mapTexts (change : Text → Text) : Tree → Tree
  | .atom (.text text) => .atom (.text (change text))
  | .atom value => .atom value
  | .whole cell => .whole cell
  | .list items => .list (items.map (mapTexts change))
  | .mapping entries => .mapping (entries.map fun entry => (entry.1, entry.2.mapTexts change))
decreasing_by
  · decreasing_tactic
  · next member =>
      have below := List.sizeOf_lt_of_mem member
      rw [Prod.mk.sizeOf_spec] at below
      simp only [Tree.mapping.sizeOf_spec]
      omega

/-- A value seen without sharing. -/
inductive Unfolds (cells : Array Cell) : Value → Tree → Prop
  | atom (atom : Atom) : Unfolds cells (.atom atom) (.atom atom)
  | whole {index : Nat} {cell : Cell} (found : cells[index]? = some cell)
      (simple : cell.isContainer = false) : Unfolds cells (.cell index) (.whole index)
  | list {index : Nat} {items : List Value} {trees : List Tree}
      (found : cells[index]? = some (.list items)) (sizes : items.length = trees.length)
      (below : ∀ place (inItems : place < items.length) (inTrees : place < trees.length),
        Unfolds cells items[place] trees[place]) :
      Unfolds cells (.cell index) (.list trees)
  | mapping {index : Nat} {entries : List (Value × Value)} {trees : List (Value × Tree)}
      (found : cells[index]? = some (.mapping entries))
      (keys : entries.map Prod.fst = trees.map Prod.fst)
      (below : ∀ place (inEntries : place < entries.length) (inTrees : place < trees.length),
        Unfolds cells entries[place].2 trees[place].2) :
      Unfolds cells (.cell index) (.mapping trees)

theorem unfolds_unique {cells : Array Cell} {value : Value} {first second : Tree}
    (one : Unfolds cells value first) (other : Unfolds cells value second) : first = second := by
  -- One cell has one kind, so only the same constructor is left for the second tree.
  induction one generalizing second with
  | atom atom => cases other; rfl
  | whole found simple =>
      cases other with
      | whole _ _ => rfl
      | list again _ _ => rw [found] at again; cases again; cases simple
      | mapping again _ _ => rw [found] at again; cases again; cases simple
  | list found sizes below ih =>
      cases other with
      | whole again simple => rw [found] at again; cases again; cases simple
      | mapping again _ _ => rw [found] at again; cases again
      | list again others below' =>
          rw [found] at again
          cases again
          refine congrArg Tree.list (List.ext_getElem (sizes.symm.trans others) ?_)
          intro place inFirst inSecond
          exact ih place (by omega) inFirst (below' place (by omega) inSecond)
  | mapping found keys below ih =>
      cases other with
      | whole again simple => rw [found] at again; cases again; cases simple
      | list again _ _ => rw [found] at again; cases again
      | mapping again keys' below' =>
          rw [found] at again
          cases again
          have sizes := congrArg List.length keys
          have sameKeys := keys.symm.trans keys'
          simp only [List.length_map] at sizes
          refine congrArg Tree.mapping (List.ext_getElem
              (by simpa using congrArg List.length sameKeys) ?_)
          intro place inFirst inSecond
          have key : _ = _ := congrArg (fun keys => keys[place]?) sameKeys
          simp only [List.getElem?_map, List.getElem?_eq_getElem inFirst,
            List.getElem?_eq_getElem inSecond, Option.map_some, Option.some.injEq] at key
          exact Prod.ext key (ih place (by omega) inFirst (below' place (by omega) inSecond))

end SecretFill.Data
