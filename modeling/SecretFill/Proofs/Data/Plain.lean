import SecretFill.Proofs.Data.Keys
import SecretFill.Proofs.Data.Tree
/-!
Plain trees: lists and mappings with text keys, nested to a depth, over nulls, truth values,
integers and texts. A value has a tree only if what it holds has smaller ones, so no cell is inside
itself.
-/

namespace SecretFill.Data

def Atom.isSimple : Atom → Bool
  | .null | .bool _ | .int _ | .text _ => true
  | _ => false

def Value.isText : Value → Bool
  | .atom (.text _) => true
  | _ => false

theorem isText_cases {key : Value} (text : key.isText = true) :
    ∃ text, key = .atom (.text text) := by
  cases key with
  | cell index => cases text
  | atom atom =>
      cases atom with
      | text value => exact ⟨value, rfl⟩
      | _ => cases text

/-- Trees without anything but texts as keys, nested to a depth at most. -/
inductive Tree.Plain : Nat → Tree → Prop
  | atom {depth : Nat} {atom : Atom} (simple : atom.isSimple = true) : Plain depth (.atom atom)
  | list {depth : Nat} {items : List Tree} (below : ∀ item ∈ items, Plain depth item) :
      Plain (depth + 1) (.list items)
  | mapping {depth : Nat} {entries : List (Value × Tree)}
      (keys : ∀ entry ∈ entries, entry.1.isText = true)
      (below : ∀ entry ∈ entries, Plain depth entry.2) : Plain (depth + 1) (.mapping entries)

inductive Tree.Distinct : Tree → Prop
  | atom (atom : Atom) : Distinct (.atom atom)
  | whole (cell : Nat) : Distinct (.whole cell)
  | list {items : List Tree} (below : ∀ item ∈ items, Distinct item) : Distinct (.list items)
  | mapping {entries : List (Value × Tree)} (distinct : DistinctKeys entries)
      (below : ∀ entry ∈ entries, Distinct entry.2) : Distinct (.mapping entries)

theorem Tree.Plain.mapTexts (change : Text → Text) {depth : Nat} {tree : Tree}
    (plain : tree.Plain depth) : (tree.mapTexts change).Plain depth := by
  induction plain with
  | @atom depth atom simple => cases atom <;> simp only [Tree.mapTexts] <;> exact .atom simple
  | list below ih =>
      rw [Tree.mapTexts]
      apply Plain.list
      rintro item member
      obtain ⟨original, inside, rfl⟩ := List.mem_map.mp member
      exact ih original inside
  | mapping keys below ih =>
      rw [Tree.mapTexts]
      apply Plain.mapping
      · rintro entry member
        obtain ⟨original, inside, rfl⟩ := List.mem_map.mp member
        exact keys original inside
      · rintro entry member
        obtain ⟨original, inside, rfl⟩ := List.mem_map.mp member
        exact ih original inside

theorem Tree.Distinct.mapTexts (change : Text → Text) {tree : Tree} (distinct : tree.Distinct) :
    (tree.mapTexts change).Distinct := by
  induction distinct with
  | atom atom => cases atom <;> simp only [Tree.mapTexts] <;> exact .atom _
  | whole cell =>
      rw [Tree.mapTexts]
      exact .whole cell
  | list below ih =>
      rw [Tree.mapTexts]
      apply Distinct.list
      rintro item member
      obtain ⟨original, inside, rfl⟩ := List.mem_map.mp member
      exact ih original inside
  | @mapping entries distinct below ih =>
      rw [Tree.mapTexts]
      apply Distinct.mapping
      · have keys : (entries.map fun entry => (entry.1, entry.2.mapTexts change)).map Prod.fst =
            entries.map Prod.fst := by simp
        rw [DistinctKeys, keys]
        exact distinct
      · rintro entry member
        obtain ⟨original, inside, rfl⟩ := List.mem_map.mp member
        exact ih original inside

/-! ### Values and their trees -/

variable {cells : Array Cell} {index : Nat}

theorem unfolds_list_iff {trees : List Tree} :
    Unfolds cells (.cell index) (.list trees) ↔
      ∃ items, cells[index]? = some (.list items) ∧ List.Forall₂ (Unfolds cells) items trees := by
  constructor
  · rintro (_ | _ | ⟨found, sizes, below⟩ | _)
    exact ⟨_, found, List.forall₂_iff_get.mpr ⟨sizes, below⟩⟩
  · rintro ⟨items, found, below⟩
    obtain ⟨sizes, each⟩ := List.forall₂_iff_get.mp below
    exact .list found sizes each

theorem unfolds_mapping_iff {trees : List (Value × Tree)} :
    Unfolds cells (.cell index) (.mapping trees) ↔
      ∃ entries, cells[index]? = some (.mapping entries) ∧
        List.Forall₂ (EntriesMatch (Unfolds cells)) entries trees := by
  constructor
  · rintro (_ | _ | _ | ⟨found, keys, below⟩)
    refine ⟨_, found, List.forall₂_iff_get.mpr ⟨by simpa using congrArg List.length keys, ?_⟩⟩
    intro place inEntries inTrees
    have key := congrArg (fun keys => keys[place]?) keys
    simp only [List.getElem?_map, List.getElem?_eq_getElem inEntries,
      List.getElem?_eq_getElem inTrees, Option.map_some, Option.some.injEq] at key
    exact ⟨key, below place inEntries inTrees⟩
  · rintro ⟨entries, found, below⟩
    obtain ⟨sizes, each⟩ := List.forall₂_iff_get.mp below
    apply Unfolds.mapping found
    · apply List.ext_getElem (by simpa using sizes)
      intro place inEntries inTrees
      simp only [List.length_map] at inEntries inTrees
      simpa using (each place inEntries inTrees).1
    · intro place inEntries inTrees
      exact (each place inEntries inTrees).2

theorem Unfolds.extend {cells later : Array Cell}
    (extends' : ∀ (index : Nat) (cell : Cell), cells[index]? = some cell → later[index]? = some cell)
    {value : Value} {tree : Tree} (unfolds : Unfolds cells value tree) : Unfolds later value tree := by
  induction unfolds with
  | atom atom => exact .atom atom
  | whole found simple => exact .whole (extends' _ _ found) simple
  | list found sizes below ih => exact .list (extends' _ _ found) sizes ih
  | mapping found keys below ih => exact .mapping (extends' _ _ found) keys ih

/-- A cell that may hold a value: its own tree is not smaller than that of the value. -/
def Holds (cells : Array Cell) (tree : Tree) (outer : Nat) : Prop :=
  ∃ whole, Unfolds cells (.cell outer) whole ∧ sizeOf tree < sizeOf whole

theorem not_held {tree : Tree} (unfolds : Unfolds cells (.cell index) tree) {outer : List Nat}
    (holds : ∀ cell ∈ outer, Holds cells tree cell) : index ∉ outer := by
  intro member
  obtain ⟨whole, again, smaller⟩ := holds index member
  rw [unfolds_unique unfolds again] at smaller
  exact Nat.lt_irrefl _ smaller

theorem sizeOf_item {item : Tree} {items : List Tree} (member : item ∈ items) :
    sizeOf item < sizeOf (Tree.list items) := by
  have below := List.sizeOf_lt_of_mem member
  rw [Tree.list.sizeOf_spec]
  omega

theorem sizeOf_entry {entry : Value × Tree} {entries : List (Value × Tree)}
    (member : entry ∈ entries) : sizeOf entry.2 < sizeOf (Tree.mapping entries) := by
  have below := List.sizeOf_lt_of_mem member
  obtain ⟨key, tree⟩ := entry
  rw [Prod.mk.sizeOf_spec] at below
  rw [Tree.mapping.sizeOf_spec]
  simp only
  omega

theorem holds_inside {tree inner : Tree} (unfolds : Unfolds cells (.cell index) tree)
    (smaller : sizeOf inner < sizeOf tree) {outer : List Nat}
    (holds : ∀ cell ∈ outer, Holds cells tree cell) :
    ∀ cell ∈ index :: outer, Holds cells inner cell := by
  intro cell member
  rcases List.mem_cons.mp member with rfl | inside
  · exact ⟨tree, unfolds, smaller⟩
  · obtain ⟨whole, again, below⟩ := holds cell inside
    exact ⟨whole, again, Nat.lt_trans smaller below⟩

theorem Unfolds.distinct {value : Value} {tree : Tree} (unfolds : Unfolds cells value tree)
    (distinct : ∀ (index : Nat) (entries : List (Value × Value)),
      cells[index]? = some (.mapping entries) → DistinctKeys entries) : tree.Distinct := by
  induction unfolds with
  | atom atom => exact .atom atom
  | whole found simple => exact .whole _
  | @list index items trees found sizes below ih =>
      apply Tree.Distinct.list
      intro tree member
      obtain ⟨place, inside, rfl⟩ := List.mem_iff_getElem.mp member
      exact ih place (by omega) inside
  | @mapping index entries trees found keys below ih =>
      apply Tree.Distinct.mapping
      · rw [DistinctKeys, ← keys]
        exact distinct index entries found
      · intro entry member
        obtain ⟨place, inside, rfl⟩ := List.mem_iff_getElem.mp member
        have sizes : entries.length = trees.length := by simpa using congrArg List.length keys
        exact ih place (by omega) inside

end SecretFill.Data
