import SecretFill.Forest.Basic
import SecretFill.Proofs.Data.Route
import SecretFill.Proofs.Outcome
/-!
Growing a container part by part. Lists and mappings grow alike: `growParts` goes over the parts of
either, and the branch takes its kind and its keys from the cell. What holds of every value that has
grown follows by `grow_induction`, with one case for each way to grow.
-/

namespace SecretFill.Forest

open SecretFill.Data

/-- What parts grow into, one after the other. A part without a path does not grow. -/
def growParts (grow : Grow) : List (Value × Option Text) → Growth →
    Except PlantError (List Node × Growth)
  | [], growth => .ok ([], growth)
  | (_, none) :: _, _ => .error .unnamed
  | (value, some path) :: rest, growth => do
      let (node, growth) ← grow value path growth
      let (nodes, growth) ← growParts grow rest growth
      .ok (node :: nodes, growth)

def branchOf (nodes : List Node) : Cell → Branch
  | .mapping entries => .mapping ((entries.map Prod.fst).zip nodes)
  | _ => .sequence nodes

def Growth.done (growth : Growth) : List Nat := growth.finished.map Prod.fst

inductive Row (grows : Value → Growth → Node → Growth → Prop) :
    List Value → Growth → List Node → Growth → Prop
  | nil {growth : Growth} : Row grows [] growth [] growth
  | cons {value : Value} {values : List Value} {node : Node} {nodes : List Node}
      {growth middle after : Growth} (first : grows value growth node middle)
      (rest : Row grows values middle nodes after) :
      Row grows (value :: values) growth (node :: nodes) after

/-- The parts of a container grow into nodes one after the other, each along the path that it has.
-/
inductive PathRow (grows : Value → Text → Growth → Node → Growth → Prop) :
    List (Value × Option Text) → Growth → List (Node × Text) → Growth → Prop
  | nil {growth : Growth} : PathRow grows [] growth [] growth
  | cons {value : Value} {path : Text} {steps : List (Value × Option Text)} {node : Node}
      {starts : List (Node × Text)} {growth middle after : Growth}
      (first : grows value path growth node middle)
      (rest : PathRow grows steps middle starts after) :
      PathRow grows ((value, some path) :: steps) growth ((node, path) :: starts) after

variable {cells : Array Cell} {depth index : Nat} {ancestors : List Nat} {value : Value}
  {path : Text} {growth after : Growth} {node : Node}

theorem mem_done {index : Nat} : index ∈ growth.done ↔ growth.finished.lookup index ≠ none := by
  rw [Growth.done, ne_eq, List.lookup_eq_none_iff]
  simp

theorem growItems_eq (grow : Grow) (path : Text) (start : Nat) (items : List Value)
    (growth : Growth) :
    growItems grow path start items growth =
      growParts grow
        (items.mapIdx fun place item => (item, some (Path.item path (start + place)))) growth := by
  induction items generalizing start growth with
  | nil => rfl
  | cons item rest ih =>
      have shifted :
          (fun place (item : Value) => (item, some (Path.item path (start + (place + 1))))) =
            fun place item => (item, some (Path.item path (start + 1 + place))) := by
        funext place item
        rw [Nat.add_comm place, Nat.add_assoc]
      rw [List.mapIdx_cons, shifted]
      simp only [growItems, growParts, ih, Nat.add_zero]

theorem growEntries_eq (grow : Grow) (cells : Array Cell) (path : Text)
    (entries : List (Value × Value)) (growth : Growth) :
    growEntries grow cells path entries growth =
      (growParts grow ((Cell.mapping entries).steps cells path) growth).map fun (nodes, after) =>
        ((entries.map Prod.fst).zip nodes, after) := by
  induction entries generalizing growth with
  | nil => rfl
  | cons entry rest ih =>
      obtain ⟨key, value⟩ := entry
      simp only [Cell.steps] at ih
      by_cases labelled : hasLabel key = true
      · simp only [Cell.steps, List.map_cons, growEntries, growParts, labelled, ih, if_true,
          Bool.not_true, Bool.false_eq_true, if_false]
        rcases grow value (Path.entry path (keyLabel cells key)) growth with error | ⟨node, middle⟩
        · rfl
        · simp only [bind, Except.bind]
          rcases growParts grow _ middle with error | ⟨nodes, after⟩ <;> rfl
      · simp [Cell.steps, growEntries, growParts, labelled, Except.map]

theorem grow_leaf (simple : ∀ index, value = .cell index → ¬ IsContainer cells index) :
    grow cells (depth + 1) ancestors value path growth = .ok (growth.addLeaf value) := by
  cases value with
  | atom atom => rfl
  | cell index =>
      have plain : ∀ cell, cells[index]? = some cell → ¬ cell.isContainer = true :=
        fun cell found container => simple index rfl ⟨cell, found, container⟩
      simp only [grow]
      split
      · next found => exact absurd rfl (plain _ found)
      · next found => exact absurd rfl (plain _ found)
      · rfl

/-- A container is a cycle inside itself, is the branch that it has become, or becomes one now. -/
theorem grow_container {cell : Cell} (found : cells[index]? = some cell)
    (container : cell.isContainer = true) :
    grow cells (depth + 1) ancestors (.cell index) path growth =
      if index ∈ ancestors then .error (.cycle path)
      else
        match growth.finished.lookup index with
        | some number => .ok (.branch number, growth)
        | none =>
            growParts (grow cells depth (index :: ancestors)) (cell.steps cells path) growth >>=
              fun (nodes, after) => .ok (after.addBranch index (branchOf nodes cell)) := by
  -- Lists and mappings differ only in how their parts are gone over.
  cases cell with
  | list items =>
      have parts : growItems (grow cells depth (index :: ancestors)) path 0 items growth =
          growParts (grow cells depth (index :: ancestors)) ((Cell.list items).steps cells path)
            growth := by
        simp only [growItems_eq, Cell.steps, Nat.zero_add]
      by_cases again : index ∈ ancestors
      · simp only [grow, found, again, if_true]
      · cases past : growth.finished.lookup index with
        | some number => simp only [grow, found, again, past, if_false]
        | none =>
            rcases inside : growParts (grow cells depth (index :: ancestors))
              ((Cell.list items).steps cells path) growth with error | ⟨nodes, after⟩ <;>
              simp only [grow, found, again, past, if_false, parts, inside, branchOf, bind,
                Except.bind]
  | mapping entries =>
      have parts := growEntries_eq (grow cells depth (index :: ancestors)) cells path entries growth
      by_cases again : index ∈ ancestors
      · simp only [grow, found, again, if_true]
      · cases past : growth.finished.lookup index with
        | some number => simp only [grow, found, again, past, if_false]
        | none =>
            rcases inside : growParts (grow cells depth (index :: ancestors))
              ((Cell.mapping entries).steps cells path) growth with error | ⟨nodes, after⟩ <;>
              simp only [grow, found, again, past, if_false, parts, inside, branchOf, bind,
                Except.bind, Except.map]
  | _ => cases container

theorem growParts_ok {grow : Grow} {parts : List (Value × Option Text)} {nodes : List Node}
    (grown : growParts grow parts growth = .ok (nodes, after)) :
    ∃ starts, nodes = starts.map Prod.fst ∧
      PathRow (fun value path growth node after => grow value path growth = .ok (node, after))
        parts growth starts after := by
  induction parts generalizing growth nodes with
  | nil =>
      cases grown
      exact ⟨[], rfl, .nil⟩
  | cons part rest ih =>
      obtain ⟨value, _ | path⟩ := part
      · cases grown
      · obtain ⟨⟨node, middle⟩, first, grown⟩ := bind_eq_ok grown
        obtain ⟨⟨others, last⟩, second, grown⟩ := bind_eq_ok grown
        cases grown
        obtain ⟨starts, rfl, row⟩ := ih second
        exact ⟨(node, path) :: starts, rfl, .cons first row⟩

theorem PathRow.imp {grows grows' : Value → Text → Growth → Node → Growth → Prop}
    (implies : ∀ value path growth node after, grows value path growth node after →
      grows' value path growth node after) {steps : List (Value × Option Text)}
    {starts : List (Node × Text)} (row : PathRow grows steps growth starts after) :
    PathRow grows' steps growth starts after := by
  induction row with
  | nil => exact .nil
  | cons first _ ih => exact .cons (implies _ _ _ _ _ first) ih

theorem PathRow.row {grows : Value → Growth → Node → Growth → Prop}
    {steps : List (Value × Option Text)} {starts : List (Node × Text)}
    (row : PathRow (fun value _ growth node after => grows value growth node after)
      steps growth starts after) :
    Row grows (steps.map Prod.fst) growth (starts.map Prod.fst) after := by
  induction row with
  | nil => exact .nil
  | cons first _ ih => exact .cons first ih

theorem PathRow.paths {grows : Value → Text → Growth → Node → Growth → Prop}
    {steps : List (Value × Option Text)} {starts : List (Node × Text)}
    (row : PathRow grows steps growth starts after) :
    steps.map Prod.snd = starts.map fun start => some start.2 := by
  induction row with
  | nil => rfl
  | cons _ _ ih => rw [List.map_cons, List.map_cons, ih]

theorem Row.length_eq {grows : Value → Growth → Node → Growth → Prop} {values : List Value}
    {nodes : List Node} (row : Row grows values growth nodes after) :
    values.length = nodes.length := by
  induction row with
  | nil => rfl
  | cons _ _ ih => rw [List.length_cons, List.length_cons, ih]

theorem Row.imp {grows grows' : Value → Growth → Node → Growth → Prop}
    (implies : ∀ value growth node after, grows value growth node after →
      grows' value growth node after) {values : List Value} {nodes : List Node}
    (row : Row grows values growth nodes after) : Row grows' values growth nodes after := by
  induction row with
  | nil => exact .nil
  | cons first _ ih => exact .cons (implies _ _ _ _ first) ih

theorem Row.chain {related : Growth → Growth → Prop} (refl : ∀ growth, related growth growth)
    (trans : ∀ first second third, related first second → related second third →
      related first third) {values : List Value} {nodes : List Node}
    (row : Row (fun _ growth _ after => related growth after) values growth nodes after) :
    related growth after := by
  induction row with
  | nil => exact refl _
  | cons first _ ih => exact trans _ _ _ first ih

/-- What holds of every leaf, of every container that has grown before, and of every new branch if
it holds of the parts below it and their paths, holds of all that grows. -/
theorem grow_induction_path {motive : List Nat → Value → Text → Growth → Node → Growth → Prop}
    (leaf : ∀ ancestors value path growth,
      (∀ index, value = .cell index → ¬ IsContainer cells index) →
      motive ancestors value path growth (growth.addLeaf value).1 (growth.addLeaf value).2)
    (known : ∀ ancestors index path number growth, IsContainer cells index →
      growth.finished.lookup index = some number →
      motive ancestors (.cell index) path growth (.branch number) growth)
    (fresh : ∀ ancestors index path cell growth starts middle, cells[index]? = some cell →
      cell.isContainer = true → index ∉ ancestors → growth.finished.lookup index = none →
      PathRow (motive (index :: ancestors)) (cell.steps cells path) growth starts middle →
      motive ancestors (.cell index) path growth
        (middle.addBranch index (branchOf (starts.map Prod.fst) cell)).1
        (middle.addBranch index (branchOf (starts.map Prod.fst) cell)).2)
    (grown : grow cells depth ancestors value path growth = .ok (node, after)) :
    motive ancestors value path growth node after := by
  -- The depth stands for the recursion; it bounds nothing here, since the value has grown.
  induction depth generalizing ancestors value path growth node after with
  | zero => cases grown
  | succ depth ih =>
      by_cases container : ∃ index, value = .cell index ∧ IsContainer cells index
      · obtain ⟨index, rfl, cell, found, container⟩ := container
        rw [grow_container found container] at grown
        split at grown
        · cases grown
        · next outside =>
            split at grown
            · next number past =>
                cases grown
                exact known _ _ _ _ _ ⟨cell, found, container⟩ past
            · next absent =>
                obtain ⟨⟨nodes, middle⟩, inside, grown⟩ := bind_eq_ok grown
                cases grown
                obtain ⟨starts, rfl, row⟩ := growParts_ok inside
                exact fresh _ _ _ _ _ _ _ found container outside absent
                  (row.imp fun _ _ _ _ _ grown => ih grown)
      · have simple : ∀ index, value = .cell index → ¬ IsContainer cells index :=
          fun index same inside => container ⟨index, same, inside⟩
        rw [grow_leaf simple] at grown
        cases grown
        exact leaf _ _ _ _ simple

theorem grow_induction {motive : List Nat → Value → Growth → Node → Growth → Prop}
    (leaf : ∀ ancestors value growth,
      (∀ index, value = .cell index → ¬ IsContainer cells index) →
      motive ancestors value growth (growth.addLeaf value).1 (growth.addLeaf value).2)
    (known : ∀ ancestors index number growth, IsContainer cells index →
      growth.finished.lookup index = some number →
      motive ancestors (.cell index) growth (.branch number) growth)
    (fresh : ∀ ancestors index cell growth nodes middle, cells[index]? = some cell →
      cell.isContainer = true → index ∉ ancestors → growth.finished.lookup index = none →
      Row (motive (index :: ancestors)) cell.parts growth nodes middle →
      motive ancestors (.cell index) growth (middle.addBranch index (branchOf nodes cell)).1
        (middle.addBranch index (branchOf nodes cell)).2)
    (grown : grow cells depth ancestors value path growth = .ok (node, after)) :
    motive ancestors value growth node after := by
  refine grow_induction_path
    (motive := fun ancestors value _ growth node after => motive ancestors value growth node after)
    (fun ancestors value _ => leaf ancestors value)
    (fun ancestors index _ => known ancestors index) ?_ grown
  intro ancestors index path cell growth starts middle found container outside absent row
  have parts := row.row
  rw [map_fst_steps] at parts
  exact fresh ancestors index cell growth _ middle found container outside absent parts

theorem grow_of_plant {forest later : Forest} {root : Value}
    (planted : forest.plant cells root path = .ok (node, later)) :
    ∃ growth, grow cells (cells.size + 1) [] root path ⟨forest, []⟩ = .ok (node, growth) ∧
      growth.forest = later := by
  obtain ⟨⟨_, growth⟩, grown, planted⟩ := bind_eq_ok planted
  cases planted
  exact ⟨growth, grown, rfl⟩

end SecretFill.Forest
