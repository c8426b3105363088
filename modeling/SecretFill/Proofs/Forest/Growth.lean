import Mathlib.Data.List.Forall2
import SecretFill.Interpolation
import SecretFill.Proofs.Forest.Parts
/-!
What planting guarantees. A planted node stands for its value (`Planted`): a leaf keeps the value,
and a branch has a node for each value of its cell. Later plants only add to a forest, and the
branches below a branch have smaller numbers (`Ordered`).
-/

namespace SecretFill.Forest

open SecretFill.Data

def Branch.nodes : Branch → List Node
  | .sequence items => items
  | .mapping entries => entries.map Prod.snd

def Node.Within (forest : Forest) : Node → Prop
  | .leaf number => number < forest.leaves.size
  | .branch number => number < forest.branches.size

instance (forest : Forest) : (node : Node) → Decidable (node.Within forest)
  | .leaf number => inferInstanceAs (Decidable (number < forest.leaves.size))
  | .branch number => inferInstanceAs (Decidable (number < forest.branches.size))

def Node.Precedes (forest : Forest) (limit : Nat) : Node → Prop
  | .leaf number => number < forest.leaves.size
  | .branch number => number < limit

/-- Every branch comes after those below it. -/
def Ordered (forest : Forest) : Prop :=
  ∀ (number : Nat) (branch : Branch), forest.branches[number]? = some branch →
    ∀ node ∈ branch.nodes, node.Precedes forest number

structure Extends (forest later : Forest) : Prop where
  leaves : ∀ (number : Nat) (leaf : Leaf), forest.leaves[number]? = some leaf →
    later.leaves[number]? = some leaf
  branches : ∀ (number : Nat) (branch : Branch), forest.branches[number]? = some branch →
    later.branches[number]? = some branch

theorem extends_refl (forest : Forest) : Extends forest forest :=
  ⟨fun _ _ found => found, fun _ _ found => found⟩

theorem Extends.trans {first second third : Forest} (early : Extends first second)
    (late : Extends second third) : Extends first third :=
  ⟨fun number leaf found => late.leaves number leaf (early.leaves number leaf found),
    fun number branch found => late.branches number branch (early.branches number branch found)⟩

/-- A node stands for a value. -/
inductive Planted (cells : Array Cell) (forest : Forest) : Value → Node → Prop
  | atom {atom : Atom} {number : Nat}
      (leaf : forest.leaves[number]? = some ⟨.atom atom, false⟩) :
      Planted cells forest (.atom atom) (.leaf number)
  | whole {index number : Nat} (leaf : forest.leaves[number]? = some ⟨.cell index, false⟩)
      (simple : ∀ cell, cells[index]? = some cell → cell.isContainer = false) :
      Planted cells forest (.cell index) (.leaf number)
  | list {index number : Nat} {items : List Value} {nodes : List Node}
      (found : cells[index]? = some (.list items))
      (branch : forest.branches[number]? = some (.sequence nodes))
      (sizes : items.length = nodes.length)
      (below : ∀ place (inItems : place < items.length) (inNodes : place < nodes.length),
        Planted cells forest items[place] nodes[place]) :
      Planted cells forest (.cell index) (.branch number)
  | mapping {index number : Nat} {entries : List (Value × Value)}
      {children : List (Value × Node)} (found : cells[index]? = some (.mapping entries))
      (branch : forest.branches[number]? = some (.mapping children))
      (keys : entries.map Prod.fst = children.map Prod.fst)
      (below : ∀ place (inEntries : place < entries.length) (inChildren : place < children.length),
        Planted cells forest entries[place].2 children[place].2) :
      Planted cells forest (.cell index) (.branch number)

theorem Planted.extend {cells : Array Cell} {forest later : Forest} {value : Value} {node : Node}
    (planted : Planted cells forest value node) (extended : Extends forest later) :
    Planted cells later value node := by
  induction planted with
  | atom leaf => exact .atom (extended.leaves _ _ leaf)
  | whole leaf simple => exact .whole (extended.leaves _ _ leaf) simple
  | list found branch sizes _ ih =>
      exact .list found (extended.branches _ _ branch) sizes ih
  | mapping found branch keys _ ih =>
      exact .mapping found (extended.branches _ _ branch) keys ih

theorem Planted.within {cells : Array Cell} {forest : Forest} {value : Value} {node : Node}
    (planted : Planted cells forest value node) : node.Within forest := by
  cases planted with
  | atom leaf => exact (Array.getElem?_eq_some_iff.mp leaf).1
  | whole leaf _ => exact (Array.getElem?_eq_some_iff.mp leaf).1
  | list _ branch _ _ => exact (Array.getElem?_eq_some_iff.mp branch).1
  | mapping _ branch _ _ => exact (Array.getElem?_eq_some_iff.mp branch).1

/-! ### Growing -/

/-- What holds while a document is planted. -/
structure Growth.Sound (cells : Array Cell) (growth : Growth) : Prop where
  ordered : Ordered growth.forest
  finished : ∀ index number, (index, number) ∈ growth.finished →
    Planted cells growth.forest (.cell index) (.branch number)

structure Grown (cells : Array Cell) (before after : Growth) : Prop where
  sound : after.Sound cells
  grows : Extends before.forest after.forest

theorem addLeaf_extends (growth : Growth) (value : Value) :
    Extends growth.forest (growth.addLeaf value).2.forest := by
  refine ⟨fun number leaf found => ?_, fun _ _ found => found⟩
  simp only [Growth.addLeaf]
  grind

theorem addBranch_extends (growth : Growth) (cell : Nat) (branch : Branch) :
    Extends growth.forest (growth.addBranch cell branch).2.forest := by
  refine ⟨fun _ _ found => found, fun number other found => ?_⟩
  simp only [Growth.addBranch]
  grind

theorem Node.Precedes.extend {forest later : Forest} {node : Node} {limit : Nat}
    (precedes : node.Precedes forest limit) (extended : Extends forest later) :
    node.Precedes later limit := by
  cases node with
  | branch number => exact precedes
  | leaf number =>
      have found := extended.leaves number _ (Array.getElem?_eq_getElem precedes)
      exact (Array.getElem?_eq_some_iff.mp found).1

theorem ordered_addLeaf {growth : Growth} (ordered : Ordered growth.forest) (value : Value) :
    Ordered (growth.addLeaf value).2.forest := by
  intro number branch found node member
  exact (ordered number branch found node member).extend (addLeaf_extends growth value)

theorem ordered_addBranch {growth : Growth} (ordered : Ordered growth.forest) (cell : Nat)
    (branch : Branch) (within : ∀ node ∈ branch.nodes, node.Within growth.forest) :
    Ordered (growth.addBranch cell branch).2.forest := by
  intro number other found node member
  have extended := addBranch_extends growth cell branch
  simp only [Growth.addBranch, Array.getElem?_push] at found
  split at found
  · next last =>
      -- The new branch has the greatest number of all.
      cases found
      subst last
      have inside := within node member
      cases node with
      | leaf number =>
          have precedes : (Node.leaf number).Precedes growth.forest 0 := inside
          exact precedes.extend extended
      | branch _ => exact inside
  · exact (ordered number other found node member).extend extended

theorem sound_addLeaf {cells : Array Cell} {growth : Growth} (sound : growth.Sound cells)
    (value : Value) : Grown cells growth (growth.addLeaf value).2 := by
  have extended := addLeaf_extends growth value
  refine ⟨⟨ordered_addLeaf sound.ordered value, fun index number member => ?_⟩, extended⟩
  exact (sound.finished index number member).extend extended

theorem sound_addBranch {cells : Array Cell} {growth : Growth} {index : Nat} {branch : Branch}
    (sound : growth.Sound cells) (within : ∀ node ∈ branch.nodes, node.Within growth.forest)
    (planted : Planted cells (growth.addBranch index branch).2.forest (.cell index)
      (growth.addBranch index branch).1) :
    Grown cells growth (growth.addBranch index branch).2 := by
  have extended := addBranch_extends growth index branch
  refine ⟨⟨ordered_addBranch sound.ordered index branch within, fun other number member => ?_⟩,
    extended⟩
  rcases List.mem_cons.mp member with fresh | old
  · cases fresh
    exact planted
  · exact (sound.finished other number old).extend extended

/-- Growing keeps a growth sound and gives a node that stands for the value. -/
def Grow.Faithful (cells : Array Cell) (grow : Grow) : Prop :=
  ∀ value path growth node after, Growth.Sound cells growth →
    grow value path growth = .ok (node, after) →
      Grown cells growth after ∧ Planted cells after.forest value node

theorem mem_of_lookup {entries : List (Nat × Nat)} {index number : Nat}
    (known : entries.lookup index = some number) : (index, number) ∈ entries := by
  obtain ⟨before, after, same, _⟩ := List.lookup_eq_some_iff.mp known
  rw [same]
  exact List.mem_append_right before List.mem_cons_self

theorem nodes_within {cells : Array Cell} {forest : Forest} {items : List Value}
    {nodes : List Node} (below : List.Forall₂ (Planted cells forest) items nodes) :
    ∀ node ∈ nodes, node.Within forest := by
  induction below with
  | nil => intro node member; cases member
  | cons planted _ ih =>
      intro node member
      rcases List.mem_cons.mp member with same | later
      · rw [same]
        exact planted.within
      · exact ih node later

theorem nodes_branchOf {cell : Cell} {nodes : List Node}
    (sizes : cell.parts.length = nodes.length) : (branchOf nodes cell).nodes = nodes := by
  cases cell with
  | mapping entries =>
      have enough : nodes.length ≤ (entries.map Prod.fst).length := by simp [← sizes, Cell.parts]
      exact List.map_snd_zip enough
  | _ => rfl

theorem planted_branchOf {cells : Array Cell} {forest : Forest} {cell : Cell} {index number : Nat}
    {nodes : List Node} (found : cells[index]? = some cell) (container : cell.isContainer = true)
    (branch : forest.branches[number]? = some (branchOf nodes cell))
    (below : List.Forall₂ (Planted cells forest) cell.parts nodes) :
    Planted cells forest (.cell index) (.branch number) := by
  cases cell with
  | list items =>
      exact .list found branch below.length_eq fun place inItems inNodes =>
        below.get inItems inNodes
  | mapping entries =>
      have sizes : entries.length = nodes.length := by simpa [Cell.parts] using below.length_eq
      have keys : ((entries.map Prod.fst).zip nodes).map Prod.fst = entries.map Prod.fst :=
        List.map_fst_zip (by simp [sizes])
      refine .mapping found branch keys.symm fun place inEntries inChildren => ?_
      have inParts : place < (Cell.mapping entries).parts.length := by
        rw [Cell.parts, List.length_map]
        exact inEntries
      simpa [Cell.parts] using below.get inParts (sizes ▸ inEntries)
  | _ => cases container

theorem planted_leaf {cells : Array Cell} {forest : Forest} {value : Value} {number : Nat}
    (simple : ∀ index, value = .cell index → ¬ IsContainer cells index)
    (leaf : forest.leaves[number]? = some ⟨value, false⟩) :
    Planted cells forest value (.leaf number) := by
  cases value with
  | atom atom => exact .atom leaf
  | cell index =>
      exact .whole leaf fun cell found =>
        Bool.of_not_eq_true fun container => simple index rfl ⟨cell, found, container⟩

/-- What holds of every leaf, and of every branch if it holds of its nodes and the parts that they
stand for, holds of all that is planted. -/
@[elab_as_elim]
theorem Planted.induction_parts {cells : Array Cell} {forest : Forest}
    {motive : ∀ value node, Planted cells forest value node → Prop}
    (leaf : ∀ value number (simple : ∀ index, value = .cell index → ¬ IsContainer cells index)
      (leaf : forest.leaves[number]? = some ⟨value, false⟩),
      motive value (.leaf number) (planted_leaf simple leaf))
    (branch : ∀ index number cell nodes (found : cells[index]? = some cell)
      (container : cell.isContainer = true)
      (branch : forest.branches[number]? = some (branchOf nodes cell))
      (below : List.Forall₂ (fun part node => ∃ planted : Planted cells forest part node,
        motive part node planted) cell.parts nodes),
      motive (.cell index) (.branch number)
        (planted_branchOf found container branch (below.imp fun _ _ both => both.1)))
    {value : Value} {node : Node} (planted : Planted cells forest value node) :
    motive value node planted := by
  induction planted with
  | atom here =>
      refine leaf _ _ ?_ here
      rintro _ ⟨⟩
  | whole here simple =>
      refine leaf _ _ ?_ here
      rintro _ ⟨⟩ ⟨cell, found, container⟩
      rw [simple cell found] at container
      cases container
  | list found stands sizes below ih =>
      exact branch _ _ _ _ found rfl stands (List.forall₂_iff_get.mpr
        ⟨sizes, fun place inItems inNodes => ⟨below place inItems inNodes, ih place inItems inNodes⟩⟩)
  | @mapping index number entries children found stands keys below ih =>
      -- The keys are those of the cell, so the branch is the one over its parts.
      have stands' : forest.branches[number]? =
          some (branchOf (children.map Prod.snd) (.mapping entries)) := by
        rw [branchOf, zip_of_keys keys, stands]
      exact branch _ _ _ _ found rfl stands' (forall₂_parts keys fun place inEntries inChildren =>
        ⟨below place inEntries inChildren, ih place inEntries inChildren⟩)

theorem Planted.grounded {cells : Array Cell} {forest : Forest} {value : Value} {node : Node}
    (planted : Planted cells forest value node) : Grounded cells value := by
  induction planted using Planted.induction_parts with
  | leaf value number simple _ =>
      exact .intro _ fun part inside => absurd inside (not_inside_of_simple simple part)
  | branch index number cell nodes found _ _ below =>
      refine .intro _ fun part inside => ?_
      obtain ⟨_, -, -, grounded⟩ := forall₂_left below ((inside_cell found part).mp inside)
      exact grounded

theorem faithful_row {cells : Array Cell} {growth after : Growth} {values : List Value}
    {nodes : List Node} (row : Row (fun value growth node after => growth.Sound cells →
      Grown cells growth after ∧ Planted cells after.forest value node) values growth nodes after)
    (sound : growth.Sound cells) :
    Grown cells growth after ∧ List.Forall₂ (Planted cells after.forest) values nodes := by
  induction row with
  | nil => exact ⟨⟨sound, extends_refl _⟩, .nil⟩
  | cons first _ ih =>
      obtain ⟨early, planted⟩ := first sound
      obtain ⟨late, below⟩ := ih early.sound
      exact ⟨⟨late.sound, early.grows.trans late.grows⟩, .cons (planted.extend late.grows) below⟩

theorem grow_faithful (cells : Array Cell) (depth : Nat) (ancestors : List Nat) :
    (grow cells depth ancestors).Faithful cells := by
  intro value path growth node after sound grown
  -- A container that is met again already has its branch: so say sound growths.
  refine grow_induction (motive := fun _ value growth node after => growth.Sound cells →
    Grown cells growth after ∧ Planted cells after.forest value node) ?_ ?_ ?_ grown sound
  · intro _ value growth simple sound
    have leaf : (growth.addLeaf value).2.forest.leaves[growth.forest.leaves.size]? =
        some ⟨value, false⟩ := Array.getElem?_push_size
    exact ⟨sound_addLeaf sound value, planted_leaf simple leaf⟩
  · intro _ index number growth _ past sound
    exact ⟨⟨sound, extends_refl _⟩, sound.finished index number (mem_of_lookup past)⟩
  · intro _ index cell growth nodes middle found container _ _ row sound
    obtain ⟨early, below⟩ := faithful_row row sound
    have extended := addBranch_extends middle index (branchOf nodes cell)
    have within : ∀ node ∈ (branchOf nodes cell).nodes, node.Within middle.forest := by
      rw [nodes_branchOf below.length_eq]
      exact nodes_within below
    have planted := planted_branchOf found container Array.getElem?_push_size
      (below.imp fun _ _ planted => planted.extend extended)
    have late := sound_addBranch early.sound within planted
    exact ⟨⟨late.sound, early.grows.trans late.grows⟩, planted⟩

theorem plant_faithful {cells : Array Cell} {root : Value} {path : Text}
    {forest later : Forest} {node : Node} (ordered : Ordered forest)
    (planted : plant cells root path forest = .ok (node, later)) :
    Ordered later ∧ Extends forest later ∧ Planted cells later root node := by
  obtain ⟨⟨grownNode, growth⟩, grown, same⟩ := bind_eq_ok planted
  cases same
  have sound : Growth.Sound cells ⟨forest, []⟩ := ⟨ordered, fun _ _ member => by cases member⟩
  obtain ⟨faithful, stands⟩ := grow_faithful cells _ [] root path _ _ _ sound grown
  exact ⟨faithful.sound.ordered, faithful.grows, stands⟩

end SecretFill.Forest

namespace SecretFill

open SecretFill.Data SecretFill.Forest

inductive Plants (cells : Array Cell) : List Value → Forest → List Plot → Forest → Prop
  | nil {forest : Forest} : Plants cells [] forest [] forest
  | cons {root : Value} {roots : List Value} {path : Text} {node : Node} {plots : List Plot}
      {forest middle later : Forest} (first : forest.plant cells root path = .ok (node, middle))
      (rest : Plants cells roots middle plots later) :
      Plants cells (root :: roots) forest (⟨node, path⟩ :: plots) later

theorem plants_of_plantAll {cells : Array Cell} {count index : Nat} {roots : List Value}
    {forest later : Forest} {plots : List Plot}
    (planted : plantAll cells count index roots forest = .ok (plots, later)) :
    Plants cells roots forest plots later := by
  induction roots generalizing index forest plots with
  | nil =>
      cases planted
      exact .nil
  | cons root rest ih =>
      simp only [plantAll] at planted
      split at planted
      · cases planted
      · cases planted
      · next node middle first =>
          obtain ⟨⟨others, last⟩, second, planted⟩ := bind_eq_ok planted
          cases planted
          exact .cons first (ih second)

theorem plantAll_faithful {cells : Array Cell} {count index : Nat} {roots : List Value}
    {forest later : Forest} {plots : List Plot} (ordered : Ordered forest)
    (planted : plantAll cells count index roots forest = .ok (plots, later)) :
    Ordered later ∧ Extends forest later ∧
      List.Forall₂ (fun root plot => Planted cells later root plot.node) roots plots := by
  have plants := plants_of_plantAll planted
  clear planted
  induction plants with
  | nil => exact ⟨ordered, extends_refl _, .nil⟩
  | cons first _ ih =>
      obtain ⟨ordered', early, stands⟩ := plant_faithful ordered first
      obtain ⟨ordered'', late, below⟩ := ih ordered'
      exact ⟨ordered'', early.trans late, .cons (stands.extend late) below⟩

theorem ordered_empty : Ordered Forest.empty := by
  intro number branch found
  simp [Forest.empty] at found

end SecretFill
