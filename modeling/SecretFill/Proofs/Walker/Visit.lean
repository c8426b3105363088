import Mathlib.Logic.Relation
import SecretFill.Proofs.Forest.Parts
import SecretFill.Proofs.Interpolation.Passes
/-!
One visit of a walker that may have been at work before. The walker has dealt with all that is below
the branches it came to (`Thorough`), and so a visit touches the leaves below its node and no
others, whether it goes down to them or passes them over.
-/

namespace SecretFill

open Relation
open SecretFill.Data SecretFill.Forest

/-! ### Below a node -/

def Forest.Above (forest : Forest) (outer inner : Node) : Prop :=
  ∃ number branch, outer = .branch number ∧ forest.branches[number]? = some branch ∧
    inner ∈ branch.nodes

def Forest.Leads (forest : Forest) : Node → Node → Prop := ReflTransGen forest.Above

theorem below_iff_leads {forest : Forest} {node : Node} {number : Nat} :
    Below forest node number ↔ forest.Leads node (.leaf number) := by
  constructor
  · intro below
    induction below with
    | here number => exact .refl
    | under found member _ ih => exact .head ⟨_, _, rfl, found, member⟩ ih
  · intro leads
    generalize same : Node.leaf number = leaf at leads
    induction leads using ReflTransGen.head_induction_on with
    | refl =>
        subst same
        exact .here number
    | head above _ ih =>
        obtain ⟨_, branch, rfl, found, member⟩ := above
        exact .under found member ih

theorem leads_congr {forest later : Forest} (kept : later.branches = forest.branches) :
    later.Leads = forest.Leads := by
  have same : later.Above = forest.Above := by
    funext outer inner
    simp only [Forest.Above, kept]
  rw [Forest.Leads, same]
  rfl

theorem below_congr {forest later : Forest} (kept : later.branches = forest.branches) {node : Node}
    {number : Nat} : Below later node number ↔ Below forest node number := by
  rw [below_iff_leads, below_iff_leads, leads_congr kept]

theorem placesOfAll_below {forest : Forest}
    {placesOf : Node → Text → List Nat → List Forest.Place × List Nat}
    {starts : List (Node × Text)}
    (sound : ∀ start ∈ starts, ∀ visited, ∀ place ∈ (placesOf start.1 start.2 visited).1,
      Below forest start.1 place.leaf) (visited : List Nat) :
    ∀ place ∈ (placesOfAll placesOf starts visited).1, ∃ start ∈ starts,
      Below forest start.1 place.leaf := by
  induction starts generalizing visited with
  | nil =>
      intro place member
      cases member
  | cons start rest ih =>
      obtain ⟨node, path⟩ := start
      intro place member
      rcases List.mem_append.mp member with here | later
      · exact ⟨(node, path), List.mem_cons_self, sound _ List.mem_cons_self visited place here⟩
      · obtain ⟨start, inside, below⟩ := ih
          (fun other inside => sound other (List.mem_cons_of_mem _ inside)) _ place later
        exact ⟨start, List.mem_cons_of_mem _ inside, below⟩

theorem placesBelow_below (forest : Forest) (cells : Array Cell) (depth : Nat) (node : Node)
    (path : Text) (visited : List Nat) :
    ∀ place ∈ (placesBelow forest.branches cells depth node path visited).1,
      Below forest node place.leaf := by
  -- Every place is found at a leaf or further down, below a child of the branch.
  induction depth generalizing node path visited with
  | zero =>
      intro place member
      cases node with
      | branch number => cases member
      | leaf number =>
          rw [List.mem_singleton.mp member]
          exact .here number
  | succ depth ih =>
      intro place member
      cases node with
      | leaf number =>
          rw [List.mem_singleton.mp member]
          exact .here number
      | branch number =>
          simp only [placesBelow] at member
          split at member
          · cases member
          · split at member
            · cases member
            · next branch found =>
                obtain ⟨start, inside, below⟩ := placesOfAll_below
                  (fun start _ visited => ih start.1 start.2 visited) _ place member
                refine .under found ?_ below
                rw [← nodes_children cells path]
                exact List.mem_map_of_mem inside

def Forest.replaced (forest : Forest) : Nat := forest.leaves.toList.countP Leaf.substituted

/-! ### One visit -/

namespace Walker

def sought (walker : Walker) : Text × Placeholder.Form × Text :=
  (walker.key, walker.form, walker.value)

/-- A walker has nothing to do at a node: it has been there, or finds no text that it looks for. -/
def Done (walker : Walker) (forest : Forest) : Node → Prop
  | .leaf number => ∀ text, forest.openText? number = some text → walker.matchesText text = false
  | .branch number => number ∈ walker.visited

/-- A walker has nothing to do directly below the branches to which it came. -/
def Thorough (walker : Walker) (forest : Forest) : Prop :=
  ∀ number ∈ walker.visited, ∀ branch, forest.branches[number]? = some branch →
    ∀ node ∈ branch.nodes, walker.Done forest node

theorem matchesText_congr {walker other : Walker} (same : walker.sought = other.sought)
    (text : Text) : walker.matchesText text = other.matchesText text := by
  obtain ⟨key, form, _⟩ : walker.key = other.key ∧ walker.form = other.form ∧
      walker.value = other.value := by simpa [sought] using same
  simp only [matchesText, key, form]

theorem Thorough.leads {walker : Walker} {forest : Forest} (thorough : walker.Thorough forest)
    {outer inner : Node} (done : walker.Done forest outer) (leads : forest.Leads outer inner) :
    walker.Done forest inner := by
  induction leads with
  | refl => exact done
  | tail _ above ih =>
      obtain ⟨number, branch, rfl, found, member⟩ := above
      exact thorough number ih branch found _ member

theorem visitPlaces_sought (places : List Forest.Place) (state : Walker × Forest) :
    (places.foldl visitPlace state).1.sought = state.1.sought := by
  induction places generalizing state with
  | nil => rfl
  | cons place rest ih =>
      obtain ⟨key, form, value, _⟩ := visitPlace_walker state place
      rw [List.foldl_cons, ih]
      simp only [sought, key, form, value]

theorem visit_eq (walker : Walker) (cells : Array Cell) (forest : Forest) (node : Node)
    (path : Text) :
    walker.visit cells forest node path =
      (((forest.places cells walker.visited node path).1.foldl visitPlace (walker, forest)).1.having
          (forest.places cells walker.visited node path).2,
        ((forest.places cells walker.visited node path).1.foldl visitPlace (walker, forest)).2) :=
  visitPlaces_having _ walker forest _

theorem visit_sought (walker : Walker) (cells : Array Cell) (forest : Forest) (node : Node)
    (path : Text) : (walker.visit cells forest node path).1.sought = walker.sought := by
  rw [visit_eq]
  exact visitPlaces_sought _ (walker, forest)

theorem visit_branches (walker : Walker) (cells : Array Cell) (forest : Forest) (node : Node)
    (path : Text) : (walker.visit cells forest node path).2.branches = forest.branches := by
  rw [visit_eq]
  exact visitPlaces_branches _ (walker, forest)

theorem visit_leaf (walker : Walker) (cells : Array Cell) (forest : Forest) (node : Node)
    (path : Text) (number : Nat) :
    (walker.visit cells forest node path).2.leaves[number]? =
      if number ∈ (forest.places cells walker.visited node path).1.map Forest.Place.leaf then
        forest.leaves[number]?.map (touched walker.form walker.key walker.value)
      else forest.leaves[number]? := by
  rw [visit_eq]
  exact visitPlaces_leaf _ walker forest number

theorem visitPlaces_size (places : List Forest.Place) (state : Walker × Forest) :
    (places.foldl visitPlace state).2.leaves.size = state.2.leaves.size := by
  induction places generalizing state with
  | nil => rfl
  | cons place rest ih =>
      rw [List.foldl_cons, ih]
      simp only [visitPlace]
      split
      · rfl
      · split
        · exact Array.size_setIfInBounds
        · rfl

theorem visit_size (walker : Walker) (cells : Array Cell) (forest : Forest) (node : Node)
    (path : Text) : (walker.visit cells forest node path).2.leaves.size = forest.leaves.size := by
  rw [visit_eq]
  exact visitPlaces_size _ (walker, forest)

theorem visit_closed (walker : Walker) (cells : Array Cell) {forest : Forest} (node : Node)
    (path : Text) {number : Nat} (closed : forest.openText? number = none) :
    (walker.visit cells forest node path).2.leaves[number]? = forest.leaves[number]? := by
  rw [visit_leaf, touched_closed closed, ite_self]

theorem openText?_of_visit {walker : Walker} {cells : Array Cell} {forest : Forest} {node : Node}
    {path text : Text} {number : Nat}
    (opened : (walker.visit cells forest node path).2.openText? number = some text) :
    forest.openText? number = some text := by
  have found := openText?_eq_some opened
  rw [visit_leaf] at found
  have before : forest.leaves[number]? = some ⟨.atom (.text text), false⟩ := by
    split at found
    · obtain ⟨leaf, here, same⟩ := Option.map_eq_some_iff.mp found
      rcases touched_eq_or walker.form walker.key walker.value leaf with kept | replaced
      · rw [here, ← kept, same]
      · rw [replaced] at same
        cases same
    · exact found
  simp only [Forest.openText?, before]

theorem Done.visit {walker other next : Walker} {cells : Array Cell} {forest : Forest}
    {node target : Node} {path : Text} (done : other.Done forest target)
    (same : next.sought = other.sought) (more : other.visited ⊆ next.visited) :
    next.Done (walker.visit cells forest node path).2 target := by
  cases target with
  | branch number => exact more done
  | leaf number =>
      intro text opened
      rw [matchesText_congr same]
      exact done text (openText?_of_visit opened)

theorem touched_done {walker : Walker} {forest : Forest} {number : Nat}
    (done : walker.Done forest (.leaf number)) :
    forest.leaves[number]?.map (touched walker.form walker.key walker.value) =
      forest.leaves[number]? := by
  cases opened : forest.openText? number with
  | none => exact touched_closed opened _ _ _
  | some text =>
      have missed : walker.form.occurs walker.key.toList text.toList = false := done text opened
      simp [openText?_eq_some opened, touched, missed]

theorem visit_done {walker : Walker} {forest : Forest} {node : Node}
    (done : walker.Done forest node) (cells : Array Cell) (path : Text) :
    walker.visit cells forest node path = (walker, forest) := by
  cases node with
  | branch number =>
      have again : number ∈ walker.visited := done
      simp only [visit, Forest.places, placesBelow, if_pos again, List.foldl_nil]
  | leaf number =>
      simp only [visit, Forest.places, placesBelow, List.foldl_cons, List.foldl_nil, visitPlace]
      cases opened : forest.openText? number with
      | none => rfl
      | some text =>
          have missed : walker.matchesText text = false := done text opened
          have missedAgain :
              Walker.matchesText { walker with visited := walker.visited } text = false := missed
          simp only [missedAgain]
          rfl

theorem visit_visited (walker : Walker) (cells : Array Cell) (forest : Forest) (node : Node)
    (path : Text) : (walker.visit cells forest node path).1.visited =
      (forest.places cells walker.visited node path).2 := by
  rw [visit_eq]
  rfl

section Visit

variable {walker : Walker} {forest : Forest} {node : Node}
  (ordered : Ordered forest) (within : node.Within forest) (thorough : walker.Thorough forest)
  (cells : Array Cell) (path : Text)

include ordered within

theorem visit_keeps : walker.visited ⊆ (walker.visit cells forest node path).1.visited := by
  rw [visit_visited]
  exact (places_covers ordered cells within path walker.visited).kept

include thorough

/-- After a visit the walker has nothing more to do at the node, and is as thorough as before. -/
theorem visit_thorough :
    (walker.visit cells forest node path).1.Done (walker.visit cells forest node path).2 node ∧
      (walker.visit cells forest node path).1.Thorough (walker.visit cells forest node path).2 := by
  have covers := places_covers ordered cells within path walker.visited
  have same := visit_sought walker cells forest node path
  have reached : ∀ target, Reached (forest.places cells walker.visited node path) target →
      (walker.visit cells forest node path).1.Done (walker.visit cells forest node path).2
        target := by
    intro target reached
    cases target with
    | branch number =>
        rw [Done, visit_visited]
        exact reached
    | leaf number =>
        intro text opened
        have member :
            number ∈ (forest.places cells walker.visited node path).1.map Forest.Place.leaf := reached
        have found := openText?_eq_some opened
        rw [visit_leaf, if_pos member, openText?_eq_some (openText?_of_visit opened)] at found
        rw [matchesText_congr same]
        by_contra hit
        have hit' : walker.form.occurs walker.key.toList text.toList = true :=
          Bool.of_not_eq_false hit
        simp [touched, hit'] at found
  refine ⟨reached node (covers.reached node List.mem_cons_self), ?_⟩
  -- Below a branch visited earlier the walker was thorough; below a new one this walk has been.
  intro number member branch found inner inside
  rw [visit_branches] at found
  by_cases early : number ∈ walker.visited
  · exact (thorough number early branch found inner inside).visit same
      (visit_keeps ordered within cells path)
  · rw [visit_visited] at member
    exact reached inner (covers.closed number member early branch found inner inside)

theorem visit_touches {number : Nat} (below : Below forest node number) :
    (walker.visit cells forest node path).2.leaves[number]? =
      forest.leaves[number]?.map (touched walker.form walker.key walker.value) := by
  rw [visit_leaf]
  split
  · rfl
  · next absent =>
      -- The walk passed the leaf over, so it has been dealt with in an earlier visit.
      obtain ⟨done, thorough'⟩ := visit_thorough ordered within thorough cells path
      have leads : (walker.visit cells forest node path).2.Leads node (.leaf number) := by
        rw [leads_congr (visit_branches walker cells forest node path)]
        exact below_iff_leads.mp below
      have settled := thorough'.leads done leads
      have untouched : (walker.visit cells forest node path).2.leaves[number]? =
          forest.leaves[number]? := by
        rw [visit_leaf, if_neg absent]
      refine (touched_done fun text opened => ?_).symm
      rw [← matchesText_congr (visit_sought walker cells forest node path)]
      refine settled text ?_
      simp only [Forest.openText?, untouched]
      exact opened

end Visit

theorem visit_apart (walker : Walker) (cells : Array Cell) {forest : Forest} {node : Node}
    (path : Text) {number : Nat} (apart : ¬ Below forest node number) :
    (walker.visit cells forest node path).2.leaves[number]? = forest.leaves[number]? := by
  rw [visit_leaf, if_neg]
  intro member
  obtain ⟨place, inside, rfl⟩ := List.mem_map.mp member
  exact apart (placesBelow_below forest cells _ node path walker.visited place inside)

/-! ### Records -/

theorem visitPlace_records (state : Walker × Forest) (place : Forest.Place) :
    (visitPlace state place).1.substitutions.length + state.2.replaced =
      state.1.substitutions.length + (visitPlace state place).2.replaced := by
  obtain ⟨walker, forest⟩ := state
  simp only [visitPlace]
  split
  · rfl
  · next text opened =>
      by_cases hit : walker.matchesText text = true
      · obtain ⟨inside, found⟩ := Array.getElem?_eq_some_iff.mp (openText?_eq_some opened)
        have inside' : place.leaf < forest.leaves.toList.length := inside
        have found' : forest.leaves.toList[place.leaf] = ⟨.atom (.text text), false⟩ := found
        simp only [if_pos hit, Forest.replaced, Forest.substitute, Array.toList_setIfInBounds,
          List.countP_set inside', found', List.length_append, List.length_singleton]
        simp
        omega
      · simp only [if_neg hit]

theorem visitPlaces_records (places : List Forest.Place) (state : Walker × Forest) :
    (places.foldl visitPlace state).1.substitutions.length + state.2.replaced =
      state.1.substitutions.length + (places.foldl visitPlace state).2.replaced := by
  induction places generalizing state with
  | nil => rfl
  | cons place rest ih =>
      have first := visitPlace_records state place
      have others := ih (visitPlace state place)
      rw [List.foldl_cons]
      omega

theorem visit_records (walker : Walker) (cells : Array Cell) (forest : Forest) (node : Node)
    (path : Text) :
    (walker.visit cells forest node path).1.substitutions.length + forest.replaced =
      walker.substitutions.length + (walker.visit cells forest node path).2.replaced := by
  rw [visit_eq]
  exact visitPlaces_records _ (walker, forest)

end Walker

end SecretFill
