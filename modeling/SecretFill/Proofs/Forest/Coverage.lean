import SecretFill.Proofs.Forest.Growth
/-!
What a walk comes to. A walk passes over the branches that it visited before, so that everything
below a branch is reached only if everything below the visited branches was reached too (`Covers`).
A walk that begins with no branch visited comes to every leaf below its roots.
-/

namespace SecretFill.Forest

open SecretFill.Data

inductive Below (forest : Forest) : Node → Nat → Prop
  | here (number : Nat) : Below forest (.leaf number) number
  | under {number leaf : Nat} {branch : Branch} {node : Node}
      (found : forest.branches[number]? = some branch) (member : node ∈ branch.nodes)
      (below : Below forest node leaf) : Below forest (.branch number) leaf

def Reached (outcome : List Place × List Nat) : Node → Prop
  | .leaf number => number ∈ outcome.1.map Place.leaf
  | .branch number => number ∈ outcome.2

/-- A walk from some nodes came to them and to all that stands directly below the branches that it
visited. -/
structure Covers (forest : Forest) (visited : List Nat) (outcome : List Place × List Nat)
    (nodes : List Node) : Prop where
  kept : ∀ number ∈ visited, number ∈ outcome.2
  reached : ∀ node ∈ nodes, Reached outcome node
  closed : ∀ number ∈ outcome.2, number ∉ visited → ∀ branch,
    forest.branches[number]? = some branch → ∀ node ∈ branch.nodes, Reached outcome node

theorem Reached.mono {first second : List Place × List Nat} {node : Node}
    (reached : Reached first node)
    (places : ∀ number ∈ first.1.map Place.leaf, number ∈ second.1.map Place.leaf)
    (visited : ∀ number ∈ first.2, number ∈ second.2) : Reached second node := by
  cases node with
  | leaf number => exact places number reached
  | branch number => exact visited number reached

theorem nodes_children (cells : Array Cell) (path : Text) (branch : Branch) :
    (branch.children cells path).map Prod.fst = branch.nodes := by
  cases branch with
  | sequence items =>
      refine List.ext_getElem (by simp [Branch.children, Branch.nodes]) fun index _ _ => ?_
      simp [Branch.children, Branch.nodes]
  | mapping entries => simp [Branch.children, Branch.nodes]

theorem placesOfAll_covers {forest : Forest}
    {placesOf : Node → Text → List Nat → List Place × List Nat} {starts : List (Node × Text)}
    (covers : ∀ start ∈ starts, ∀ visited,
      Covers forest visited (placesOf start.1 start.2 visited) [start.1]) (visited : List Nat) :
    Covers forest visited (placesOfAll placesOf starts visited) (starts.map Prod.fst) := by
  induction starts generalizing visited with
  | nil =>
      refine ⟨fun _ member => member, ?_, fun _ member fresh => absurd member fresh⟩
      intro node member
      cases member
  | cons start rest ih =>
      obtain ⟨node, path⟩ := start
      have first := covers (node, path) List.mem_cons_self visited
      have others := ih (fun later member => covers later (List.mem_cons_of_mem _ member))
        (placesOf node path visited).2
      have ahead : ∀ {target}, Reached (placesOf node path visited) target →
          Reached (placesOfAll placesOf ((node, path) :: rest) visited) target := by
        intro target reached
        refine reached.mono (fun number member => ?_) others.kept
        simp only [placesOfAll, List.map_append, List.mem_append]
        exact .inl member
      have behind : ∀ {target},
          Reached (placesOfAll placesOf rest (placesOf node path visited).2) target →
          Reached (placesOfAll placesOf ((node, path) :: rest) visited) target := by
        intro target reached
        refine reached.mono (fun number member => ?_) fun _ member => member
        simp only [placesOfAll, List.map_append, List.mem_append]
        exact .inr member
      refine ⟨fun number member => others.kept number (first.kept number member), ?_, ?_⟩
      · intro target member
        rcases List.mem_cons.mp member with same | later
        · rw [same]
          exact ahead (first.reached node List.mem_cons_self)
        · exact behind (others.reached target later)
      · intro number member fresh branch found target inside
        -- What the first walk visited it followed too, and later walks do so with the others.
        by_cases early : number ∈ (placesOf node path visited).2
        · exact ahead (first.closed number early fresh branch found target inside)
        · exact behind (others.closed number member early branch found target inside)

theorem leaf_covers (forest : Forest) (number : Nat) (path : Text) (visited : List Nat) :
    Covers forest visited ([⟨number, path⟩], visited) [.leaf number] := by
  refine ⟨fun _ member => member, ?_, fun _ member fresh => absurd member fresh⟩
  intro node member
  rw [List.mem_singleton.mp member]
  exact List.mem_singleton.mpr rfl

theorem branch_covers {forest : Forest} {number : Nat} {branch : Branch} {visited : List Nat}
    {outcome : List Place × List Nat} (found : forest.branches[number]? = some branch)
    (below : Covers forest (number :: visited) outcome branch.nodes) :
    Covers forest visited outcome [.branch number] := by
  refine ⟨fun other member => below.kept other (List.mem_cons_of_mem number member), ?_, ?_⟩
  · intro node member
    rw [List.mem_singleton.mp member]
    exact below.kept number List.mem_cons_self
  · intro other member fresh inner foundInner node inside
    by_cases same : other = number
    · subst same
      rw [found] at foundInner
      cases foundInner
      exact below.reached node inside
    · exact below.closed other member (by simp [same, fresh]) inner foundInner node inside

theorem placesBelow_covers {forest : Forest} (ordered : Ordered forest) (cells : Array Cell)
    (depth : Nat) (node : Node) (path : Text) (visited : List Nat)
    (within : node.Within forest) (shallow : node.Precedes forest depth) :
    Covers forest visited (placesBelow forest.branches cells depth node path visited) [node] := by
  induction depth generalizing node path visited with
  | zero =>
      cases node with
      | branch number => cases shallow
      | leaf number => exact leaf_covers forest number path visited
  | succ depth ih =>
      cases node with
      | leaf number => exact leaf_covers forest number path visited
      | branch number =>
          have found : forest.branches[number]? = some forest.branches[number] :=
            Array.getElem?_eq_getElem within
          simp only [placesBelow, found]
          by_cases again : number ∈ visited
          · rw [if_pos again]
            refine ⟨fun _ member => member, ?_, fun _ member fresh => absurd member fresh⟩
            intro node member
            rw [List.mem_singleton.mp member]
            exact again
          · rw [if_neg again]
            refine branch_covers found ?_
            rw [← nodes_children cells path]
            refine placesOfAll_covers (fun start member visited => ?_) (number :: visited)
            have inside : start.1 ∈ forest.branches[number].nodes := by
              rw [← nodes_children cells path]
              exact List.mem_map_of_mem member
            -- A branch below this one has a smaller number, and so a smaller depth is enough.
            have precedes := ordered number _ found start.1 inside
            have limit : number < depth + 1 := shallow
            have size : number < forest.branches.size := within
            generalize start.1 = child at precedes
            cases child with
            | leaf other => exact ih _ _ _ precedes precedes
            | branch other =>
                have lower : other < number := precedes
                exact ih _ _ _ (Nat.lt_trans lower size) (show other < depth by omega)

theorem places_covers {forest : Forest} (ordered : Ordered forest) (cells : Array Cell)
    {node : Node} (within : node.Within forest) (path : Text) (visited : List Nat) :
    Covers forest visited (forest.places cells visited node path) [node] := by
  refine placesBelow_covers ordered cells _ node path visited within ?_
  cases node with
  | leaf number => exact within
  | branch number => exact Nat.lt_succ_of_lt within

/-! ### The route of a walker -/

def route (forest : Forest) (cells : Array Cell) (plots : List Plot) (visited : List Nat) :
    List Place × List Nat :=
  placesOfAll (fun node path visited => forest.places cells visited node path)
    (plots.map fun plot => (plot.node, plot.path)) visited

theorem route_covers {forest : Forest} (ordered : Ordered forest) (cells : Array Cell)
    {plots : List Plot} (within : ∀ plot ∈ plots, plot.node.Within forest) (visited : List Nat) :
    Covers forest visited (route forest cells plots visited) (plots.map Plot.node) := by
  have starts : plots.map Plot.node =
      (plots.map fun plot => (plot.node, plot.path)).map Prod.fst := by simp
  rw [starts]
  refine placesOfAll_covers (fun start member visited => ?_) visited
  obtain ⟨plot, inside, same⟩ := List.mem_map.mp member
  subst same
  exact places_covers ordered cells (within plot inside) plot.path visited

theorem places_congr {first second : Forest} (same : first.branches = second.branches)
    (cells : Array Cell) (visited : List Nat) (node : Node) (path : Text) :
    first.places cells visited node path = second.places cells visited node path := by
  simp only [places, same]

theorem route_congr {first second : Forest} (same : first.branches = second.branches)
    (cells : Array Cell) (plots : List Plot) (visited : List Nat) :
    route first cells plots visited = route second cells plots visited := by
  simp only [route, places_congr same]

/-- A walk that covers some nodes, with no branch visited before, comes to every leaf below them. -/
theorem Covers.mem_of_below {forest : Forest} {outcome : List Place × List Nat}
    {nodes : List Node} (covers : Covers forest [] outcome nodes) {node : Node} {leaf : Nat}
    (reached : Reached outcome node) (below : Below forest node leaf) :
    leaf ∈ outcome.1.map Place.leaf := by
  induction below with
  | here number => exact reached
  | under found member _ ih =>
      exact ih (covers.closed _ reached List.not_mem_nil _ found _ member)

theorem mem_route {forest : Forest} (ordered : Ordered forest) (cells : Array Cell)
    {plots : List Plot} (within : ∀ plot ∈ plots, plot.node.Within forest) {plot : Plot}
    (member : plot ∈ plots) {leaf : Nat} (below : Below forest plot.node leaf) :
    leaf ∈ (route forest cells plots []).1.map Place.leaf := by
  have covers := route_covers ordered cells within []
  exact covers.mem_of_below (covers.reached plot.node (List.mem_map_of_mem member)) below

end SecretFill.Forest
