import SecretFill.Proofs.Walker.Session
/-!
A walk that passes over the branches to which it came before, against one that enters a shared
branch once for each way to it (`roam`). Both leave the same forest and make the same records: when
a branch is entered again, all leaves below it have been dealt with, and nothing is left to do
there. That holds for any pattern (`Seeker`), the one of a walker among them.
-/

namespace SecretFill

open SecretFill.Data SecretFill.Forest

/-- What is looked for, which may be anything, and what is recorded and left for it. -/
structure Seeker where
  hits : Text → Bool
  key : Text
  value : Text

def Walker.seeker (walker : Walker) : Seeker := ⟨walker.matchesText, walker.key, walker.value⟩

namespace Seeker

abbrev State := List Substitution × Forest

def visitPlace (seeker : Seeker) (state : State) (place : Forest.Place) : State :=
  match state.2.openText? place.leaf with
  | none => state
  | some text =>
      if seeker.hits text then
        (state.1 ++ [⟨place.path, seeker.key⟩], state.2.substitute place.leaf seeker.value)
      else state

def visit (seeker : Seeker) (cells : Array Cell) (forest : Forest) (node : Node) (path : Text) :
    State :=
  (forest.places cells [] node path).1.foldl seeker.visitPlace ([], forest)

/-- Walks along every way down from a node. `depth` bounds the ways. -/
def roamBelow (seeker : Seeker) (cells : Array Cell) : Nat → Node → Text → State → State
  | _, .leaf number, path, state => seeker.visitPlace state ⟨number, path⟩
  | 0, .branch _, _, state => state
  | depth + 1, .branch number, path, state =>
      match state.2.branches[number]? with
      | none => state
      | some branch =>
          (branch.children cells path).foldl
            (fun state child => seeker.roamBelow cells depth child.1 child.2 state) state

def roam (seeker : Seeker) (cells : Array Cell) (state : State) (node : Node) (path : Text) :
    State :=
  seeker.roamBelow cells (state.2.branches.size + 1) node path state

def Idle (seeker : Seeker) (forest : Forest) (number : Nat) : Prop :=
  ∀ text, forest.openText? number = some text → seeker.hits text = false

variable {seeker : Seeker} {cells : Array Cell} {forest : Forest} {state : State} {node : Node}
  {number : Nat} {opened : List Nat}

/-! ### One place -/

theorem visitPlace_idle {place : Forest.Place} (idle : seeker.Idle state.2 place.leaf) :
    seeker.visitPlace state place = state := by
  unfold visitPlace
  split
  · rfl
  · next text found => rw [idle text found, if_neg Bool.false_ne_true]

theorem visitPlace_branches (place : Forest.Place) :
    (seeker.visitPlace state place).2.branches = state.2.branches := by
  unfold visitPlace
  split
  · rfl
  · split <;> rfl

theorem openText?_visitPlace {place : Forest.Place} {text : Text}
    (found : (seeker.visitPlace state place).2.openText? number = some text) :
    state.2.openText? number = some text ∧ (number = place.leaf → seeker.hits text = false) := by
  unfold visitPlace at found
  split at found
  · next closed =>
      refine ⟨found, fun here => ?_⟩
      rw [here, closed] at found
      cases found
  · next old before =>
      split at found
      · -- The leaf that was replaced is closed, and all others are as they were.
        have inside := (Array.getElem?_eq_some_iff.mp (openText?_eq_some before)).1
        by_cases here : number = place.leaf
        · subst here
          simp [Forest.openText?, Forest.substitute, inside] at found
        · refine ⟨?_, fun same => absurd same here⟩
          simpa [Forest.openText?, Forest.substitute, Ne.symm here] using found
      · next missed =>
          refine ⟨found, fun here => ?_⟩
          rw [here, before] at found
          cases found
          exact Bool.of_not_eq_true missed

theorem Idle.visitPlace (idle : seeker.Idle state.2 number) (place : Forest.Place) :
    seeker.Idle (seeker.visitPlace state place).2 number :=
  fun text found => idle text (openText?_visitPlace found).1

theorem Idle.visitPlaces (idle : seeker.Idle state.2 number) (places : List Forest.Place) :
    seeker.Idle (places.foldl seeker.visitPlace state).2 number := by
  induction places generalizing state with
  | nil => exact idle
  | cons place rest ih => exact ih (idle.visitPlace place)

theorem visitPlaces_branches (places : List Forest.Place) :
    (places.foldl seeker.visitPlace state).2.branches = state.2.branches := by
  induction places generalizing state with
  | nil => rfl
  | cons place rest ih => rw [List.foldl_cons, ih, visitPlace_branches]

/-! ### Roaming where nothing is left to do -/

theorem below_child {path : Text} {branch : Branch} {child : Node × Text} {leaf : Nat}
    (found : forest.branches[number]? = some branch) (member : child ∈ branch.children cells path)
    (below : Below forest child.1 leaf) : Below forest (.branch number) leaf := by
  refine .under found ?_ below
  rw [← nodes_children cells path]
  exact List.mem_map_of_mem member

theorem roamBelow_idle (depth : Nat) (path : Text)
    (idle : ∀ leaf, Below state.2 node leaf → seeker.Idle state.2 leaf) :
    seeker.roamBelow cells depth node path state = state := by
  induction depth generalizing node path with
  | zero =>
      cases node with
      | leaf number => exact visitPlace_idle (idle number (.here number))
      | branch number => rfl
  | succ depth ih =>
      cases node with
      | leaf number => exact visitPlace_idle (idle number (.here number))
      | branch number =>
          rw [roamBelow]
          split
          · rfl
          · next branch found =>
              have each : ∀ child ∈ branch.children cells path,
                  seeker.roamBelow cells depth child.1 child.2 state = state :=
                fun child member =>
                  ih child.2 fun leaf below => idle leaf (below_child found member below)
              generalize branch.children cells path = children at each
              induction children with
              | nil => rfl
              | cons child rest others =>
                  obtain ⟨here, later⟩ := List.forall_mem_cons.mp each
                  rw [List.foldl_cons, here]
                  exact others later

/-! ### Both walks side by side -/

/-- Nothing is left to do below the branches to which a walk came, unless it is still inside them.
-/
def Cleared (seeker : Seeker) (forest : Forest) (visited opened : List Nat) (state : State) : Prop :=
  ∀ number ∈ visited, number ∈ opened ∨
    ∀ leaf, Below forest (.branch number) leaf → seeker.Idle state.2 leaf

/-- A walk from some nodes that passes over the branches visited does what roaming does, and then
nothing is left to do below these nodes. -/
structure Agrees (seeker : Seeker) (forest : Forest) (opened : List Nat)
    (walked : List Forest.Place × List Nat) (nodes : List Node) (state roamed : State) : Prop where
  same : walked.1.foldl seeker.visitPlace state = roamed
  cleared : seeker.Cleared forest walked.2 opened roamed
  idle : ∀ node ∈ nodes, ∀ leaf, Below forest node leaf → seeker.Idle roamed.2 leaf

theorem agrees_leaf (path : Text) {visited : List Nat}
    (cleared : seeker.Cleared forest visited opened state) :
    seeker.Agrees forest opened ([⟨number, path⟩], visited) [.leaf number] state
      (seeker.visitPlace state ⟨number, path⟩) := by
  refine ⟨rfl, fun other member => ?_, fun node member leaf below => ?_⟩
  · rcases cleared other member with inside | idle
    · exact .inl inside
    · exact .inr fun leaf below => (idle leaf below).visitPlace _
  · rw [List.mem_singleton.mp member] at below
    cases below
    exact fun text found => (openText?_visitPlace found).2 rfl

theorem agrees_again (depth : Nat) (path : Text) {visited : List Nat}
    (same : state.2.branches = forest.branches)
    (cleared : seeker.Cleared forest visited opened state)
    (idle : ∀ leaf, Below forest node leaf → seeker.Idle state.2 leaf) :
    seeker.Agrees forest opened ([], visited) [node] state
      (seeker.roamBelow cells depth node path state) := by
  have stays : seeker.roamBelow cells depth node path state = state :=
    roamBelow_idle depth path fun leaf below => idle leaf ((below_congr same).mp below)
  rw [stays]
  refine ⟨rfl, cleared, fun other member leaf below => ?_⟩
  rw [List.mem_singleton.mp member] at below
  exact idle leaf below

theorem agrees_all {placesOf : Node → Text → List Nat → List Forest.Place × List Nat}
    {roamOf : State → Node × Text → State} {starts : List (Node × Text)} {visited : List Nat}
    (each : ∀ start ∈ starts, ∀ visited state, state.2.branches = forest.branches →
      seeker.Cleared forest visited opened state →
      seeker.Agrees forest opened (placesOf start.1 start.2 visited) [start.1] state
        (roamOf state start))
    (same : state.2.branches = forest.branches)
    (cleared : seeker.Cleared forest visited opened state) :
    seeker.Agrees forest opened (placesOfAll placesOf starts visited) (starts.map Prod.fst) state
      (starts.foldl roamOf state) := by
  induction starts generalizing visited state with
  | nil => exact ⟨rfl, cleared, fun node member => absurd member List.not_mem_nil⟩
  | cons start rest ih =>
      obtain ⟨node, path⟩ := start
      obtain ⟨first, others⟩ := List.forall_mem_cons.mp each
      have here := first visited state same cleared
      have kept : (roamOf state (node, path)).2.branches = forest.branches := by
        rw [← here.same, visitPlaces_branches, same]
      have later := ih others kept here.cleared
      refine ⟨?_, later.cleared, fun other member leaf below => ?_⟩
      · calc (placesOfAll placesOf ((node, path) :: rest) visited).1.foldl seeker.visitPlace state
            = (placesOfAll placesOf rest (placesOf node path visited).2).1.foldl seeker.visitPlace
                ((placesOf node path visited).1.foldl seeker.visitPlace state) :=
              List.foldl_append
          _ = rest.foldl roamOf (roamOf state (node, path)) := by rw [here.same, later.same]
      · rcases List.mem_cons.mp member with rfl | behind
        · -- What the first walk has dealt with stays so during the others.
          have idle := here.idle other List.mem_cons_self leaf below
          rw [List.foldl_cons, ← later.same]
          exact idle.visitPlaces _
        · exact later.idle other behind leaf below

theorem Cleared.close {visited : List Nat}
    (cleared : seeker.Cleared forest visited (number :: opened) state)
    (idle : ∀ leaf, Below forest (.branch number) leaf → seeker.Idle state.2 leaf) :
    seeker.Cleared forest visited opened state := by
  intro other member
  rcases cleared other member with inside | clear
  · rcases List.mem_cons.mp inside with rfl | outer
    · exact .inr idle
    · exact .inl outer
  · exact .inr clear

theorem Cleared.enter {visited : List Nat} (cleared : seeker.Cleared forest visited opened state) :
    seeker.Cleared forest (number :: visited) (number :: opened) state := by
  intro other member
  rcases List.mem_cons.mp member with rfl | old
  · exact .inl List.mem_cons_self
  · exact (cleared other old).imp_left (List.mem_cons_of_mem _)

theorem precedes_mono {limit bound : Nat} (precedes : node.Precedes forest limit)
    (within : limit ≤ bound) : node.Precedes forest bound := by
  cases node with
  | leaf number => exact precedes
  | branch number => exact Nat.lt_of_lt_of_le precedes within

theorem precedes_size (within : node.Within forest) :
    node.Precedes forest (forest.branches.size + 1) := by
  cases node with
  | leaf number => exact within
  | branch number => exact Nat.lt_succ_of_lt within

theorem precedes_child (ordered : Ordered forest) {branch : Branch} {path : Text}
    {child : Node × Text} (found : forest.branches[number]? = some branch)
    (member : child ∈ branch.children cells path) : child.1.Precedes forest number := by
  apply ordered number branch found
  rw [← nodes_children cells path]
  exact List.mem_map_of_mem member

/-- A branch that is new to both walks: below it they do the same, child by child. -/
theorem agrees_branch {branch : Branch} {depth : Nat} {path : Text} {visited : List Nat}
    (found : forest.branches[number]? = some branch) (fresh : number ∉ visited)
    (same : state.2.branches = forest.branches)
    (cleared : seeker.Cleared forest visited opened state)
    (agrees : ∀ child ∈ branch.children cells path, ∀ visited state,
      state.2.branches = forest.branches →
      seeker.Cleared forest visited (number :: opened) state →
      seeker.Agrees forest (number :: opened)
        (placesBelow forest.branches cells depth child.1 child.2 visited) [child.1] state
        (seeker.roamBelow cells depth child.1 child.2 state)) :
    seeker.Agrees forest opened
      (placesBelow forest.branches cells (depth + 1) (.branch number) path visited)
      [.branch number] state (seeker.roamBelow cells (depth + 1) (.branch number) path state) := by
  have children := agrees_all agrees same cleared.enter
  rw [nodes_children] at children
  have idle : ∀ leaf, Below forest (.branch number) leaf → seeker.Idle
      ((branch.children cells path).foldl
        (fun state child => seeker.roamBelow cells depth child.1 child.2 state) state).2 leaf := by
    intro leaf below
    cases below with
    | under there member below =>
        cases found.symm.trans there
        exact children.idle _ member leaf below
  simp only [placesBelow, if_neg fresh, roamBelow, same, found]
  refine ⟨children.same, children.cleared.close idle, fun node member leaf below => ?_⟩
  rw [List.mem_singleton.mp member] at below
  exact idle leaf below

-- The branches that are open stand above the node, so they have greater numbers: a branch that was
-- visited before is not one of them, and all below it has been dealt with.
theorem placesBelow_agrees (ordered : Ordered forest) (depth : Nat) (path : Text)
    {visited : List Nat} (shallow : node.Precedes forest depth)
    (outer : ∀ limit ∈ opened, node.Precedes forest limit)
    (same : state.2.branches = forest.branches)
    (cleared : seeker.Cleared forest visited opened state) :
    seeker.Agrees forest opened (placesBelow forest.branches cells depth node path visited) [node]
      state (seeker.roamBelow cells depth node path state) := by
  induction depth generalizing node path visited opened state with
  | zero =>
      cases node with
      | leaf number => exact agrees_leaf path cleared
      | branch number => exact absurd shallow (Nat.not_lt_zero number)
  | succ depth ih =>
      cases node with
      | leaf number => exact agrees_leaf path cleared
      | branch number =>
          -- A branch that was visited is idle by now: an open one would stand below itself.
          by_cases again : number ∈ visited
          · rcases cleared number again with inside | idle
            · exact absurd (outer number inside) (Nat.lt_irrefl number)
            · have passed :
                  placesBelow forest.branches cells (depth + 1) (.branch number) path visited =
                    ([], visited) := if_pos again
              rw [passed]
              exact agrees_again (depth + 1) path same cleared idle
          · cases found : forest.branches[number]? with
            | none =>
                have passed :
                    placesBelow forest.branches cells (depth + 1) (.branch number) path visited =
                      ([], visited) := by
                  simp only [placesBelow, if_neg again, found]
                rw [passed]
                refine agrees_again (depth + 1) path same cleared fun leaf below => ?_
                cases below with
                | under there => cases found.symm.trans there
            | some branch =>
                refine agrees_branch found again same cleared
                  fun child member visited state same cleared => ?_
                have below := precedes_child ordered found member
                apply ih child.2 _ _ same cleared
                · exact precedes_mono below (Nat.le_of_lt_succ shallow)
                · intro limit member
                  rcases List.mem_cons.mp member with rfl | above
                  · exact below
                  · exact precedes_mono below (Nat.le_of_lt (outer limit above))

theorem visit_eq_roam (ordered : Ordered forest) (within : node.Within forest) (path : Text) :
    seeker.visit cells forest node path = seeker.roam cells ([], forest) node path := by
  have cleared : seeker.Cleared forest [] [] ([], forest) :=
    fun number member => absurd member List.not_mem_nil
  exact (placesBelow_agrees ordered _ path (precedes_size within)
    (fun limit member => absurd member List.not_mem_nil) rfl cleared).same

/-! ### The bound of roaming -/

theorem roamBelow_branches (depth : Nat) (path : Text) :
    (seeker.roamBelow cells depth node path state).2.branches = state.2.branches := by
  induction depth generalizing node path state with
  | zero =>
      cases node with
      | leaf number => exact visitPlace_branches _
      | branch number => rfl
  | succ depth ih =>
      cases node with
      | leaf number => exact visitPlace_branches _
      | branch number =>
          rw [roamBelow]
          split
          · rfl
          · next branch _ =>
              apply List.foldlRecOn (motive := fun after : State =>
                after.2.branches = state.2.branches)
              · rfl
              · intro after kept child _
                exact (ih child.2).trans kept

theorem roamAll_congr {first second : State → Node × Text → State}
    {children : List (Node × Text)}
    (each : ∀ child ∈ children, ∀ state : State, state.2.branches = forest.branches →
      first state child = second state child)
    (keeps : ∀ state child, (second state child).2.branches = state.2.branches)
    (same : state.2.branches = forest.branches) :
    children.foldl first state = children.foldl second state := by
  induction children generalizing state with
  | nil => rfl
  | cons child rest ih =>
      obtain ⟨here, later⟩ := List.forall_mem_cons.mp each
      rw [List.foldl_cons, List.foldl_cons, here state same]
      exact ih later ((keeps state child).trans same)

theorem roamBelow_enough (ordered : Ordered forest) {depth bound : Nat} (path : Text)
    (shallow : node.Precedes forest depth) (low : node.Precedes forest bound)
    (same : state.2.branches = forest.branches) :
    seeker.roamBelow cells depth node path state =
      seeker.roamBelow cells bound node path state := by
  induction depth generalizing node path state bound with
  | zero =>
      cases node with
      | leaf number => cases bound <;> rfl
      | branch number => exact absurd shallow (Nat.not_lt_zero number)
  | succ depth ih =>
      cases node with
      | leaf number => cases bound <;> rfl
      | branch number =>
          cases bound with
          | zero => exact absurd low (Nat.not_lt_zero number)
          | succ bound =>
              rw [roamBelow, roamBelow, same]
              cases found : forest.branches[number]? with
              | none => rfl
              | some branch =>
                  refine roamAll_congr (fun child member state same => ?_)
                    (fun _ child => roamBelow_branches bound child.2) same
                  have below := precedes_child ordered found member
                  exact ih child.2 (precedes_mono below (Nat.le_of_lt_succ shallow))
                    (precedes_mono below (Nat.le_of_lt_succ low)) same

theorem roam_branch (ordered : Ordered forest) {branch : Branch} (path : Text)
    (same : state.2.branches = forest.branches) (found : forest.branches[number]? = some branch) :
    seeker.roam cells state (.branch number) path =
      (branch.children cells path).foldl
        (fun state child => seeker.roam cells state child.1 child.2) state := by
  have inside := (Array.getElem?_eq_some_iff.mp found).1
  rw [roam, roamBelow, same, found]
  refine roamAll_congr (fun child member state same => ?_)
    (fun _ child => roamBelow_branches _ child.2) same
  have below := precedes_child ordered found member
  rw [roam, same]
  exact roamBelow_enough ordered child.2 (precedes_mono below (Nat.le_of_lt inside))
    (precedes_mono below (Nat.le_succ_of_le (Nat.le_of_lt inside))) same

end Seeker

/-! ### Walkers -/

namespace Walker

theorem visitPlace_seeker (walker : Walker) (forest : Forest) (place : Forest.Place) :
    ((visitPlace (walker, forest) place).1.substitutions, (visitPlace (walker, forest) place).2) =
        walker.seeker.visitPlace (walker.substitutions, forest) place ∧
      (visitPlace (walker, forest) place).1.seeker = walker.seeker := by
  simp only [visitPlace, Seeker.visitPlace]
  cases forest.openText? place.leaf with
  | none => exact ⟨rfl, rfl⟩
  | some text =>
      by_cases hit : walker.matchesText text = true
      · have hits : walker.seeker.hits text = true := hit
        dsimp only
        rw [if_pos hit, if_pos hits]
        exact ⟨rfl, rfl⟩
      · have misses : ¬ walker.seeker.hits text = true := hit
        dsimp only
        rw [if_neg hit, if_neg misses]
        exact ⟨rfl, rfl⟩

theorem visitPlaces_seeker (places : List Forest.Place) (walker : Walker) (forest : Forest) :
    ((places.foldl visitPlace (walker, forest)).1.substitutions,
        (places.foldl visitPlace (walker, forest)).2) =
      places.foldl walker.seeker.visitPlace (walker.substitutions, forest) := by
  induction places generalizing walker forest with
  | nil => rfl
  | cons place rest ih =>
      obtain ⟨first, kept⟩ := visitPlace_seeker walker forest place
      rw [List.foldl_cons, List.foldl_cons, ← first, ← kept]
      exact ih _ _

theorem visit_seeker (key : Text) (form : Placeholder.Form) (value : Text) (cells : Array Cell)
    (forest : Forest) (node : Node) (path : Text) :
    (((new key form value).visit cells forest node path).1.substitutions,
        ((new key form value).visit cells forest node path).2) =
      (new key form value).seeker.visit cells forest node path :=
  visitPlaces_seeker _ _ forest

end Walker

/-- To pass over the branches to which a walk came before saves time and changes nothing. In trees
that have been planted, whatever their leaves hold by now, a walk that enters a shared branch once
for each way to it ends with the same forest and makes the same records in the same order, for any
pattern, key and value; and that is what a walker does. -/
theorem visited_branches_hide_nothing {cells : Array Cell} {planted forest : Forest} {root : Node}
    (sown : planted.Sown cells) (branches : forest.branches = planted.branches)
    (size : forest.leaves.size = planted.leaves.size) (within : root.Within forest)
    (path : Text) :
    (∀ seeker : Seeker,
        seeker.visit cells forest root path = seeker.roam cells ([], forest) root path ∧
        ∀ (state : Seeker.State) number branch path, state.2.branches = forest.branches →
          forest.branches[number]? = some branch →
          seeker.roam cells state (.branch number) path =
            (branch.children cells path).foldl
              (fun state child => seeker.roam cells state child.1 child.2) state) ∧
      ∀ key form value,
        let after := (Walker.new key form value).visit cells forest root path
        (after.1.substitutions, after.2) =
          (Walker.new key form value).seeker.roam cells ([], forest) root path := by
  have ordered : Ordered forest := by
    intro number branch found node member
    rw [branches] at found
    have precedes := sown.ordered number branch found node member
    cases node with
    | leaf number => exact Nat.lt_of_lt_of_eq precedes size.symm
    | branch number => exact precedes
  refine ⟨fun seeker => ⟨Seeker.visit_eq_roam ordered within path, ?_⟩, fun key form value => ?_⟩
  · intro state number branch path same found
    exact Seeker.roam_branch ordered path same found
  · exact (Walker.visit_seeker key form value cells forest root path).trans
      (Seeker.visit_eq_roam ordered within path)

/-- A mapping and a list inside it, each of them in two places, and a leaf that was replaced before.
-/
theorem visited_branches_hide_nothing_nested :
    let cells : Array Cell := #[.list [.cell 1, .cell 2, .cell 1],
      .mapping [(.atom (.text "k"), .cell 2), (.atom (.text "l"), .atom (.text "$A"))],
      .list [.atom (.text "$B"), .atom (.text "b $A")]]
    let branches : Array Branch := #[.sequence [.leaf 0, .leaf 1],
      .mapping [(.atom (.text "k"), .branch 0), (.atom (.text "l"), .leaf 2)],
      .sequence [.branch 1, .branch 0, .branch 1]]
    let forest : Forest := ⟨branches,
      #[⟨.atom (.text "$A"), true⟩, ⟨.atom (.text "b $A"), false⟩, ⟨.atom (.text "$A"), false⟩]⟩
    (Walker.new "A" .bare "$A").seeker.roam cells ([], forest) (.branch 2) "$" =
      ([⟨"$[0].k[1]", "A"⟩, ⟨"$[0].l", "A"⟩], ⟨branches, #[⟨.atom (.text "$A"), true⟩,
        ⟨.atom (.text "$A"), true⟩, ⟨.atom (.text "$A"), true⟩]⟩) := by
  intro cells branches forest
  let planted : Forest := ⟨branches,
    #[⟨.atom (.text "$B"), false⟩, ⟨.atom (.text "b $A"), false⟩, ⟨.atom (.text "$A"), false⟩]⟩
  have grown : Forest.empty.plant cells (.cell 0) "$" = .ok (.branch 2, planted) := rfl
  have sown : planted.Sown cells := .plant .empty grown
  have kept : forest.branches = planted.branches := rfl
  have within : Node.Within forest (.branch 2) := by decide
  have both := (visited_branches_hide_nothing sown kept rfl within "$").2 "A" .bare "$A"
  exact both.symm.trans (by decide)

end SecretFill
