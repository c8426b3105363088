import SecretFill.Proofs.Forest.Coverage
import SecretFill.Proofs.Forest.Cycle
/-!
The trail that growing leaves. While a document grows, its leaves are numbered one after the other,
and a walk over the branches comes to them in the same order, with the path along which each has
grown (`Walked`). In the document these are the routes that go into no container twice, from left to
right (`Combed`).
-/

namespace SecretFill.Forest

open Relation
open SecretFill.Data

/-- Something in a document that is no container, and the way to it. -/
structure Spot where
  route : List Nat
  value : Value
  path : Text

def Spot.mark (spot : Spot) : Value × Text := (spot.value, spot.path)

def Spot.under (place : Nat) (spot : Spot) : Spot := { spot with route := place :: spot.route }

/-- A walk comes to a spot below a value when some containers are finished. -/
structure Comes (cells : Array Cell) (finished : List Nat) (value : Value) (path : Text)
    (spot : Spot) : Prop where
  followed : follow cells value path spot.route = some (spot.value, spot.path)
  simple : ∀ index, spot.value = .cell index → ¬ IsContainer cells index
  unfinished : Unfinished cells finished value path spot.route

def ComesFrom (cells : Array Cell) (finished : List Nat) (index : Nat) (path : Text) (place : Nat)
    (spot : Spot) : Prop :=
  Comes cells finished (.cell index) path spot ∧
    ∃ taken route, spot.route = taken :: route ∧ place ≤ taken

def numbered : Nat → List Text → List Place
  | _, [] => []
  | number, path :: rest => ⟨number, path⟩ :: numbered (number + 1) rest

/-- A walk may begin where a growth did: it has been in the branches that were there for the current
document, and in none that have grown since. -/
structure Ready (growth after : Growth) (visited : List Nat) : Prop where
  known : ∀ entry ∈ growth.finished, entry.2 ∈ visited
  ahead : ∀ number ∈ visited,
    number < growth.forest.branches.size ∨ after.forest.branches.size ≤ number

structure Passed (growth after : Growth) (visited later : List Nat) : Prop where
  kept : visited ⊆ later
  known : ∀ entry ∈ after.finished, entry.2 ∈ later
  fresh : ∀ number ∈ later, number ∈ visited ∨
    growth.forest.branches.size ≤ number ∧ number < after.forest.branches.size

structure Walked (cells : Array Cell) (growth : Growth) (starts : List (Node × Text))
    (after : Growth) (marks : List (Value × Text)) : Prop where
  extended : Extends growth.forest after.forest
  sizes : growth.forest.branches.size ≤ after.forest.branches.size
  leaves : after.forest.leaves.toList =
    growth.forest.leaves.toList ++ marks.map fun mark => ⟨mark.1, false⟩
  walk : ∀ (later : Forest) depth visited, Extends after.forest later →
    after.forest.branches.size ≤ depth → Ready growth after visited →
    ∃ visited', placesOfAll (placesBelow later.branches cells depth) starts visited =
        (numbered growth.forest.leaves.size (marks.map Prod.snd), visited') ∧
      Passed growth after visited visited'

/-- What growing a value finishes, and the spots to which a walk comes meanwhile. -/
structure Combed (cells : Array Cell) (ancestors : List Nat) (value : Value) (path : Text)
    (growth after : Growth) (spots : List Spot) : Prop where
  more : growth.done ⊆ after.done
  settled : after.Settled cells ancestors
  cleared : Cleared cells after value
  reached : ∀ index ∈ after.done, index ∈ growth.done ∨
    ∃ route shown, follow cells value path route = some (.cell index, shown)
  ordered : spots.Pairwise fun first second => LeftOf first.route second.route
  exact : ∀ spot, spot ∈ spots ↔ Comes cells growth.done value path spot

structure Partway (cells : Array Cell) (ancestors : List Nat) (index : Nat) (path : Text)
    (growth : Growth) (before : List (Value × Option Text)) (middle : Growth) : Prop where
  more : growth.done ⊆ middle.done
  settled : middle.Settled cells (index :: ancestors)
  clear : ∀ sibling ∈ before, sibling.2 ≠ none ∧ Cleared cells middle sibling.1
  reached : ∀ inner ∈ middle.done, inner ∈ growth.done ∨ ∃ place route shown,
    place < before.length ∧
      follow cells (.cell index) path (place :: route) = some (.cell inner, shown)

variable {cells : Array Cell} {ancestors : List Nat} {value part : Value} {path deeper : Text}
  {growth middle after : Growth} {node : Node} {starts others : List (Node × Text)}
  {marks more : List (Value × Text)} {spot : Spot} {spots : List Spot} {index : Nat} {cell : Cell}

theorem numbered_append (start : Nat) (paths others : List Text) :
    numbered start (paths ++ others) =
      numbered start paths ++ numbered (start + paths.length) others := by
  induction paths generalizing start with
  | nil => rfl
  | cons path rest ih =>
      simp only [List.cons_append, numbered, ih, List.length_cons, Nat.add_right_comm, Nat.add_assoc]

theorem map_leaf_numbered (start : Nat) (paths : List Text) :
    (numbered start paths).map Place.leaf = List.range' start paths.length := by
  induction paths generalizing start with
  | nil => rfl
  | cons path rest ih => rw [numbered, List.map_cons, ih, List.length_cons, List.range'_succ]

theorem placesOfAll_append (placesOf : Node → Text → List Nat → List Place × List Nat)
    (starts others : List (Node × Text)) (visited : List Nat) :
    placesOfAll placesOf (starts ++ others) visited =
      ((placesOfAll placesOf starts visited).1 ++
          (placesOfAll placesOf others (placesOfAll placesOf starts visited).2).1,
        (placesOfAll placesOf others (placesOfAll placesOf starts visited).2).2) := by
  induction starts generalizing visited with
  | nil => rfl
  | cons start rest ih => simp only [List.cons_append, placesOfAll, ih, List.append_assoc]

theorem placesOfAll_singleton (placesOf : Node → Text → List Nat → List Place × List Nat)
    (node : Node) (path : Text) (visited : List Nat) :
    placesOfAll placesOf [(node, path)] visited = placesOf node path visited := by
  simp [placesOfAll]

/-! ### The walk over branches -/

theorem Walked.nil (growth : Growth) : Walked cells growth [] growth [] := by
  refine ⟨extends_refl _, Nat.le_refl _, by simp, fun later depth visited _ _ ready => ?_⟩
  exact ⟨visited, rfl, List.Subset.refl _, ready.known, fun number member => .inl member⟩

theorem Walked.append (first : Walked cells growth starts middle marks)
    (second : Walked cells middle others after more) :
    Walked cells growth (starts ++ others) after (marks ++ more) := by
  have size : middle.forest.leaves.size = growth.forest.leaves.size + marks.length := by
    simpa using congrArg List.length first.leaves
  have early := first.sizes
  have late := second.sizes
  refine ⟨first.extended.trans second.extended, Nat.le_trans early late, ?_, ?_⟩
  · rw [second.leaves, first.leaves, List.map_append, List.append_assoc]
  · intro later depth visited extended enough ready
    have ready' : Ready growth middle visited := by
      refine ⟨ready.known, fun number member => ?_⟩
      have ahead := ready.ahead number member
      omega
    obtain ⟨visited', walked, passed⟩ := first.walk later depth visited
      (second.extended.trans extended) (Nat.le_trans late enough) ready'
    -- What the first walk has visited is older than all that has grown since.
    have between : Ready middle after visited' := by
      refine ⟨passed.known, fun number member => ?_⟩
      rcases passed.fresh number member with old | new
      · have ahead := ready.ahead number old
        omega
      · exact .inl new.2
    obtain ⟨visited'', walked', passed'⟩ := second.walk later depth visited' extended enough between
    refine ⟨visited'', ?_, List.Subset.trans passed.kept passed'.kept, passed'.known,
      fun number member => ?_⟩
    · rw [placesOfAll_append, walked, List.map_append, numbered_append, List.length_map, ← size]
      simp only [walked']
    · rcases passed'.fresh number member with old | new
      · rcases passed.fresh number old with older | new
        · exact .inl older
        · exact .inr ⟨new.1, Nat.lt_of_lt_of_le new.2 late⟩
      · exact .inr ⟨Nat.le_trans early new.1, new.2⟩

theorem walked_leaf (growth : Growth) (value : Value) (path : Text) :
    Walked cells growth [((growth.addLeaf value).1, path)] (growth.addLeaf value).2
      [(value, path)] := by
  refine ⟨addLeaf_extends growth value, Nat.le_refl _, ?_, fun later depth visited _ _ ready => ?_⟩
  · exact Array.toList_push
  · refine ⟨visited, ?_, List.Subset.refl _, ready.known, fun number member => .inl member⟩
    rw [placesOfAll_singleton]
    cases depth <;> rfl

theorem walked_known {number : Nat} (past : growth.finished.lookup index = some number)
    (path : Text) : Walked cells growth [(.branch number, path)] growth [] := by
  refine ⟨extends_refl _, Nat.le_refl _, by simp, fun later depth visited _ _ ready => ?_⟩
  refine ⟨visited, ?_, List.Subset.refl _, ready.known, fun number member => .inl member⟩
  have again : number ∈ visited := ready.known _ (mem_of_lookup past)
  rw [placesOfAll_singleton]
  cases depth with
  | zero => rfl
  | succ depth => exact if_pos again

/-- A walk goes into a new branch and on to all that has grown below it. -/
theorem walked_branch {branch : Branch} (inside : Walked cells growth starts middle marks)
    (children : branch.children cells path = starts) :
    Walked cells growth [((middle.addBranch index branch).1, path)]
      (middle.addBranch index branch).2 marks := by
  have size : (middle.addBranch index branch).2.forest.branches.size =
      middle.forest.branches.size + 1 := Array.size_push _
  have extended := addBranch_extends middle index branch
  have sizes := inside.sizes
  refine ⟨inside.extended.trans extended, by omega, inside.leaves, ?_⟩
  intro later depth visited further enough ready
  obtain ⟨less, rfl⟩ : ∃ less, depth = less + 1 := Nat.exists_eq_succ_of_ne_zero (by omega)
  -- The new branch has the greatest number, and no walk has come to it yet.
  have absent : middle.forest.branches.size ∉ visited := by
    intro member
    have ahead := ready.ahead _ member
    omega
  have found : later.branches[middle.forest.branches.size]? = some branch :=
    further.branches _ _ Array.getElem?_push_size
  have ready' : Ready growth middle (middle.forest.branches.size :: visited) := by
    refine ⟨fun entry member => List.mem_cons_of_mem _ (ready.known entry member), ?_⟩
    intro number member
    rcases List.mem_cons.mp member with rfl | old
    · exact .inr (Nat.le_refl _)
    · have ahead := ready.ahead number old
      omega
  obtain ⟨visited', walked, passed⟩ :=
    inside.walk later less _ (extended.trans further) (by omega) ready'
  refine ⟨visited', ?_, fun number member => passed.kept (List.mem_cons_of_mem _ member), ?_, ?_⟩
  · rw [placesOfAll_singleton]
    simp only [Growth.addBranch, placesBelow, if_neg absent, found, children]
    exact walked
  · intro entry member
    rcases List.mem_cons.mp member with rfl | old
    · exact passed.kept List.mem_cons_self
    · exact passed.known entry old
  · intro number member
    rcases passed.fresh number member with old | new
    · rcases List.mem_cons.mp old with rfl | older
      · exact .inr (by omega)
      · exact .inl older
    · exact .inr (by omega)

theorem children_branchOf (container : cell.isContainer = true)
    (paths : (cell.steps cells path).map Prod.snd = starts.map fun start => some start.2) :
    (branchOf (starts.map Prod.fst) cell).children cells path = starts := by
  have sizes : (cell.steps cells path).length = starts.length := by
    simpa using congrArg List.length paths
  -- Every part has grown, so every step has a path, the one of its node.
  have each : ∀ (place : Nat) (inSteps : place < (cell.steps cells path).length)
      (inStarts : place < starts.length),
      (cell.steps cells path)[place].2 = some starts[place].2 := by
    intro place inSteps inStarts
    simpa [inSteps, inStarts] using congrArg (fun list => list[place]?) paths
  cases cell with
  | list items =>
      refine List.ext_getElem (by simp [branchOf, Branch.children]) fun place inside inStarts => ?_
      have same := each place (by omega) inStarts
      simp only [Cell.steps, List.getElem_mapIdx, Option.some.injEq] at same
      simp [branchOf, Branch.children, same]
  | mapping entries =>
      simp only [Cell.steps, List.length_map] at sizes
      refine List.ext_getElem (by simp [branchOf, Branch.children,
          sizes]) fun place inside inStarts => ?_
      have same := each place (by simpa [Cell.steps, sizes] using inStarts) inStarts
      simp only [Cell.steps, List.getElem_map] at same
      split at same
      · simp only [Option.some.injEq] at same
        simp [branchOf, Branch.children, same]
      · cases same
  | _ => cases container

/-! ### The routes in the document -/

theorem combed_leaf (settled : growth.Settled cells ancestors) (path : Text)
    (simple : ∀ index, value = .cell index → ¬ IsContainer cells index) :
    Combed cells ancestors value path growth (growth.addLeaf value).2 [⟨[], value, path⟩] := by
  refine ⟨List.Subset.refl _, ⟨fun index member => ?_, settled.apart⟩, cleared_leaf _ simple,
    fun _ member => .inl member, List.pairwise_singleton _ _, fun spot => ?_⟩
  · exact (settled.cleared index member).mono (List.Subset.refl _)
  · constructor
    · intro member
      rw [List.mem_singleton.mp member]
      exact ⟨rfl, simple, fun way _ _ shorter differs => absurd (List.prefix_nil.mp shorter) differs⟩
    · rintro ⟨followed, -, -⟩
      obtain ⟨route, goal, shown⟩ := spot
      cases route with
      | nil =>
          cases followed
          exact List.mem_singleton.mpr rfl
      | cons place route =>
          obtain ⟨index, cell, part, deeper, rfl, found, step, -⟩ := follow_cons_eq_some followed
          have inside : Inside cells (.cell index) part :=
            ⟨cell, found, part_of_step (List.mem_of_getElem? step)⟩
          exact absurd inside (not_inside_of_simple simple part)

theorem Comes.onward {finished : List Nat} (comes : Comes cells finished (.cell index) path spot)
    (container : IsContainer cells index) : ∃ place route, spot.route = place :: route := by
  obtain ⟨route, goal, shown⟩ := spot
  cases route with
  | cons place route => exact ⟨place, route, rfl⟩
  | nil =>
      have followed := comes.followed
      cases followed
      exact absurd container (comes.simple index rfl)

theorem combed_known (settled : growth.Settled cells ancestors) (path : Text)
    (container : IsContainer cells index) (finished : index ∈ growth.done) :
    Combed cells ancestors (.cell index) path growth growth [] := by
  refine ⟨List.Subset.refl _, settled, settled.cleared index finished, fun _ member => .inl member,
    List.Pairwise.nil, fun spot => ⟨fun member => absurd member List.not_mem_nil,
      fun comes => ?_⟩⟩
  obtain ⟨place, route, same⟩ := comes.onward container
  have differs : [] ≠ spot.route := by simp [same]
  exact absurd finished
    (comes.unfinished [] index path List.nil_prefix differs rfl container).1

section Parts

variable {before later : List (Value × Option Text)}

theorem Partway.comes_under (partway : Partway cells ancestors index path growth before middle)
    (found : cells[index]? = some cell) (fresh : index ∉ growth.done)
    (steps : cell.steps cells path = before ++ (part, some deeper) :: later) :
    Comes cells growth.done (.cell index) path (spot.under before.length) ↔
      Comes cells middle.done part deeper spot := by
  have taken : (cell.steps cells path)[before.length]? = some (part, some deeper) := by
    simp [steps]
  constructor
  · intro comes
    have followed := comes.followed
    rw [Spot.under, follow_cons found taken] at followed
    refine ⟨followed, comes.simple, fun way inner here shorter differs led container => ?_⟩
    obtain ⟨outside, apart⟩ := comes.unfinished (before.length :: way) inner here
      (List.cons_prefix_cons.mpr ⟨rfl, shorter⟩) (fun same => differs (List.cons.inj same).2)
      ((follow_cons found taken way).trans led) container
    constructor
    · intro member
      -- What an earlier part has finished, a route further to the left leads to.
      rcases partway.reached inner member with old | ⟨place, route, shown, less, led'⟩
      · exact outside old
      · exact apart (place :: route) shown (.inl less) led'
    · intro earlier there left led'
      exact apart (before.length :: earlier) there (.inr ⟨rfl, left⟩)
        ((follow_cons found taken earlier).trans led')
  · intro comes
    exact ⟨(follow_cons found taken spot.route).trans comes.followed, comes.simple,
      unfinished_cons found steps fresh partway.more
        (fun sibling member => (partway.clear sibling member).2) comes.unfinished⟩

theorem Partway.step (partway : Partway cells ancestors index path growth before middle)
    (found : cells[index]? = some cell)
    (steps : cell.steps cells path = before ++ (part, some deeper) :: later)
    (combed : Combed cells (index :: ancestors) part deeper middle after spots) :
    Partway cells ancestors index path growth (before ++ [(part, some deeper)]) after := by
  have taken : (cell.steps cells path)[before.length]? = some (part, some deeper) := by
    simp [steps]
  refine ⟨List.Subset.trans partway.more combed.more, combed.settled, ?_, ?_⟩
  · intro sibling member
    rcases List.mem_append.mp member with early | last
    · obtain ⟨labelled, cleared⟩ := partway.clear sibling early
      exact ⟨labelled, cleared.mono combed.more⟩
    · rw [List.mem_singleton.mp last]
      exact ⟨Option.some_ne_none _, combed.cleared⟩
  · intro inner member
    rw [List.length_append, List.length_singleton]
    rcases combed.reached inner member with old | ⟨route, shown, led⟩
    · rcases partway.reached inner old with older | ⟨place, route, shown, less, led⟩
      · exact .inl older
      · exact .inr ⟨place, route, shown, by omega, led⟩
    · exact .inr ⟨before.length, route, shown, by omega, (follow_cons found taken route).trans led⟩

theorem Partway.comesFrom_iff (partway : Partway cells ancestors index path growth before middle)
    (found : cells[index]? = some cell) (fresh : index ∉ growth.done)
    (steps : cell.steps cells path = before ++ (part, some deeper) :: later) :
    ComesFrom cells growth.done index path before.length spot ↔
      (∃ inner, Comes cells middle.done part deeper inner ∧ inner.under before.length = spot) ∨
        ComesFrom cells growth.done index path (before.length + 1) spot := by
  constructor
  · rintro ⟨comes, place, route, same, beyond⟩
    rcases Nat.eq_or_lt_of_le beyond with rfl | further
    · obtain ⟨_, goal, shown⟩ := spot
      cases same
      have below : Comes cells middle.done part deeper ⟨route, goal, shown⟩ :=
        (partway.comes_under found fresh steps).mp comes
      exact .inl ⟨⟨route, goal, shown⟩, below, rfl⟩
    · exact .inr ⟨comes, place, route, same, further⟩
  · rintro (⟨inner, below, rfl⟩ | ⟨comes, place, route, same, beyond⟩)
    · exact ⟨(partway.comes_under found fresh steps).mpr below, before.length, inner.route, rfl,
        Nat.le_refl _⟩
    · exact ⟨comes, place, route, same, Nat.le_of_succ_le beyond⟩

theorem not_comesFrom {finished : List Nat} (found : cells[index]? = some cell) :
    ¬ ComesFrom cells finished index path (cell.steps cells path).length spot := by
  rintro ⟨comes, place, route, same, beyond⟩
  have followed := comes.followed
  rw [same] at followed
  obtain ⟨_, _, _, _, ⟨⟩, again, step, -⟩ := follow_cons_eq_some followed
  cases found.symm.trans again
  exact absurd (List.getElem?_eq_some_iff.mp step).1 (Nat.not_lt_of_le beyond)

theorem comesFrom_first {finished : List Nat} (container : IsContainer cells index) :
    ComesFrom cells finished index path 0 spot ↔ Comes cells finished (.cell index) path spot := by
  refine ⟨fun comes => comes.1, fun comes => ?_⟩
  obtain ⟨place, route, same⟩ := comes.onward container
  exact ⟨comes, place, route, same, Nat.zero_le _⟩

theorem trail_row (found : cells[index]? = some cell) (fresh : index ∉ growth.done)
    (row : PathRow (fun value path growth node after => growth.Settled cells (index :: ancestors) →
      ∃ spots, Combed cells (index :: ancestors) value path growth after spots ∧
        Walked cells growth [(node, path)] after (spots.map Spot.mark)) later middle starts after)
    (steps : cell.steps cells path = before ++ later)
    (partway : Partway cells ancestors index path growth before middle) :
    Partway cells ancestors index path growth (before ++ later) after ∧ ∃ spots : List Spot,
      spots.Pairwise (fun first second => LeftOf first.route second.route) ∧
      (∀ spot, spot ∈ spots ↔ ComesFrom cells growth.done index path before.length spot) ∧
      Walked cells middle starts after (spots.map Spot.mark) := by
  induction row generalizing before with
  | @nil middle =>
      rw [List.append_nil] at steps ⊢
      refine ⟨partway, [], List.Pairwise.nil, fun spot =>
        ⟨fun member => absurd member List.not_mem_nil, ?_⟩, .nil middle⟩
      rw [← steps]
      exact fun comes => absurd comes (not_comesFrom found)
  | @cons part deeper later node starts middle next after first rest ih =>
      obtain ⟨early, combed, walked⟩ := first partway.settled
      have steps' : cell.steps cells path = (before ++ [(part, some deeper)]) ++ later := by
        rw [steps, List.append_assoc, List.singleton_append]
      obtain ⟨partway', late, ordered, exact, walked'⟩ :=
        ih steps' (partway.step found steps combed)
      rw [List.append_assoc, List.singleton_append] at partway'
      rw [List.length_append, List.length_singleton] at exact
      refine ⟨partway', early.map (Spot.under before.length) ++ late, ?_, fun spot => ?_, ?_⟩
      · refine List.pairwise_append.mpr ⟨?_, ordered, ?_⟩
        · exact List.pairwise_map.mpr (combed.ordered.imp fun left => .inr ⟨rfl, left⟩)
        · intro one member other member'
          obtain ⟨spot, -, rfl⟩ := List.mem_map.mp member
          obtain ⟨-, place, route, same, beyond⟩ := (exact other).mp member'
          rw [same]
          exact .inl beyond
      · rw [List.mem_append, exact, List.mem_map, partway.comesFrom_iff found fresh steps]
        simp only [combed.exact]
      · have marks : (early.map (Spot.under before.length) ++ late).map Spot.mark =
            early.map Spot.mark ++ late.map Spot.mark := by
          rw [List.map_append, List.map_map]
          rfl
        rw [marks]
        exact walked.append walked'

end Parts

/-- Growing a value leaves a trail: the spots below it to which a walk comes now. -/
theorem grow_trail {depth : Nat}
    (grown : grow cells depth ancestors value path growth = .ok (node, after))
    (settled : growth.Settled cells ancestors) :
    ∃ spots, Combed cells ancestors value path growth after spots ∧
      Walked cells growth [(node, path)] after (spots.map Spot.mark) := by
  -- Both sides grow together: what a walk comes to, and the spots that are first on their routes.
  refine grow_induction_path (motive := fun ancestors value path growth node after =>
    growth.Settled cells ancestors → ∃ spots, Combed cells ancestors value path growth after spots ∧
      Walked cells growth [(node, path)] after (spots.map Spot.mark)) ?_ ?_ ?_ grown settled
  · intro ancestors value path growth simple settled
    exact ⟨_, combed_leaf settled path simple, walked_leaf growth value path⟩
  · intro ancestors index path number growth container past settled
    exact ⟨[], combed_known settled path container (mem_done.mpr (by simp [past])),
      walked_known past path⟩
  · intro ancestors index path cell growth starts middle found container outside absent row settled
    have fresh : index ∉ growth.done := fun member => mem_done.mp member absent
    have start : Partway cells ancestors index path growth [] growth :=
      ⟨List.Subset.refl _, settled.enter fresh, List.forall_mem_nil _, fun _ member => .inl member⟩
    obtain ⟨partway, spots, ordered, exact, walked⟩ :=
      trail_row found fresh row (List.nil_append _).symm start
    rw [List.nil_append] at partway
    obtain ⟨settled', cleared⟩ := settled_addBranch (branchOf (starts.map Prod.fst) cell) found
      outside partway.settled partway.clear
    refine ⟨spots, ⟨List.subset_cons_of_subset _ partway.more, settled', cleared, ?_, ordered, ?_⟩,
      walked_branch walked (children_branchOf container row.paths)⟩
    · intro inner member
      rcases List.mem_cons.mp member with rfl | early
      · exact .inr ⟨[], path, rfl⟩
      · rcases partway.reached inner early with old | ⟨place, route, shown, -, led⟩
        · exact .inl old
        · exact .inr ⟨place :: route, shown, led⟩
    · intro spot
      rw [exact]
      exact comesFrom_first ⟨cell, found, container⟩

/-! ### All documents -/

theorem Walked.forget (walked : Walked cells growth starts after marks) :
    Walked cells growth starts ⟨after.forest, []⟩ marks := by
  refine ⟨walked.extended, walked.sizes, walked.leaves, ?_⟩
  intro later depth visited extended enough ready
  obtain ⟨visited', along, passed⟩ :=
    walked.walk later depth visited extended enough ⟨ready.known, ready.ahead⟩
  exact ⟨visited', along, passed.kept, List.forall_mem_nil _, passed.fresh⟩

structure Seat where
  document : Nat
  spot : Spot

/-- The order in which a walk goes over all documents. -/
def Seat.Before (first second : Seat) : Prop :=
  first.document < second.document ∨
    first.document = second.document ∧ LeftOf first.spot.route second.spot.route

/-- The documents planted one after the other leave one trail. -/
theorem plantAll_trail {count start : Nat} {roots : List Value} {forest later : Forest}
    {plots : List Plot} (planted : plantAll cells count start roots forest = .ok (plots, later)) :
    ∃ seats : List Seat, seats.Pairwise Seat.Before ∧
      (∀ seat, seat ∈ seats ↔ ∃ place root, roots[place]? = some root ∧
        seat.document = start + place ∧
        Comes cells [] root (Path.ofRoot seat.document count) seat.spot) ∧
      Walked cells ⟨forest, []⟩ (plots.map fun plot => (plot.node, plot.path)) ⟨later, []⟩
        (seats.map fun seat => seat.spot.mark) := by
  -- The seats of the first document come first, and those of the others start one later.
  induction roots generalizing start forest plots with
  | nil =>
      cases planted
      refine ⟨[], List.Pairwise.nil, fun seat => ⟨fun member => absurd member List.not_mem_nil, ?_⟩,
        .nil _⟩
      rintro ⟨place, root, absent, -⟩
      simp at absent
  | cons root rest ih =>
      simp only [plantAll] at planted
      split at planted
      · cases planted
      · cases planted
      · next node middle accepted =>
          obtain ⟨⟨others, last⟩, second, planted⟩ := bind_eq_ok planted
          cases planted
          obtain ⟨growth, grown, rfl⟩ := grow_of_plant accepted
          obtain ⟨spots, combed, walked⟩ := grow_trail grown (settled_start cells forest)
          obtain ⟨seats, ordered, exact, walked'⟩ := ih second
          refine ⟨spots.map (Seat.mk start) ++ seats, ?_, fun seat => ?_, ?_⟩
          · refine List.pairwise_append.mpr ⟨?_, ordered, ?_⟩
            · exact List.pairwise_map.mpr (combed.ordered.imp fun left => .inr ⟨rfl, left⟩)
            · intro one member other member'
              obtain ⟨spot, -, rfl⟩ := List.mem_map.mp member
              obtain ⟨place, root, -, same, -⟩ := (exact other).mp member'
              refine .inl ?_
              dsimp only
              omega
          · rw [List.mem_append, List.mem_map, exact]
            constructor
            · rintro (⟨spot, member, rfl⟩ | ⟨place, other, found, same, comes⟩)
              · exact ⟨0, root, rfl, rfl, (combed.exact spot).mp member⟩
              · exact ⟨place + 1, other, found, by omega, comes⟩
            · rintro ⟨place, other, found, same, comes⟩
              cases place with
              | zero =>
                  cases found
                  obtain ⟨_, spot⟩ := seat
                  cases same
                  exact .inl ⟨spot, (combed.exact spot).mpr comes, rfl⟩
              | succ place => exact .inr ⟨place, other, found, by omega, comes⟩
          · have marks : (spots.map (Seat.mk start) ++ seats).map (fun seat => seat.spot.mark) =
                spots.map Spot.mark ++ seats.map fun seat => seat.spot.mark := by
              rw [List.map_append, List.map_map]
              rfl
            rw [marks]
            exact walked.forget.append walked'

end SecretFill.Forest
