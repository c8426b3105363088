import Mathlib.Algebra.Ring.Nat
import SecretFill.Proofs.Walker.Visit
/-!
Walkers at work on the same trees. Each errand sends one of them to a node, in any order and as
often as one likes. One errand keeps the session `Orderly`; so after any errands the trees have
their shape, a leaf has the value of the first walker that was sent above it and looks for its text,
and there are as many records as leaves replaced.
-/

namespace SecretFill

open SecretFill.Data SecretFill.Forest

/-- Forests in which documents over the same cells have been planted, one after the other. -/
inductive Forest.Sown (cells : Array Cell) : Forest → Prop
  | empty : Sown cells Forest.empty
  | plant {forest later : Forest} {root : Value} {path : Text} {node : Node}
      (sown : Sown cells forest) (planted : forest.plant cells root path = .ok (node, later)) :
      Sown cells later

theorem unsubstituted_of_plant {cells : Array Cell} {forest later : Forest} {root : Value}
    {path : Text} {node : Node} (planted : forest.plant cells root path = .ok (node, later))
    (before : ∀ leaf ∈ forest.leaves, leaf.substituted = false) :
    ∀ leaf ∈ later.leaves, leaf.substituted = false := by
  obtain ⟨growth, grown, rfl⟩ := grow_of_plant planted
  refine grow_induction (motive := fun _ _ before _ after =>
    (∀ leaf ∈ before.forest.leaves, leaf.substituted = false) →
      ∀ leaf ∈ after.forest.leaves, leaf.substituted = false) ?_ ?_ ?_ grown before
  · intro _ value growth _ before leaf member
    rcases Array.mem_push.mp member with old | rfl
    · exact before leaf old
    · rfl
  · intro _ _ _ _ _ _ before
    exact before
  · intro _ _ _ growth nodes middle _ _ _ _ row before
    have after := row.chain (fun _ before => before)
      fun _ _ _ first second before => second (first before)
    exact after before

theorem Forest.Sown.unsubstituted {cells : Array Cell} {forest : Forest} (sown : Sown cells forest) :
    ∀ leaf ∈ forest.leaves, leaf.substituted = false := by
  induction sown with
  | empty => simp [Forest.empty]
  | plant _ planted ih => exact unsubstituted_of_plant planted ih

theorem Forest.Sown.ordered {cells : Array Cell} {forest : Forest} (sown : Sown cells forest) :
    Ordered forest := by
  induction sown with
  | empty => exact ordered_empty
  | plant _ planted ih => exact (plant_faithful ih planted).1

theorem replaced_of_unsubstituted {forest : Forest}
    (unsubstituted : ∀ leaf ∈ forest.leaves, leaf.substituted = false) : forest.replaced = 0 := by
  refine List.countP_eq_zero.mpr fun leaf member => ?_
  simp [unsubstituted leaf (by simpa using member)]

structure Errand where
  walker : Nat
  node : Node
  path : Text
  deriving DecidableEq, Repr

structure Session where
  walkers : List Walker
  forest : Forest
  deriving DecidableEq, Repr

namespace Session

def attend (cells : Array Cell) (session : Session) (errand : Errand) : Session :=
  match session.walkers[errand.walker]? with
  | none => session
  | some walker =>
      let (walker, forest) := walker.visit cells session.forest errand.node errand.path
      ⟨session.walkers.set errand.walker walker, forest⟩

def attendAll (cells : Array Cell) (session : Session) (errands : List Errand) : Session :=
  errands.foldl (attend cells) session

def records (session : Session) : Nat :=
  (session.walkers.map fun walker => walker.substitutions.length).sum

/-- On an errand one of the walkers comes to a leaf and looks for its text. -/
def Meets (walkers : List Walker) (forest : Forest) (number : Nat) (text : Text)
    (errand : Errand) : Prop :=
  ∃ walker, walkers[errand.walker]? = some walker ∧ Below forest errand.node number ∧
    walker.matchesText text = true

def Settled (session : Session) (errand : Errand) : Prop :=
  ∀ walker, session.walkers[errand.walker]? = some walker → walker.Done session.forest errand.node

structure Orderly (walkers : List Walker) (forest : Forest) (session : Session) : Prop where
  branches : session.forest.branches = forest.branches
  size : session.forest.leaves.size = forest.leaves.size
  sought : session.walkers.map Walker.sought = walkers.map Walker.sought
  thorough : ∀ walker ∈ session.walkers, walker.Thorough session.forest
  records : session.records = session.forest.replaced

/-- What the errands of some walkers have made of a forest. -/
structure Outcome (cells : Array Cell) (walkers : List Walker) (errands : List Errand)
    (forest : Forest) (after : Session) : Prop where
  branches : after.forest.branches = forest.branches
  size : after.forest.leaves.size = forest.leaves.size
  fresh : ∀ (number : Nat) (leaf : Leaf), forest.leaves[number]? = some leaf →
    leaf.substituted = false
  others : ∀ (number : Nat) (leaf : Leaf), forest.leaves[number]? = some leaf →
    (∀ text, leaf.value ≠ .atom (.text text)) → after.forest.leaves[number]? = some leaf
  unmet : ∀ (number : Nat) (leaf : Leaf) text, forest.leaves[number]? = some leaf →
    leaf.value = .atom (.text text) →
    (∀ errand ∈ errands, ¬ Meets walkers forest number text errand) →
    after.forest.leaves[number]? = some leaf
  met : ∀ (number : Nat) (leaf : Leaf) text, forest.leaves[number]? = some leaf →
    leaf.value = .atom (.text text) →
    ∀ before errand later walker, errands = before ++ errand :: later →
    (∀ early ∈ before, ¬ Meets walkers forest number text early) →
    Meets walkers forest number text errand → walkers[errand.walker]? = some walker →
    after.forest.leaves[number]? = some ⟨.atom (.text walker.value), true⟩
  frozen : ∀ (number : Nat) (leaf : Leaf), after.forest.leaves[number]? = some leaf →
    leaf.substituted = true → ∀ more,
    (after.attendAll cells more).forest.leaves[number]? = some leaf
  records : after.records = after.forest.replaced
  again : ∀ errand ∈ errands, ∀ inner, after.forest.Leads errand.node inner → ∀ path,
    after.attend cells ⟨errand.walker, inner, path⟩ = after

variable {cells : Array Cell} {forest : Forest} {walkers : List Walker} {session : Session}
  {errand : Errand} {errands : List Errand} {number : Nat} {text : Text}

theorem exists_of_map_eq {α β : Type} {change : α → β} {first second : List α} {place : Nat}
    {element : α} (same : first.map change = second.map change)
    (found : first[place]? = some element) :
    ∃ other, second[place]? = some other ∧ change other = change element := by
  have there := congrArg (fun list => list[place]?) same
  simp only [List.getElem?_map, found, Option.map_some] at there
  exact Option.map_eq_some_iff.mp there.symm

theorem exists_first {α : Type} {holds : α → Prop} {list : List α}
    (some : ∃ element ∈ list, holds element) :
    ∃ before element later, list = before ++ element :: later ∧ holds element ∧
      ∀ early ∈ before, ¬ holds early := by
  induction list with
  | nil =>
      obtain ⟨_, member, _⟩ := some
      cases member
  | cons first rest ih =>
      by_cases here : holds first
      · exact ⟨[], first, rest, rfl, here, List.forall_mem_nil _⟩
      · have further : ∃ element ∈ rest, holds element := by
          obtain ⟨element, member, that⟩ := some
          rcases List.mem_cons.mp member with rfl | later
          · exact absurd that here
          · exact ⟨element, later, that⟩
        obtain ⟨before, element, later, rfl, that, early⟩ := ih further
        exact ⟨first :: before, element, later, rfl, that, List.forall_mem_cons.mpr ⟨here, early⟩⟩

theorem openText?_eq_none {leaf : Leaf} (found : forest.leaves[number]? = some leaf)
    (notText : ∀ text, leaf.value ≠ .atom (.text text)) : forest.openText? number = none := by
  simp only [Forest.openText?, found]
  split
  · next same =>
      cases same
      exact absurd rfl (notText _)
  · rfl

/-! ### One errand -/

theorem attend_absent (absent : session.walkers[errand.walker]? = none) :
    session.attend cells errand = session := by
  simp only [attend, absent]

theorem attend_present {walker : Walker} (found : session.walkers[errand.walker]? = some walker) :
    session.attend cells errand =
      ⟨session.walkers.set errand.walker
          (walker.visit cells session.forest errand.node errand.path).1,
        (walker.visit cells session.forest errand.node errand.path).2⟩ := by
  simp only [attend, found]

theorem attend_closed (closed : session.forest.openText? number = none) :
    (session.attend cells errand).forest.leaves[number]? = session.forest.leaves[number]? := by
  cases found : session.walkers[errand.walker]? with
  | none => rw [attend_absent found]
  | some walker =>
      rw [attend_present found]
      exact walker.visit_closed cells errand.node errand.path closed

theorem Orderly.within (orderly : Orderly walkers forest session) {node : Node}
    (within : node.Within forest) : node.Within session.forest := by
  cases node with
  | leaf number => simpa only [Node.Within, orderly.size] using within
  | branch number => simpa only [Node.Within, orderly.branches] using within

theorem Orderly.ordered (orderly : Orderly walkers forest session) (ordered : Ordered forest) :
    Ordered session.forest := by
  intro number branch found node member
  rw [orderly.branches] at found
  have precedes := ordered number branch found node member
  cases node with
  | leaf number => simpa only [Node.Precedes, orderly.size] using precedes
  | branch number => exact precedes

theorem records_set {walker : Walker} {place : Nat} (next : Walker) (later : Forest)
    (found : session.walkers[place]? = some walker) :
    session.records + next.substitutions.length =
      walker.substitutions.length + records ⟨session.walkers.set place next, later⟩ := by
  obtain ⟨inside, same⟩ := List.getElem?_eq_some_iff.mp found
  obtain ⟨before, others, whole, _, changed⟩ := @List.exists_of_set _ place next _ inside
  rw [same] at whole
  simp only [records, changed]
  rw [whole]
  simp only [List.map_append, List.map_cons, List.sum_append, List.sum_cons]
  omega

theorem Orderly.attend (orderly : Orderly walkers forest session) (ordered : Ordered forest)
    (within : errand.node.Within forest) :
    Orderly walkers forest (session.attend cells errand) := by
  cases found : session.walkers[errand.walker]? with
  | none =>
      rw [attend_absent found]
      exact orderly
  | some walker =>
      rw [attend_present found]
      have same := walker.visit_sought cells session.forest errand.node errand.path
      obtain ⟨inside, here⟩ := List.getElem?_eq_some_iff.mp found
      refine ⟨?_, ?_, ?_, ?_, ?_⟩
      · exact (walker.visit_branches cells session.forest errand.node errand.path).trans
          orderly.branches
      · exact (walker.visit_size cells session.forest errand.node errand.path).trans orderly.size
      · rw [← orderly.sought, List.map_set, same, ← here]
        exact List.ext_getElem (by simp) fun place _ _ => by
          simp only [List.getElem_set, List.getElem_map]
          split
          · next same => simp only [same]
          · rfl
      · intro other member
        rcases List.mem_or_eq_of_mem_set member with old | rfl
        · -- Another walker: leaves only close, so it still finds nothing there.
          intro number came branch foundBranch node below
          rw [walker.visit_branches] at foundBranch
          exact (orderly.thorough other old number came branch foundBranch node below).visit rfl
            (List.Subset.refl _)
        · exact (walker.visit_thorough (orderly.ordered ordered) (orderly.within within)
            (orderly.thorough walker (List.mem_of_getElem? found)) cells errand.path).2
      · have made := walker.visit_records cells session.forest errand.node errand.path
        have total := records_set (walker.visit cells session.forest errand.node errand.path).1
          (walker.visit cells session.forest errand.node errand.path).2 found
        have before := orderly.records
        dsimp only
        omega

theorem Orderly.attend_met (orderly : Orderly walkers forest session) (ordered : Ordered forest)
    (within : errand.node.Within forest) {walker : Walker}
    (found : walkers[errand.walker]? = some walker)
    (opened : session.forest.leaves[number]? = some ⟨.atom (.text text), false⟩)
    (meets : Meets walkers forest number text errand) :
    (session.attend cells errand).forest.leaves[number]? =
      some ⟨.atom (.text walker.value), true⟩ := by
  obtain ⟨_, again, below, hit⟩ := meets
  rw [found] at again
  cases again
  obtain ⟨present, there, same⟩ := exists_of_map_eq orderly.sought.symm found
  have value : present.value = walker.value := congrArg (fun sought => sought.2.2) same
  have hit' : present.form.occurs present.key.toList text.toList = true := by
    rw [← Walker.matchesText_congr same] at hit
    exact hit
  rw [attend_present there]
  have touches := present.visit_touches (orderly.ordered ordered) (orderly.within within)
    (orderly.thorough present (List.mem_of_getElem? there)) cells errand.path
    ((below_congr orderly.branches).mpr below)
  rw [touches, opened]
  simp [touched, hit', value]

theorem Orderly.attend_unmet (orderly : Orderly walkers forest session)
    (opened : session.forest.leaves[number]? = some ⟨.atom (.text text), false⟩)
    (misses : ¬ Meets walkers forest number text errand) :
    (session.attend cells errand).forest.leaves[number]? = some ⟨.atom (.text text), false⟩ := by
  cases there : session.walkers[errand.walker]? with
  | none =>
      rw [attend_absent there]
      exact opened
  | some present =>
      rw [attend_present there]
      obtain ⟨walker, found, same⟩ := exists_of_map_eq orderly.sought there
      by_cases below : Below forest errand.node number
      · have missed : present.form.occurs present.key.toList text.toList = false := by
          by_contra hit
          refine misses ⟨walker, found, below, ?_⟩
          rw [Walker.matchesText_congr same]
          exact Bool.of_not_eq_false hit
        show (present.visit cells session.forest errand.node errand.path).2.leaves[number]? = _
        rw [present.visit_leaf, opened]
        simp [touched, missed]
      · show (present.visit cells session.forest errand.node errand.path).2.leaves[number]? = _
        rw [present.visit_apart cells errand.path (mt (below_congr orderly.branches).mp below), opened]

theorem Orderly.attend_settled (orderly : Orderly walkers forest session) (ordered : Ordered forest)
    (within : errand.node.Within forest) : (session.attend cells errand).Settled errand := by
  intro next found
  cases there : session.walkers[errand.walker]? with
  | none =>
      rw [attend_absent there, there] at found
      cases found
  | some present =>
      have inside := (List.getElem?_eq_some_iff.mp there).1
      rw [attend_present there] at found ⊢
      rw [List.getElem?_set_self inside] at found
      cases found
      exact (present.visit_thorough (orderly.ordered ordered) (orderly.within within)
        (orderly.thorough present (List.mem_of_getElem? there)) cells errand.path).1

theorem Orderly.settled (orderly : Orderly walkers forest session) (ordered : Ordered forest)
    (within : errand.node.Within forest) {early : Errand} (settled : session.Settled early) :
    (session.attend cells errand).Settled early := by
  cases there : session.walkers[errand.walker]? with
  | none =>
      rw [attend_absent there]
      exact settled
  | some present =>
      rw [attend_present there]
      intro next found
      dsimp only at found
      rw [List.getElem?_set] at found
      split at found
      · next same =>
          split at found
          · cases found
            refine (settled present (same ▸ there)).visit
              (present.visit_sought cells session.forest errand.node errand.path) ?_
            exact present.visit_keeps (orderly.ordered ordered) (orderly.within within) cells
              errand.path
          · cases found
      · exact (settled next found).visit rfl (List.Subset.refl _)

theorem Orderly.attend_again (orderly : Orderly walkers forest session)
    (settled : session.Settled errand) {inner : Node}
    (leads : session.forest.Leads errand.node inner) (path : Text) :
    session.attend cells ⟨errand.walker, inner, path⟩ = session := by
  cases there : session.walkers[errand.walker]? with
  | none => exact attend_absent there
  | some present =>
      have done := (orderly.thorough present (List.mem_of_getElem? there)).leads
        (settled present there) leads
      obtain ⟨inside, same⟩ := List.getElem?_eq_some_iff.mp there
      have present' : session.attend cells ⟨errand.walker, inner, path⟩ = _ := attend_present there
      rw [present', Walker.visit_done done, ← same, List.set_getElem_self]

/-! ### Any errands -/

theorem attendAll_append (session : Session) (before later : List Errand) :
    session.attendAll cells (before ++ later) =
      (session.attendAll cells before).attendAll cells later := List.foldl_append

theorem attendAll_closed (errands : List Errand) (closed : session.forest.openText? number = none) :
    (session.attendAll cells errands).forest.leaves[number]? = session.forest.leaves[number]? := by
  induction errands generalizing session with
  | nil => rfl
  | cons errand rest ih =>
      have kept : (session.attend cells errand).forest.leaves[number]? =
          session.forest.leaves[number]? := attend_closed closed
      have closed' : (session.attend cells errand).forest.openText? number = none := by
        simpa only [Forest.openText?, kept] using closed
      exact (ih closed').trans kept

section Run

variable (cells) (orderly : Orderly walkers forest session) (ordered : Ordered forest)
  (within : ∀ errand ∈ errands, errand.node.Within forest)

include orderly ordered within

theorem attendAll_orderly : Orderly walkers forest (session.attendAll cells errands) := by
  induction errands generalizing session with
  | nil => exact orderly
  | cons errand rest ih =>
      obtain ⟨here, later⟩ := List.forall_mem_cons.mp within
      exact ih (orderly.attend ordered here) later

theorem attendAll_unmet (opened : session.forest.leaves[number]? = some ⟨.atom (.text text), false⟩)
    (misses : ∀ errand ∈ errands, ¬ Meets walkers forest number text errand) :
    (session.attendAll cells errands).forest.leaves[number]? =
      some ⟨.atom (.text text), false⟩ := by
  induction errands generalizing session with
  | nil => exact opened
  | cons errand rest ih =>
      obtain ⟨here, later⟩ := List.forall_mem_cons.mp within
      obtain ⟨missed, misses⟩ := List.forall_mem_cons.mp misses
      exact ih (orderly.attend ordered here) later (orderly.attend_unmet opened missed) misses

theorem attendAll_settled {early : Errand} (settled : session.Settled early) :
    (session.attendAll cells errands).Settled early := by
  induction errands generalizing session with
  | nil => exact settled
  | cons errand rest ih =>
      obtain ⟨here, later⟩ := List.forall_mem_cons.mp within
      exact ih (orderly.attend ordered here) later (orderly.settled ordered here settled)

theorem attendAll_settles (member : errand ∈ errands) :
    (session.attendAll cells errands).Settled errand := by
  induction errands generalizing session with
  | nil => cases member
  | cons first rest ih =>
      obtain ⟨here, later⟩ := List.forall_mem_cons.mp within
      have orderly' : Orderly walkers forest (session.attend cells first) :=
        orderly.attend ordered here
      rcases List.mem_cons.mp member with rfl | further
      · exact attendAll_settled cells orderly' ordered later (orderly.attend_settled ordered here)
      · exact ih orderly' later further

end Run

/-- The first errand that meets a leaf settles what the leaf holds. -/
theorem attendAll_met {before later : List Errand} {walker : Walker}
    (orderly : Orderly walkers forest session) (ordered : Ordered forest)
    (within : ∀ other ∈ before ++ errand :: later, other.node.Within forest)
    (opened : session.forest.leaves[number]? = some ⟨.atom (.text text), false⟩)
    (misses : ∀ early ∈ before, ¬ Meets walkers forest number text early)
    (meets : Meets walkers forest number text errand)
    (found : walkers[errand.walker]? = some walker) :
    (session.attendAll cells (before ++ errand :: later)).forest.leaves[number]? =
      some ⟨.atom (.text walker.value), true⟩ := by
  obtain ⟨early, others⟩ := List.forall_mem_append.mp within
  obtain ⟨here, -⟩ := List.forall_mem_cons.mp others
  have orderly' := attendAll_orderly cells orderly ordered early
  have still := attendAll_unmet cells orderly ordered early opened misses
  have taken : ((session.attendAll cells before).attend cells errand).forest.leaves[number]? =
      some ⟨.atom (.text walker.value), true⟩ := orderly'.attend_met ordered here found still meets
  rw [attendAll_append]
  refine (attendAll_closed later ?_).trans taken
  simp only [Forest.openText?, taken]

theorem attendAll_leaf {value : Value} (orderly : Orderly walkers forest session)
    (ordered : Ordered forest) (within : ∀ errand ∈ errands, errand.node.Within forest)
    (found : session.forest.leaves[number]? = some ⟨value, false⟩) :
    (session.attendAll cells errands).forest.leaves[number]? = some ⟨value, false⟩ ∨
      ∃ text, value = .atom (.text text) ∧ ∃ walker ∈ walkers, walker.matchesText text = true ∧
        (session.attendAll cells errands).forest.leaves[number]? =
          some ⟨.atom (.text walker.value), true⟩ := by
  by_cases isText : ∃ text, value = .atom (.text text)
  · obtain ⟨text, rfl⟩ := isText
    by_cases meets : ∃ errand ∈ errands, Meets walkers forest number text errand
    · obtain ⟨before, errand, later, rfl, here, misses⟩ := exists_first meets
      obtain ⟨walker, present, below, hit⟩ := here
      exact .inr ⟨text, rfl, walker, List.mem_of_getElem? present, hit,
        attendAll_met orderly ordered within found misses ⟨walker, present, below, hit⟩ present⟩
    · exact .inl (attendAll_unmet cells orderly ordered within found
        fun errand member here => meets ⟨errand, member, here⟩)
  · have closed := openText?_eq_none found fun text same => isText ⟨text, same⟩
    exact .inl ((attendAll_closed errands closed).trans found)

theorem orderly_start (fresh : ∀ walker ∈ walkers, walker = .new walker.key walker.form walker.value)
    (unsubstituted : ∀ leaf ∈ forest.leaves, leaf.substituted = false) :
    Orderly walkers forest ⟨walkers, forest⟩ := by
  refine ⟨rfl, rfl, rfl, fun walker member number came => ?_, ?_⟩
  · rw [fresh walker member] at came
    cases came
  · rw [replaced_of_unsubstituted unsubstituted, records]
    refine List.sum_eq_zero_iff_forall_eq_nat.mpr fun made member => ?_
    obtain ⟨walker, inside, rfl⟩ := List.mem_map.mp member
    rw [fresh walker inside]
    rfl

/-- Walkers are sent over trees that have been planted, each as often as one likes, in any order and
to any nodes. The trees keep their shape, and a leaf that holds no text stays. A text leaf takes the
value of the walker of the first errand that comes to it with a placeholder in its first text; then
it is marked, and it stays as it is. There are as many records as marked leaves, and a walker that
comes again to where it has been, or below, changes nothing and records nothing. -/
theorem attendAll_replaces_once (sown : Sown cells forest)
    (fresh : ∀ walker ∈ walkers, walker = .new walker.key walker.form walker.value)
    (within : ∀ errand ∈ errands, errand.node.Within forest) :
    Outcome cells walkers errands forest (attendAll cells ⟨walkers, forest⟩ errands) := by
  have unsubstituted : ∀ (number : Nat) (leaf : Leaf), forest.leaves[number]? = some leaf →
      leaf.substituted = false := fun _ leaf found =>
    sown.unsubstituted leaf (Array.mem_of_getElem? found)
  have ordered := sown.ordered
  have start := orderly_start fresh sown.unsubstituted
  have orderly := attendAll_orderly cells start ordered within
  refine ⟨orderly.branches, orderly.size, unsubstituted, ?_, ?_, ?_, ?_, orderly.records, ?_⟩
  · intro number leaf found notText
    exact (attendAll_closed errands (openText?_eq_none found notText)).trans found
  · rintro number ⟨_, marked⟩ text found rfl misses
    cases unsubstituted number _ found
    exact attendAll_unmet cells start ordered within found misses
  · rintro number ⟨_, marked⟩ text found rfl before errand later walker rfl misses meets present
    cases unsubstituted number _ found
    exact attendAll_met start ordered within found misses meets present
  · rintro number ⟨value, marked⟩ found rfl more
    refine (attendAll_closed more ?_).trans found
    simp only [Forest.openText?, found]
  · intro errand member inner leads path
    exact orderly.attend_again (attendAll_settles cells start ordered within member) leads path

/-- Two walkers in turn at a list that holds one mapping twice. -/
theorem attendAll_shared_mapping :
    let cells : Array Cell := #[.list [.atom (.text "$A"), .cell 1, .cell 1],
      .mapping [(.atom (.text "k"), .atom (.text "$A $\x7bB\x7d"))]]
    let forest : Forest :=
      ⟨#[.mapping [(.atom (.text "k"), .leaf 1)], .sequence [.leaf 0, .branch 0, .branch 0]],
        #[⟨.atom (.text "$A"), false⟩, ⟨.atom (.text "$A $\x7bB\x7d"), false⟩]⟩
    let walkers := [Walker.new "A" .bare "one", Walker.new "B" .braced "$A"]
    let errands : List Errand :=
      [⟨1, .branch 0, "k"⟩, ⟨0, .branch 1, "$"⟩, ⟨0, .branch 0, "k"⟩, ⟨1, .branch 1, "$"⟩]
    Outcome cells walkers errands forest (attendAll cells ⟨walkers, forest⟩ errands) ∧
      (attendAll cells ⟨walkers, forest⟩ errands).forest.leaves =
        #[⟨.atom (.text "one"), true⟩, ⟨.atom (.text "$A"), true⟩] := by
  intro cells forest walkers errands
  have planted : Forest.empty.plant cells (.cell 0) "$" = .ok (.branch 1, forest) := rfl
  have sown : Sown cells forest := .plant .empty planted
  exact ⟨attendAll_replaces_once sown (by decide) (by decide), by decide⟩

end Session

end SecretFill
