import SecretFill.Proofs.Forest.Coverage
/-!
What the passes of all keys do to the leaves of a forest. A pass of one key in one form touches
every leaf that it comes to (`touched`), and never a branch; after all passes a leaf holds the
value of the first key with a placeholder in its first text (`settled`), because a leaf that was
replaced is closed to later passes.
-/

namespace SecretFill

open SecretFill.Data SecretFill.Forest
open Placeholder (Form)

def touched (form : Form) (key value : Text) (leaf : Leaf) : Leaf :=
  match leaf with
  | ⟨.atom (.text text), false⟩ =>
      if form.occurs key.toList text.toList then ⟨.atom (.text value), true⟩ else leaf
  | _ => leaf

def settled (entries : List (Text × Text)) (leaf : Leaf) : Leaf :=
  match leaf with
  | ⟨.atom (.text text), false⟩ =>
      match entries.find? fun entry => Placeholder.occurs entry.1.toList text.toList with
      | some entry => ⟨.atom (.text entry.2), true⟩
      | none => leaf
  | _ => leaf

theorem touched_eq_or (form : Form) (key value : Text) (leaf : Leaf) :
    touched form key value leaf = leaf ∨
      touched form key value leaf = ⟨.atom (.text value), true⟩ := by
  unfold touched
  split
  · split
    · exact .inr rfl
    · exact .inl rfl
  · exact .inl rfl

theorem touched_twice (form : Form) (key value : Text) (leaf : Leaf) :
    touched form key value (touched form key value leaf) = touched form key value leaf := by
  rcases touched_eq_or form key value leaf with same | replaced
  · rw [same, same]
  · rw [replaced]
    rfl

theorem openText?_eq_some {forest : Forest} {number : Nat} {text : Text}
    (opened : forest.openText? number = some text) :
    forest.leaves[number]? = some ⟨.atom (.text text), false⟩ := by
  unfold openText? at opened
  split at opened
  · next found =>
      cases opened
      exact found
  · cases opened

theorem touched_closed {forest : Forest} {number : Nat} (closed : forest.openText? number = none)
    (form : Form) (key value : Text) :
    forest.leaves[number]?.map (touched form key value) = forest.leaves[number]? := by
  cases found : forest.leaves[number]? with
  | none => rfl
  | some leaf =>
      refine congrArg some ?_
      unfold touched
      split
      · simp [openText?, found] at closed
      · rfl

namespace Walker

theorem visitPlace_branches (state : Walker × Forest) (place : Forest.Place) :
    (visitPlace state place).2.branches = state.2.branches := by
  obtain ⟨walker, forest⟩ := state
  simp only [visitPlace]
  split
  · rfl
  · split <;> rfl

theorem visitPlace_walker (state : Walker × Forest) (place : Forest.Place) :
    (visitPlace state place).1.key = state.1.key ∧ (visitPlace state place).1.form = state.1.form ∧
      (visitPlace state place).1.value = state.1.value ∧
      (visitPlace state place).1.visited = state.1.visited := by
  obtain ⟨walker, forest⟩ := state
  simp only [visitPlace]
  split
  · exact ⟨rfl, rfl, rfl, rfl⟩
  · split <;> exact ⟨rfl, rfl, rfl, rfl⟩

theorem visitPlace_leaf (walker : Walker) (forest : Forest) (place : Forest.Place) (number : Nat) :
    (visitPlace (walker, forest) place).2.leaves[number]? =
      if number = place.leaf then
        forest.leaves[number]?.map (touched walker.form walker.key walker.value)
      else forest.leaves[number]? := by
  unfold visitPlace
  dsimp only
  -- A leaf that is closed or no text stays, whatever the walker looks for.
  split
  · next closed =>
      split
      · next same =>
          subst same
          exact (touched_closed closed _ _ _).symm
      · rfl
  · next text opened =>
      have found := openText?_eq_some opened
      have inside := (Array.getElem?_eq_some_iff.mp found).1
      by_cases same : number = place.leaf
      · subst same
        by_cases hit : walker.matchesText text = true
        · have replaced : touched walker.form walker.key walker.value ⟨.atom (.text text), false⟩ =
              ⟨.atom (.text walker.value), true⟩ := if_pos hit
          rw [if_pos hit, if_pos rfl, found, Option.map_some, replaced]
          simp only [Forest.substitute]
          rw [Array.getElem?_setIfInBounds_self_of_lt inside]
        · have kept : touched walker.form walker.key walker.value ⟨.atom (.text text), false⟩ =
              ⟨.atom (.text text), false⟩ := if_neg hit
          rw [if_neg hit, if_pos rfl, found, Option.map_some, kept]
      · by_cases hit : walker.matchesText text = true
        · simp [hit, same, Forest.substitute, Ne.symm same]
        · simp [hit, same]

theorem visitPlaces_branches (places : List Forest.Place) (state : Walker × Forest) :
    (places.foldl visitPlace state).2.branches = state.2.branches := by
  induction places generalizing state with
  | nil => rfl
  | cons place rest ih =>
      rw [List.foldl_cons, ih, visitPlace_branches]

theorem visitPlaces_leaf (places : List Forest.Place) (walker : Walker) (forest : Forest)
    (number : Nat) :
    (places.foldl visitPlace (walker, forest)).2.leaves[number]? =
      if number ∈ places.map Forest.Place.leaf then
        forest.leaves[number]?.map (touched walker.form walker.key walker.value)
      else forest.leaves[number]? := by
  induction places generalizing walker forest with
  | nil => simp
  | cons place rest ih =>
      obtain ⟨key, form, value, _⟩ := visitPlace_walker (walker, forest) place
      have first := visitPlace_leaf walker forest place number
      rw [List.foldl_cons, show visitPlace (walker, forest) place =
        ((visitPlace (walker, forest) place).1, (visitPlace (walker, forest) place).2) from rfl, ih,
        key, form, value, first]
      by_cases here : number = place.leaf <;> by_cases later : number ∈ rest.map Forest.Place.leaf <;>
        simp [here, later, Function.comp_def, touched_twice]

/-- A walker that has been at some branches. -/
def having (walker : Walker) (visited : List Nat) : Walker := { walker with visited := visited }

theorem having_having (walker : Walker) (early late : List Nat) :
    (walker.having early).having late = walker.having late := rfl

theorem visitPlace_having (walker : Walker) (forest : Forest) (place : Forest.Place)
    (visited : List Nat) :
    visitPlace (walker.having visited, forest) place =
      ((visitPlace (walker, forest) place).1.having visited, (visitPlace (walker, forest) place).2) := by
  simp only [visitPlace]
  split
  · rfl
  · next text _ =>
      by_cases hit : walker.matchesText text = true
      · have hitThere : (walker.having visited).matchesText text = true := hit
        rw [if_pos hit, if_pos hitThere]
        rfl
      · have missThere : ¬ (walker.having visited).matchesText text = true := hit
        rw [if_neg hit, if_neg missThere]

/-- Where a walker has been decides which places it comes to, and not what it does there. -/
theorem visitPlaces_having (places : List Forest.Place) (walker : Walker) (forest : Forest)
    (visited : List Nat) :
    places.foldl visitPlace (walker.having visited, forest) =
      ((places.foldl visitPlace (walker, forest)).1.having visited,
        (places.foldl visitPlace (walker, forest)).2) := by
  induction places generalizing walker forest with
  | nil => rfl
  | cons place rest ih =>
      rw [List.foldl_cons, visitPlace_having, ih]
      rfl

theorem visitAll_eq (cells : Array Cell) (plots : List Plot) (walker : Walker) (forest : Forest) :
    visitAll cells plots (walker, forest) =
      (route forest cells plots walker.visited).1.foldl visitPlace
        (walker.having (route forest cells plots walker.visited).2, forest) := by
  induction plots generalizing walker forest with
  | nil => rfl
  | cons plot rest ih =>
      let here := forest.places cells walker.visited plot.node plot.path
      let onward := route forest cells rest here.2
      let after := here.1.foldl visitPlace (walker, forest)
      have visit : walker.visit cells forest plot.node plot.path = (after.1.having here.2, after.2) :=
        visitPlaces_having here.1 walker forest here.2
      have kept : after.2.branches = forest.branches := visitPlaces_branches here.1 (walker, forest)
      have same : route after.2 cells rest here.2 = onward := route_congr kept cells rest here.2
      calc visitAll cells (plot :: rest) (walker, forest)
          = visitAll cells rest (after.1.having here.2, after.2) := by
            rw [← visit]
            rfl
        _ = onward.1.foldl visitPlace ((after.1.having here.2).having onward.2, after.2) := by
            rw [ih, ← same]
            rfl
        _ = (here.1 ++ onward.1).foldl visitPlace (walker.having onward.2, forest) := by
            rw [List.foldl_append, visitPlaces_having here.1, having_having]

end Walker

/-! ### Passes -/

theorem applyForm_branches (cells : Array Cell) (plots : List Plot) (key value : Text)
    (state : List Substitution × Forest) (form : Form) :
    (applyForm cells plots key value state form).2.branches = state.2.branches := by
  simp only [applyForm]
  rw [Walker.visitAll_eq, Walker.visitPlaces_branches]

theorem applyForm_leaf (cells : Array Cell) (plots : List Plot) (key value : Text)
    (state : List Substitution × Forest) (form : Form) (number : Nat) :
    (applyForm cells plots key value state form).2.leaves[number]? =
      if number ∈ (route state.2 cells plots []).1.map Forest.Place.leaf then
        state.2.leaves[number]?.map (touched form key value)
      else state.2.leaves[number]? := by
  simp only [applyForm]
  rw [Walker.visitAll_eq, Walker.visitPlaces_leaf]
  rfl

def touchedByKey (entry : Text × Text) (leaf : Leaf) : Leaf :=
  touched .bare entry.1 entry.2 (touched .braced entry.1 entry.2 leaf)

theorem applyKey_branches (cells : Array Cell) (plots : List Plot)
    (state : List Substitution × Forest) (entry : Text × Text) :
    (applyKey cells plots state entry).2.branches = state.2.branches := by
  simp only [applyKey, List.foldl_cons, List.foldl_nil]
  rw [applyForm_branches, applyForm_branches]

theorem applyKey_leaf (cells : Array Cell) (plots : List Plot)
    (state : List Substitution × Forest) (entry : Text × Text) {number : Nat}
    (onRoute : number ∈ (route state.2 cells plots []).1.map Forest.Place.leaf) :
    (applyKey cells plots state entry).2.leaves[number]? =
      state.2.leaves[number]?.map (touchedByKey entry) := by
  have kept := applyForm_branches cells plots entry.1 entry.2 state .braced
  have same := route_congr kept cells plots []
  simp only [applyKey, List.foldl_cons, List.foldl_nil]
  rw [applyForm_leaf, same, if_pos onRoute, applyForm_leaf, if_pos onRoute, Option.map_map]
  rfl

theorem settled_cons (entry : Text × Text) (rest : List (Text × Text)) (leaf : Leaf) :
    settled rest (touchedByKey entry leaf) = settled (entry :: rest) leaf := by
  by_cases opened : ∃ text, leaf = ⟨.atom (.text text), false⟩
  · obtain ⟨text, rfl⟩ := opened
    by_cases braced : Form.braced.occurs entry.1.toList text.toList = true
    · simp [touchedByKey, touched, settled, Placeholder.occurs, braced]
    · by_cases bare : Form.bare.occurs entry.1.toList text.toList = true
      · simp [touchedByKey, touched, settled, Placeholder.occurs, braced, bare]
      · simp [touchedByKey, touched, settled, Placeholder.occurs, braced, bare]
  · have closed : ∀ text, leaf = ⟨.atom (.text text), false⟩ → False :=
      fun text same => opened ⟨text, same⟩
    have untouched : touchedByKey entry leaf = leaf := by
      simp only [touchedByKey, touched]
    rw [untouched]
    simp only [settled]

theorem applyKeys_branches (cells : Array Cell) (plots : List Plot)
    (entries : List (Text × Text)) (state : List Substitution × Forest) :
    (entries.foldl (applyKey cells plots) state).2.branches = state.2.branches := by
  induction entries generalizing state with
  | nil => rfl
  | cons entry rest ih => rw [List.foldl_cons, ih, applyKey_branches]

/-- After the passes of all keys a leaf on the route holds what the first key that has a
placeholder in its text says. -/
theorem applyKeys_leaf (cells : Array Cell) (plots : List Plot)
    (entries : List (Text × Text)) (state : List Substitution × Forest) {number : Nat}
    (onRoute : number ∈ (route state.2 cells plots []).1.map Forest.Place.leaf) :
    (entries.foldl (applyKey cells plots) state).2.leaves[number]? =
      state.2.leaves[number]?.map (settled entries) := by
  induction entries generalizing state with
  | nil =>
      have same : settled [] = id := by
        funext leaf
        simp only [settled, List.find?_nil, id]
        split <;> rfl
      simp [same]
  | cons entry rest ih =>
      have kept := route_congr (applyKey_branches cells plots state entry) cells plots []
      rw [List.foldl_cons, ih _ (by rw [kept]; exact onRoute), applyKey_leaf cells plots state entry
        onRoute, Option.map_map]
      congr 1
      funext leaf
      exact settled_cons entry rest leaf

end SecretFill
