import Mathlib.Algebra.Group.Int.Defs
import SecretFill.Forest.Visit
import SecretFill.Interpolation
import SecretFill.Proofs.Forest.Parts
/-!
Cycles. Planting walks through a document depth first and from left to right, and never goes again
into a container that it has finished. It refuses exactly the documents that lead back to themselves
and those with a key that has no text, and of all routes with such a fault it reports the first.
-/

namespace SecretFill.Forest

open Relation
open SecretFill.Data

variable {cells : Array Cell} {ancestors : List Nat} {value part : Value} {path : Text}
  {growth middle after : Growth} {error : PlantError}

def Returns (cells : Array Cell) (root : Value) (path : Text) (route : List Nat)
    (closing : Text) : Prop :=
  ∃ index before earlier, before <+: route ∧ before ≠ route ∧
    follow cells root path before = some (.cell index, earlier) ∧
    follow cells root path route = some (.cell index, closing)

def Nameless (cells : Array Cell) (root : Value) (path : Text) (route : List Nat) : Prop :=
  ∃ before place index cell here part, route = before ++ [place] ∧
    follow cells root path before = some (.cell index, here) ∧ cells[index]? = some cell ∧
    (cell.steps cells here)[place]? = some (part, none)

def Stops (cells : Array Cell) (root : Value) (path : Text) (route : List Nat) :
    PlantError → Prop
  | .cycle closing => Returns cells root path route closing
  | .unnamed => Nameless cells root path route

/-- A route goes into no container that was finished before: none of the given ones, and none to
which a route further to the left leads. -/
def Unfinished (cells : Array Cell) (finished : List Nat) (root : Value) (path : Text)
    (route : List Nat) : Prop :=
  ∀ before index here, before <+: route → before ≠ route →
    follow cells root path before = some (.cell index, here) → IsContainer cells index →
      index ∉ finished ∧ ∀ earlier there, LeftOf earlier before →
        follow cells root path earlier ≠ some (.cell index, there)

/-- Of all routes that stop a walk, this is the one to which the walk comes first. -/
structure First (cells : Array Cell) (root : Value) (path : Text) (route : List Nat) : Prop where
  least : ∀ other error, Stops cells root path other error → route <+: other ∨ LeftOf route other
  unfinished : Unfinished cells [] root path route

/-- Planting as a visit: it comes to the root of the tree, or fails where a cycle closes. When a key
has no text the fault of writing it is all that comes of it. -/
def visitOf : Except PlantError (Node × Forest) → Except Decimal.NumberFault (Visit Node)
  | .ok (node, _) => .ok (.success node none none)
  | .error (.cycle path) => .ok (.failed cycleProblem path)
  | .error .unnamed => .error .tooManyDigitsWritten

inductive Fault (cells : Array Cell) :
    List Nat → Value → Text → List Nat → PlantError → Prop
  | back {ancestors : List Nat} {index : Nat} {path : Text} (container : IsContainer cells index)
      (again : index ∈ ancestors) : Fault cells ancestors (.cell index) path [] (.cycle path)
  | nameless {ancestors : List Nat} {index place : Nat} {path : Text} {cell : Cell} {part : Value}
      (found : cells[index]? = some cell)
      (step : (cell.steps cells path)[place]? = some (part, none)) :
      Fault cells ancestors (.cell index) path [place] .unnamed
  | inside {ancestors : List Nat} {index place : Nat} {path deeper : Text} {cell : Cell}
      {part : Value} {route : List Nat} {error : PlantError} (found : cells[index]? = some cell)
      (step : (cell.steps cells path)[place]? = some (part, some deeper))
      (below : Fault cells (index :: ancestors) part deeper route error) :
      Fault cells ancestors (.cell index) path (place :: route) error

/-! ### Faults and routes -/

theorem fault_cycle_iff {route : List Nat} {closing : Text} :
    Fault cells ancestors value path route (.cycle closing) ↔
      ∃ index, IsContainer cells index ∧
        follow cells value path route = some (.cell index, closing) ∧
        (index ∈ ancestors ∨ ∃ before earlier, before <+: route ∧ before ≠ route ∧
          follow cells value path before = some (.cell index, earlier)) := by
  constructor
  · intro fault
    generalize same : PlantError.cycle closing = error at fault
    induction fault with
    | back container again =>
        cases same
        exact ⟨_, container, rfl, .inl again⟩
    | nameless => cases same
    | @inside ancestors outer place path _ _ _ route _ found step _ ih =>
        obtain ⟨index, container, followed, earlier⟩ := ih same
        refine ⟨index, container, (follow_cons found step route).trans followed, ?_⟩
        -- Above a part is its container, through which the route goes, or what is above that.
        rcases earlier with again | ⟨before, there, shorter, differs, followed⟩
        · rcases List.mem_cons.mp again with rfl | above
          · exact .inr ⟨[], path, List.nil_prefix, (List.cons_ne_nil _ _).symm, rfl⟩
          · exact .inl above
        · refine .inr ⟨place :: before, there, List.cons_prefix_cons.mpr ⟨rfl, shorter⟩, ?_, ?_⟩
          · exact fun same => differs (List.cons.inj same).2
          · exact (follow_cons found step before).trans followed
  · rintro ⟨index, container, followed, earlier⟩
    -- On the way down, what the route has passed comes to be what is above.
    induction route generalizing ancestors value path with
    | nil =>
        cases followed
        rcases earlier with again | ⟨before, _, shorter, differs, _⟩
        · exact .back container again
        · exact absurd (List.prefix_nil.mp shorter) differs
    | cons place route ih =>
        obtain ⟨outer, cell, part, deeper, rfl, found, step, onward⟩ := follow_cons_eq_some followed
        refine .inside found step (ih onward ?_)
        rcases earlier with again | ⟨before, there, shorter, differs, back⟩
        · exact .inl (List.mem_cons_of_mem _ again)
        · cases before with
          | nil =>
              cases back
              exact .inl List.mem_cons_self
          | cons first before =>
              obtain ⟨rfl, shorter'⟩ := List.cons_prefix_cons.mp shorter
              rw [follow_cons found step] at back
              exact .inr ⟨before, there, shorter', fun same => differs (by rw [same]), back⟩

theorem fault_unnamed_iff {route : List Nat} :
    Fault cells ancestors value path route .unnamed ↔ Nameless cells value path route := by
  constructor
  · intro fault
    generalize same : PlantError.unnamed = error at fault
    induction fault with
    | back => cases same
    | @nameless _ index place path cell part found step =>
        exact ⟨[], place, index, cell, path, part, rfl, rfl, found, step⟩
    | @inside _ _ place _ _ _ _ _ _ found step _ ih =>
        obtain ⟨before, last, index, cell, here, part, rfl, followed, rest⟩ := ih same
        exact ⟨place :: before, last, index, cell, here, part, rfl,
          (follow_cons found step before).trans followed, rest⟩
  · rintro ⟨before, place, index, cell, here, part, rfl, followed, found, step⟩
    induction before generalizing ancestors value path with
    | nil =>
        cases followed
        exact .nameless found step
    | cons first before ih =>
        obtain ⟨outer, _, _, _, rfl, found', step', onward⟩ := follow_cons_eq_some followed
        exact .inside found' step' (ih onward)

theorem isContainer_of_follow {root goal : Value} {index : Nat} {earlier closing : Text}
    {before route : List Nat} (shorter : before <+: route) (differs : before ≠ route)
    (there : follow cells root path before = some (.cell index, earlier))
    (followed : follow cells root path route = some (goal, closing)) : IsContainer cells index := by
  obtain ⟨rest, rfl⟩ := shorter
  rw [follow_append there] at followed
  have onward : rest ≠ [] := fun none => differs (by rw [none, List.append_nil])
  obtain ⟨part, inside, -⟩ := TransGen.head'_iff.mp (below_of_follow onward followed)
  obtain ⟨_, same, container⟩ := isContainer_of_part inside
  cases same
  exact container

theorem fault_iff_stops {route : List Nat} :
    Fault cells [] value path route error ↔ Stops cells value path route error := by
  cases error with
  | unnamed => exact fault_unnamed_iff
  | cycle closing =>
      rw [fault_cycle_iff]
      constructor
      · rintro ⟨index, -, followed, none | ⟨before, earlier, shorter, differs, back⟩⟩
        · cases none
        · exact ⟨index, before, earlier, shorter, differs, back, followed⟩
      · rintro ⟨index, before, earlier, shorter, differs, back, followed⟩
        exact ⟨index, isContainer_of_follow shorter differs back followed, followed,
          .inr ⟨before, earlier, shorter, differs, back⟩⟩

theorem cyclic_of_returns {route : List Nat} {closing : Text}
    (returns : Returns cells value path route closing) : Cyclic cells value := by
  obtain ⟨index, before, earlier, ⟨rest, rfl⟩, differs, there, followed⟩ := returns
  rw [follow_append there] at followed
  have onward : rest ≠ [] := fun none => differs (by rw [none, List.append_nil])
  exact ⟨.cell index, reaches_of_follow there, below_of_follow onward followed⟩

theorem not_named_of_nameless {route : List Nat} (nameless : Nameless cells value path route) :
    ¬ Named cells value := by
  obtain ⟨before, place, index, cell, here, part, rfl, there, found, step⟩ := nameless
  intro named
  obtain ⟨key, member, unnamed⟩ := pathless_iff.mp ⟨part, List.mem_of_getElem? step⟩
  rw [named _ cell (reaches_of_follow there) found key member] at unnamed
  cases unnamed

theorem Fault.unique {route : List Nat} {other : PlantError}
    (fault : Fault cells ancestors value path route error)
    (fault' : Fault cells ancestors value path route other) : error = other := by
  induction fault with
  | back =>
      cases fault'
      rfl
  | nameless found step =>
      cases fault' with
      | nameless => rfl
      | inside found' step' below =>
          rw [found] at found'
          cases found'
          rw [step] at step'
          cases step'
  | inside found step below ih =>
      cases fault' with
      | nameless found' step' =>
          rw [found] at found'
          cases found'
          rw [step] at step'
          cases step'
      | inside found' step' below' =>
          rw [found] at found'
          cases found'
          rw [step] at step'
          cases step'
          exact ih below'

/-! ### What has been finished -/

structure Cleared (cells : Array Cell) (growth : Growth) (value : Value) : Prop where
  grounded : Grounded cells value
  named : Named cells value
  covered : ∀ index, Reaches cells value (.cell index) → IsContainer cells index →
    index ∈ growth.done

/-- Finished containers are clear, and none of them is on the way. -/
structure Growth.Settled (cells : Array Cell) (ancestors : List Nat) (growth : Growth) : Prop where
  cleared : ∀ index ∈ growth.done, Cleared cells growth (.cell index)
  apart : ∀ index ∈ growth.done, index ∉ ancestors

theorem Cleared.mono (cleared : Cleared cells growth value) (more : growth.done ⊆ after.done) :
    Cleared cells after value :=
  ⟨cleared.grounded, cleared.named, fun index reaches container =>
    more (cleared.covered index reaches container)⟩

theorem cleared_leaf (growth : Growth)
    (simple : ∀ index, value = .cell index → ¬ IsContainer cells index) :
    Cleared cells growth value := by
  constructor
  · exact .intro value fun part inside => absurd inside (not_inside_of_simple simple part)
  · intro inner cell reaches found key member
    rw [Reaches.eq_of_simple simple reaches] at found
    cases value with
    | atom atom => cases found
    | cell index =>
        cases cell with
        | mapping entries => exact absurd ⟨_, found, rfl⟩ (simple index rfl)
        | _ => cases member
  · intro index reaches container
    exact absurd container (simple index (Reaches.eq_of_simple simple reaches).symm)

theorem cleared_container {index : Nat} {cell : Cell} (found : cells[index]? = some cell)
    (labelled : ∀ step ∈ cell.steps cells path, step.2 ≠ none)
    (below : ∀ part ∈ cell.parts, Cleared cells growth part) (finished : index ∈ growth.done) :
    Cleared cells growth (.cell index) := by
  have parts : ∀ part, Inside cells (.cell index) part → Cleared cells growth part := by
    rintro part ⟨_, again, member⟩
    cases again.symm.trans found
    exact below part member
  constructor
  · exact .intro _ fun part inside => (parts part inside).grounded
  · intro inner other reaches found' key member
    -- What is reached is the container itself or is reached from one of its parts.
    rcases ReflTransGen.cases_head reaches with rfl | ⟨part, inside, further⟩
    · cases found'.symm.trans found
      by_contra unnamed
      obtain ⟨part, step⟩ := pathless_iff.mpr ⟨key, member, Bool.of_not_eq_true unnamed⟩
      exact labelled (part, none) step rfl
    · exact (parts part inside).named inner other further found' key member
  · intro inner reaches container
    rcases ReflTransGen.cases_head reaches with same | ⟨part, inside, further⟩
    · cases same
      exact finished
    · exact (parts part inside).covered inner further container

theorem not_fault {route : List Nat} (grounded : Grounded cells value) (named : Named cells value)
    (outside : ∀ index, Reaches cells value (.cell index) → IsContainer cells index →
      index ∉ ancestors) : ¬ Fault cells ancestors value path route error := by
  intro fault
  induction fault with
  | back container again => exact outside _ .refl container again
  | @nameless _ index _ _ cell part found step =>
      obtain ⟨key, member, unnamed⟩ := pathless_iff.mp ⟨part, List.mem_of_getElem? step⟩
      rw [named _ cell .refl found key member] at unnamed
      cases unnamed
  | @inside _ index _ _ _ cell _ _ _ found step below ih =>
      have inside : Inside cells (.cell index) _ :=
        ⟨cell, found, part_of_step (List.mem_of_getElem? step)⟩
      refine ih (grounded.inv inside) (named.inside inside) fun inner reaches container again => ?_
      rcases List.mem_cons.mp again with rfl | above
      · exact grounded.irrefl (.head' inside reaches)
      · exact outside inner (.head inside reaches) container above

theorem Cleared.not_fault {route : List Nat} (cleared : Cleared cells growth value)
    (settled : growth.Settled cells ancestors) :
    ¬ Fault cells ancestors value path route error :=
  Forest.not_fault cleared.grounded cleared.named fun index reaches container =>
    settled.apart index (cleared.covered index reaches container)

/-! ### The walk -/

def Halts (cells : Array Cell) (ancestors : List Nat) (growth : Growth) (value : Value)
    (path : Text) (error : PlantError) : Prop :=
  ∃ route, Fault cells ancestors value path route error ∧
    (∀ other error', Fault cells ancestors value path other error' →
      route <+: other ∨ LeftOf route other) ∧
    Unfinished cells growth.done value path route

/-- What comes of growing a value: all below it is finished, or the walk is stopped. -/
def Outcome (cells : Array Cell) (ancestors : List Nat) (growth : Growth) (value : Value)
    (path : Text) : Except PlantError (Node × Growth) → Prop
  | .ok (_, after) =>
      growth.done ⊆ after.done ∧ after.Settled cells ancestors ∧ Cleared cells after value
  | .error error => Halts cells ancestors growth value path error

theorem growParts_outcome {grow : Grow}
    (outcome : ∀ part deeper growth, Growth.Settled cells ancestors growth →
      Outcome cells ancestors growth part deeper (grow part deeper growth))
    (parts : List (Value × Option Text)) (settled : growth.Settled cells ancestors) :
    match growParts grow parts growth with
    | .ok (_, after) => growth.done ⊆ after.done ∧ after.Settled cells ancestors ∧
        ∀ part ∈ parts, part.2 ≠ none ∧ Cleared cells after part.1
    | .error error => ∃ before part later middle, parts = before ++ part :: later ∧
        growth.done ⊆ middle.done ∧ Growth.Settled cells ancestors middle ∧
        (∀ sibling ∈ before, sibling.2 ≠ none ∧ Cleared cells middle sibling.1) ∧
        (part.2 = none ∧ error = .unnamed ∨
          ∃ deeper, part.2 = some deeper ∧ Halts cells ancestors middle part.1 deeper error) := by
  -- On the parts still to grow; each one finds what those before it have finished.
  induction parts generalizing growth with
  | nil => exact ⟨List.Subset.refl _, settled, fun part member => by cases member⟩
  | cons part rest ih =>
      obtain ⟨value, _ | deeper⟩ := part
      · exact ⟨[], _, rest, growth, rfl, List.Subset.refl _, settled,
          List.forall_mem_nil _, .inl ⟨rfl, rfl⟩⟩
      · have here := outcome value deeper growth settled
        simp only [growParts]
        generalize grow value deeper growth = result at here
        rcases result with error | ⟨node, middle⟩
        · exact ⟨[], _, rest, growth, rfl, List.Subset.refl _, settled,
            List.forall_mem_nil _, .inr ⟨deeper, rfl, here⟩⟩
        · obtain ⟨grown, settled', cleared⟩ := here
          have onward := ih settled'
          simp only [bind, Except.bind]
          generalize growParts grow rest middle = result at onward
          rcases result with error | ⟨nodes, after⟩
          · obtain ⟨before, stopped, later, last, rfl, more, settled'', clear, ends⟩ := onward
            refine ⟨(value, some deeper) :: before, stopped, later, last, rfl,
              List.Subset.trans grown more, settled'', ?_, ends⟩
            exact List.forall_mem_cons.mpr ⟨⟨Option.some_ne_none _, cleared.mono more⟩, clear⟩
          · obtain ⟨more, settled'', clear⟩ := onward
            refine ⟨List.Subset.trans grown more, settled'', ?_⟩
            exact List.forall_mem_cons.mpr ⟨⟨Option.some_ne_none _, cleared.mono more⟩, clear⟩

section Stopped

variable {index : Nat} {cell : Cell} {before later : List (Value × Option Text)}
  {last : Value × Option Text}

/-- A route from a container takes the place of a part that is finished, that of the part at which
the walk stops, or one behind it. -/
theorem step_cases {place : Nat} {step : Value × Option Text}
    (steps : cell.steps cells path = before ++ last :: later)
    (taken : (cell.steps cells path)[place]? = some step) :
    place < before.length ∧ step ∈ before ∨ place = before.length ∧ step = last ∨
      before.length < place := by
  rw [steps] at taken
  rcases Nat.lt_trichotomy place before.length with less | rfl | more
  · rw [List.getElem?_append_left less] at taken
    exact .inl ⟨less, List.mem_of_getElem? taken⟩
  · simp only [List.getElem?_append_right (Nat.le_refl _), Nat.sub_self, List.getElem?_cons_zero,
      Option.some.injEq] at taken
    exact .inr (.inl ⟨rfl, taken.symm⟩)
  · exact .inr (.inr more)

theorem unfinished_here (place : Nat) (fresh : index ∉ growth.done) :
    Unfinished cells growth.done (.cell index) path [place] := by
  intro way inner here shorter differs followed _
  cases way with
  | nil =>
      cases followed
      exact ⟨fresh, fun _ _ left => absurd left not_leftOf_nil⟩
  | cons first way =>
      obtain ⟨rfl, shorter'⟩ := List.cons_prefix_cons.mp shorter
      rw [List.prefix_nil.mp shorter'] at differs
      exact absurd rfl differs

theorem unfinished_cons {deeper : Text} {route : List Nat} (found : cells[index]? = some cell)
    (steps : cell.steps cells path = before ++ (part, some deeper) :: later)
    (fresh : index ∉ growth.done) (more : growth.done ⊆ middle.done)
    (clear : ∀ sibling ∈ before, Cleared cells middle sibling.1)
    (unfinished : Unfinished cells middle.done part deeper route) :
    Unfinished cells growth.done (.cell index) path (before.length :: route) := by
  have taken : (cell.steps cells path)[before.length]? = some (part, some deeper) := by
    simp [steps]
  intro way inner here shorter differs followed container
  cases way with
  | nil =>
      cases followed
      exact ⟨fresh, fun _ _ left => absurd left not_leftOf_nil⟩
  | cons place way =>
      obtain ⟨rfl, shorter'⟩ := List.cons_prefix_cons.mp shorter
      rw [follow_cons found taken] at followed
      obtain ⟨outside, apart⟩ := unfinished way inner here shorter'
        (fun same => differs (by rw [same])) followed container
      refine ⟨fun member => outside (more member), fun earlier there left again => ?_⟩
      cases earlier with
      | nil => cases left
      | cons place earlier =>
          obtain ⟨_, cell', sibling, deeper', same, found', step', onward⟩ :=
            follow_cons_eq_some again
          cases same
          cases found.symm.trans found'
          rcases left with less | ⟨rfl, left⟩
          · rcases step_cases steps step' with ⟨_, member⟩ | ⟨same, _⟩ | behind
            · -- An earlier part is finished, and so is what the route through it comes to.
              exact outside ((clear _ member).covered inner (reaches_of_follow onward) container)
            · omega
            · omega
          · cases taken.symm.trans step'
            exact apart earlier there left onward

theorem Fault.at_last {route : List Nat}
    (fault : Fault cells ancestors (.cell index) path route error)
    (found : cells[index]? = some cell) (outside : index ∉ ancestors)
    (steps : cell.steps cells path = before ++ last :: later)
    (settled : middle.Settled cells (index :: ancestors))
    (clear : ∀ sibling ∈ before, sibling.2 ≠ none ∧ Cleared cells middle sibling.1) :
    (∃ rest, route = before.length :: rest ∧ (last.2 = none ∨ ∃ deeper, last.2 = some deeper ∧
      Fault cells (index :: ancestors) last.1 deeper rest error)) ∨
    ∃ place rest, route = place :: rest ∧ before.length < place := by
  -- No fault lies in a part before the last one, since those are all clear.
  cases fault with
  | back _ again => exact absurd again outside
  | nameless found' step =>
      cases found.symm.trans found'
      rcases step_cases steps step with ⟨_, member⟩ | ⟨rfl, same⟩ | beyond
      · exact absurd rfl (clear _ member).1
      · cases same
        exact .inl ⟨[], rfl, .inl rfl⟩
      · exact .inr ⟨_, _, rfl, beyond⟩
  | inside found' step below =>
      cases found.symm.trans found'
      rcases step_cases steps step with ⟨_, member⟩ | ⟨rfl, same⟩ | beyond
      · exact absurd below ((clear _ member).2.not_fault settled)
      · cases same
        exact .inl ⟨_, rfl, .inr ⟨_, rfl, below⟩⟩
      · exact .inr ⟨_, _, rfl, beyond⟩

theorem halts_container (found : cells[index]? = some cell) (outside : index ∉ ancestors)
    (fresh : index ∉ growth.done) (steps : cell.steps cells path = before ++ last :: later)
    (more : growth.done ⊆ middle.done) (settled : middle.Settled cells (index :: ancestors))
    (clear : ∀ sibling ∈ before, sibling.2 ≠ none ∧ Cleared cells middle sibling.1)
    (ends : last.2 = none ∧ error = .unnamed ∨ ∃ deeper, last.2 = some deeper ∧
      Halts cells (index :: ancestors) middle last.1 deeper error) :
    Halts cells ancestors growth (.cell index) path error := by
  obtain ⟨part, deeper⟩ := last
  have taken : (cell.steps cells path)[before.length]? = some (part, deeper) := by simp [steps]
  -- Growing stopped at a key without a text, or somewhere below the last part.
  rcases ends with ⟨rfl, rfl⟩ | ⟨there, rfl, route, fault, least, unfinished⟩
  · refine ⟨[before.length], .nameless found taken, fun other error' fault => ?_,
      unfinished_here _ fresh⟩
    rcases fault.at_last found outside steps settled clear with
      ⟨rest, rfl, _⟩ | ⟨place, rest, rfl, beyond⟩
    · exact .inl (List.cons_prefix_cons.mpr ⟨rfl, List.nil_prefix⟩)
    · exact .inr (.inl beyond)
  · refine ⟨before.length :: route, .inside found taken fault, fun other error' fault' => ?_,
      unfinished_cons found steps fresh more (fun sibling member => (clear sibling member).2)
        unfinished⟩
    rcases fault'.at_last found outside steps settled clear with
      ⟨rest, rfl, none | ⟨_, same, below⟩⟩ | ⟨place, rest, rfl, beyond⟩
    · cases none
    · cases same
      rcases least rest error' below with shorter | left
      · exact .inl (List.cons_prefix_cons.mpr ⟨rfl, shorter⟩)
      · exact .inr (.inr ⟨rfl, left⟩)
    · exact .inr (.inl beyond)

end Stopped

structure Descent (cells : Array Cell) (depth : Nat) (ancestors : List Nat) : Prop where
  distinct : ancestors.Nodup
  within : ∀ index ∈ ancestors, index < cells.size
  enough : cells.size < ancestors.length + depth

theorem Descent.depth_succ {depth : Nat} (descent : Descent cells depth ancestors) :
    ∃ less, depth = less + 1 := by
  have subset : ancestors ⊆ List.range cells.size :=
    fun index member => List.mem_range.mpr (descent.within index member)
  have bound := descent.distinct.length_le_of_subset subset
  have enough := descent.enough
  rw [List.length_range] at bound
  exact Nat.exists_eq_succ_of_ne_zero (by omega)

theorem Descent.inside {depth index : Nat} (descent : Descent cells (depth + 1) ancestors)
    (outside : index ∉ ancestors) (within : index < cells.size) :
    Descent cells depth (index :: ancestors) := by
  refine ⟨List.nodup_cons.mpr ⟨outside, descent.distinct⟩,
    List.forall_mem_cons.mpr ⟨within, descent.within⟩, ?_⟩
  have enough := descent.enough
  rw [List.length_cons]
  omega

theorem Growth.Settled.enter {index : Nat} (settled : growth.Settled cells ancestors)
    (fresh : index ∉ growth.done) : growth.Settled cells (index :: ancestors) := by
  refine ⟨settled.cleared, fun other member above => ?_⟩
  rcases List.mem_cons.mp above with rfl | above
  · exact fresh member
  · exact settled.apart other member above

theorem settled_addBranch {index : Nat} {cell : Cell} (branch : Branch)
    (found : cells[index]? = some cell) (outside : index ∉ ancestors)
    (settled : growth.Settled cells (index :: ancestors))
    (clear : ∀ step ∈ cell.steps cells path, step.2 ≠ none ∧ Cleared cells growth step.1) :
    (growth.addBranch index branch).2.Settled cells ancestors ∧
      Cleared cells (growth.addBranch index branch).2 (.cell index) := by
  have more : growth.done ⊆ (growth.addBranch index branch).2.done :=
    List.subset_cons_of_subset _ (List.Subset.refl _)
  have cleared : Cleared cells (growth.addBranch index branch).2 (.cell index) := by
    refine cleared_container found (fun step member => (clear step member).1) ?_ List.mem_cons_self
    intro part member
    obtain ⟨deeper, step⟩ := step_of_part path member
    exact (clear _ step).2.mono more
  -- The new branch is clear, and so is all that was before.
  refine ⟨⟨?_, ?_⟩, cleared⟩
  · intro other member
    rcases List.mem_cons.mp member with rfl | old
    · exact cleared
    · exact (settled.cleared other old).mono more
  · intro other member
    rcases List.mem_cons.mp member with rfl | old
    · exact outside
    · exact fun above => settled.apart other old (List.mem_cons_of_mem _ above)

/-- Growing a value finishes all that is below it, or stops at the first fault. -/
theorem grow_outcome {depth : Nat} (descent : Descent cells depth ancestors)
    (settled : growth.Settled cells ancestors) :
    Outcome cells ancestors growth value path (grow cells depth ancestors value path growth) := by
  induction depth generalizing ancestors growth value path with
  | zero =>
      -- The containers on the way are different cells, so there is depth left for one more.
      obtain ⟨less, impossible⟩ := descent.depth_succ
      cases impossible
  | succ depth ih =>
      by_cases container : ∃ index, value = .cell index ∧ IsContainer cells index
      · obtain ⟨index, rfl, cell, found, container⟩ := container
        rw [grow_container found container]
        by_cases again : index ∈ ancestors
        · rw [if_pos again]
          refine ⟨[], .back ⟨cell, found, container⟩ again, fun _ _ _ => .inl List.nil_prefix, ?_⟩
          exact fun way _ _ shorter differs => absurd (List.prefix_nil.mp shorter) differs
        · rw [if_neg again]
          cases past : growth.finished.lookup index with
          | some number =>
              -- The walk does not go in again, and need not: all below was finished then.
              have member : index ∈ growth.done := mem_done.mpr (by simp [past])
              exact ⟨List.Subset.refl _, settled, settled.cleared index member⟩
          | none =>
              have fresh : index ∉ growth.done := fun member => mem_done.mp member past
              have within := (Array.getElem?_eq_some_iff.mp found).1
              have parts := growParts_outcome
                (fun part deeper growth => @ih _ part deeper growth (descent.inside again within))
                (cell.steps cells path) (settled.enter fresh)
              generalize growParts (grow cells depth (index :: ancestors)) (cell.steps cells path)
                growth = result at parts
              rcases result with error | ⟨nodes, after⟩
              · obtain ⟨before, last, later, middle, steps, more, settled', clear, ends⟩ := parts
                exact halts_container found again fresh steps more settled' clear ends
              · obtain ⟨more, settled', clear⟩ := parts
                obtain ⟨settled'', cleared⟩ :=
                  settled_addBranch (branchOf nodes cell) found again settled' clear
                exact ⟨List.subset_cons_of_subset _ more, settled'', cleared⟩
      · have simple : ∀ index, value = .cell index → ¬ IsContainer cells index :=
          fun index same inside => container ⟨index, same, inside⟩
        rw [grow_leaf simple]
        refine ⟨List.Subset.refl _, ⟨fun index member => ?_, settled.apart⟩, cleared_leaf _ simple⟩
        exact (settled.cleared index member).mono (List.Subset.refl _)

/-! ### Planting -/

theorem settled_start (cells : Array Cell) (forest : Forest) :
    Growth.Settled cells [] ⟨forest, []⟩ :=
  ⟨List.forall_mem_nil _, List.forall_mem_nil _⟩

theorem outcome_start (cells : Array Cell) (root : Value) (path : Text) (forest : Forest) :
    Outcome cells [] ⟨forest, []⟩ root path
      (grow cells (cells.size + 1) [] root path ⟨forest, []⟩) := by
  have descent : Descent cells (cells.size + 1) [] :=
    ⟨List.nodup_nil, List.forall_mem_nil _, by rw [List.length_nil]; omega⟩
  exact grow_outcome descent (settled_start cells forest)

theorem plant_outcome (cells : Array Cell) (root : Value) (path : Text) (forest : Forest) :
    match plant cells root path forest with
    | .ok _ => Grounded cells root ∧ Named cells root
    | .error error => Halts cells [] ⟨forest, []⟩ root path error := by
  have outcome := outcome_start cells root path forest
  simp only [plant]
  generalize grow cells (cells.size + 1) [] root path ⟨forest, []⟩ = result at outcome
  rcases result with error | ⟨node, growth⟩
  · exact outcome
  · exact ⟨outcome.2.2.grounded, outcome.2.2.named⟩

theorem plant_ok_iff (cells : Array Cell) (root : Value) (path : Text) (forest : Forest) :
    (∃ planted, plant cells root path forest = .ok planted) ↔
      ¬ Cyclic cells root ∧ Named cells root := by
  have outcome := plant_outcome cells root path forest
  constructor
  · rintro ⟨planted, accepted⟩
    rw [accepted] at outcome
    exact ⟨outcome.1.acyclic, outcome.2⟩
  · rintro ⟨acyclic, named⟩
    cases result : plant cells root path forest with
    | ok planted => exact ⟨planted, rfl⟩
    | error error =>
        rw [result] at outcome
        obtain ⟨route, fault, -⟩ := outcome
        cases error with
        | cycle closing => exact absurd (cyclic_of_returns (fault_iff_stops.mp fault)) acyclic
        | unnamed => exact absurd named (not_named_of_nameless (fault_iff_stops.mp fault))

theorem grounded_of_plant {root : Value} {forest : Forest} {planted : Node × Forest}
    (accepted : plant cells root path forest = .ok planted) :
    Grounded cells root ∧ Named cells root := by
  have outcome := plant_outcome cells root path forest
  rwa [accepted] at outcome

theorem plant_error_iff (cells : Array Cell) (root : Value) (path : Text) (forest : Forest)
    (error : PlantError) :
    plant cells root path forest = .error error ↔
      ∃ route, Stops cells root path route error ∧ First cells root path route := by
  have outcome := plant_outcome cells root path forest
  constructor
  · intro failed
    rw [failed] at outcome
    obtain ⟨route, fault, least, unfinished⟩ := outcome
    exact ⟨route, fault_iff_stops.mp fault,
      ⟨fun other error' stops => least other error' (fault_iff_stops.mpr stops), unfinished⟩⟩
  · rintro ⟨route, stops, first⟩
    have fault := fault_iff_stops.mpr stops
    -- No fault is passed by, and there is only one route that comes first.
    cases result : plant cells root path forest with
    | ok planted =>
        rw [result] at outcome
        exact absurd fault (not_fault outcome.1 outcome.2 fun _ _ _ => List.not_mem_nil)
    | error error' =>
        rw [result] at outcome
        obtain ⟨route', fault', least, -⟩ := outcome
        have same : route = route' :=
          eq_of_first (first.least route' error' (fault_iff_stops.mp fault')) (least route error fault)
        rw [same] at fault
        rw [fault.unique fault']

/-- Planting visits the root of a tree exactly if nothing that is reached from the root leads back
to itself and all keys there have a text. Otherwise it fails, and says so of the first of all routes
that lead back to a container on them or end at a key without a text: where that route closes, or no
more than that there is no text. -/
theorem plant_finds_first_cycle (cells : Array Cell) (root : Value) (path : Text)
    (forest : Forest) :
    ((∃ node, visitOf (plant cells root path forest) = .ok (.success node none none)) ↔
      ¬ Cyclic cells root ∧ Named cells root) ∧
    (∀ problem closing, visitOf (plant cells root path forest) = .ok (.failed problem closing) ↔
      problem = "cyclic alias reference" ∧
        ∃ route, Returns cells root path route closing ∧ First cells root path route) ∧
    (visitOf (plant cells root path forest) = .error .tooManyDigitsWritten ↔
      ∃ route, Nameless cells root path route ∧ First cells root path route) := by
  rw [← plant_ok_iff cells root path forest]
  have closes (closing : Text) := plant_error_iff cells root path forest (.cycle closing)
  have unnamed := plant_error_iff cells root path forest .unnamed
  simp only [Stops] at closes unnamed
  rw [← unnamed]
  refine ⟨?_, fun problem closing => ?_, ?_⟩
  · rcases plant cells root path forest with (_ | _) | ⟨node, later⟩ <;> simp [visitOf]
  · rw [← closes]
    change _ ↔ problem = cycleProblem ∧ _
    rcases plant cells root path forest with (_ | _) | ⟨node, later⟩ <;> simp [visitOf, eq_comm]
  · rcases plant cells root path forest with (_ | _) | ⟨node, later⟩ <;> simp [visitOf]

/-- Nothing leads back here, and still there is no tree: the key has 4301 digits. -/
theorem plant_refuses_long_key :
    let cells : Array Cell := #[.mapping [(.atom (.int (10 ^ 4300)), .atom .null)]]
    ¬ Cyclic cells (.cell 0) ∧
      visitOf (plant cells (.cell 0) Path.root empty) = .error .tooManyDigitsWritten := by
  intro cells
  constructor
  · apply Grounded.acyclic
    refine .intro _ ?_
    rintro part ⟨cell, found, member⟩
    cases found
    have leaf : Cleared cells ⟨empty, []⟩ (.atom .null) :=
      cleared_leaf _ fun _ same => nomatch same
    rw [List.mem_singleton.mp member]
    exact leaf.grounded
  · decide +kernel

end SecretFill.Forest
